import CMeshApi.Proto.Frames
import CMeshApi.Foundations.Machine

/-!
# The stored scratchpad that is reported

The status of the scratchpad is answered from the cache. A load refreshes it when it
ends, or leaves that to the start of the stack; a clear does not, so that without a
start the old scratchpad is still reported.
-/

namespace CMeshApi.Proto

open Programs Wpc Machine

section Node

variable {ν : Type}

/-- The requests that change the stored scratchpad. -/
def changesStored (q : Request) : Bool :=
  q.primitiveId == msapScratchStartRequestId || q.primitiveId == msapScratchBlockRequestId ||
    q.primitiveId == msapScratchClearRequestId

/-- A node that tells what it has stored, and changes it through these requests only. -/
structure ScratchpadNode (env : Environment ν) (stored : ν → AppScratchpadStatus) : Prop where
  keeps : Keeps env stored
  other : ∀ q, changesStored q = false → ∀ n, stored (env.request q n).2 = stored n
  status : ∀ n, (env.scratchpadStatus n).1 = (0, stored n)

/-- The cache has what the node has stored. -/
def Synced (stored : ν → AppScratchpadStatus) (w : World Gateway ν) : Prop :=
  w.gateway.sinkConfig.otapStatus = stored w.node

def KeepsSynced (stored : ν → AppScratchpadStatus) (w t : World Gateway ν) : Prop :=
  Synced stored w → Synced stored t

variable {env : Environment ν} {stored : ν → AppScratchpadStatus} (node : ScratchpadNode env stored)

include node

theorem ScratchpadNode.asks : Asks env (KeepsSynced stored) :=
  node.keeps.asks (composes_invariant _) fun _ _ h hSynced => hSynced.trans h.symm

theorem ScratchpadNode.sends {q : Request} (h : changesStored q = false) :
    Sends env (KeepsSynced stored) q :=
  fun w hSynced => hSynced.trans (node.other q h w.node).symm

theorem ScratchpadNode.initializeOtapVariables {w t : World Gateway ν} {b : Bool}
    (h : Returns (initializeOtapVariables env) w b t) : Synced stored t := by
  obtain ⟨_, u, hStatus, hRest⟩ := returns_bind.mp h
  have hSynced : Synced stored u := by
    obtain ⟨result, v, hRead, hStore⟩ := returns_bind.mp hStatus
    obtain ⟨answer, v', hAsk, hResult⟩ := returns_bind.mp hRead
    obtain ⟨rfl, rfl⟩ := returns_ask.mp hAsk
    rw [node.status w.node] at hResult
    obtain ⟨rfl, rfl⟩ := returns_pure.mp hResult
    obtain ⟨_, v', hChange, hPure⟩ := returns_bind.mp hStore
    obtain ⟨-, rfl⟩ := returns_pure.mp hPure
    rw [returns_change.mp hChange]
    exact (node.keeps.scratchpadStatus w.node).symm
  obtain ⟨_, v, hTarget, hPure⟩ := returns_bind.mp hRest
  obtain ⟨-, rfl⟩ := returns_pure.mp hPure
  exact (Reading.getValueFromNode node.asks node.asks.wpcReadTargetScratchpad
    fun _ _ hSame => hSame).returns hTarget hSynced

theorem ScratchpadNode.onStackStatusReceived {status : UInt8} {w t : World Gateway ν}
    (h : Returns (onStackStatusReceived env status) w () t) : Synced stored t := by
  obtain ⟨_, u, hRefresh, hRest⟩ := returns_bind.mp h
  obtain ⟨_, v, hConfig, hOtap⟩ := returns_bind.mp hRefresh
  obtain ⟨_, v', hOtap, hPure⟩ := returns_bind.mp hOtap
  obtain ⟨-, rfl⟩ := returns_pure.mp hPure
  exact (Reading.sendStatusEvent node.asks fun _ _ hSame => hSame).returns hRest
    (node.initializeOtapVariables hOtap)

/-- A start that succeeds calls the registered callback. -/
theorem ScratchpadNode.startStack {w t : World Gateway ν}
    (hRegistered : w.gateway.stackStatusCb = true) (h : Returns (startStack env) w .ok t) :
    Synced stored t := by
  obtain ⟨g, v, hGateway, hStart⟩ := returns_bind.mp h
  obtain ⟨rfl, rfl⟩ := returns_read.mp hGateway
  rw [if_pos hRegistered] at hStart
  obtain ⟨answer, u, hRequest, hRest⟩ := returns_bind.mp hStart
  obtain ⟨-, hCallback⟩ := (returns_msapStackStartRequest env).mp hRequest
  cases hResult : startResult answer with
  | some error =>
    rw [hResult] at hRest
    obtain ⟨rfl, -⟩ := returns_pure.mp hRest
    exact absurd hResult (startResult_ne_ok answer)
  | none =>
    rw [hResult] at hRest
    dsimp only at hCallback
    rw [if_pos (startResult_eq_none.mp hResult)] at hCallback
    obtain ⟨told, x, hPoll, hTold⟩ := returns_bind.mp hRest
    have hAfter := (node.asks.getStackStatus 2).returns hPoll (node.onStackStatusReceived hCallback)
    rcases returns_ite.mp hTold with ⟨-, hPure⟩ | ⟨-, hPure⟩
    · exact (returns_pure.mp hPure).2 ▸ hAfter
    · exact (returns_pure.mp hPure).2 ▸ hAfter

theorem ScratchpadNode.startWithAutostart {w t : World Gateway ν}
    (hRegistered : w.gateway.stackStatusCb = true) (h : Returns (startWithAutostart env) w .ok t) :
    Synced stored t := by
  obtain ⟨res, u, hStart, hRest⟩ := returns_bind.mp h
  rcases returns_ite.mp hRest with ⟨hFailed, hPure⟩ | ⟨hOk, hAutostart⟩
  · exact absurd (returns_pure.mp hPure).1.symm hFailed
  · obtain rfl : res = .ok := by_contra hOk
    obtain ⟨_, v, hWrite, hPure⟩ := returns_bind.mp hAutostart
    obtain ⟨-, rfl⟩ := returns_pure.mp hPure
    exact (node.asks.writeAttribute (node.sends rfl)).returns hWrite (node.startStack hRegistered hStart)

theorem ScratchpadNode.forceParametersUpdate {w t : World Gateway ν}
    (hNoRestart : w.gateway.restartAfterLoad = false) (h : Returns (forceParametersUpdate env) w () t) :
    Synced stored t := by
  obtain ⟨g, v, hGateway, hRest⟩ := returns_bind.mp h
  obtain ⟨rfl, rfl⟩ := returns_read.mp hGateway
  rw [hNoRestart] at hRest
  exact node.onStackStatusReceived (show Returns (Proto.onStackStatusReceived env ignoreStatus) v () t from hRest)

omit node

/-- What the load of a scratchpad does not change. -/
def Gateway.flags (g : Gateway) : Bool × Bool := (g.stackStatusCb, g.restartAfterLoad)

theorem refreshes_flags : Refreshes env fun w t : World Gateway ν => t.gateway.flags = w.gateway.flags :=
  refreshes_gateway (fun _ _ => rfl) fun _ _ => rfl

theorem refreshes_currentSeq : Refreshes env fun w t : World Gateway ν =>
    t.gateway.scratchpadLoadCurrentSeq = w.gateway.scratchpadLoadCurrentSeq :=
  refreshes_gateway (fun _ _ => rfl) fun _ _ => rfl

theorem updateScratchpad_flags (req : UploadScratchpadReq) :
    Moves (fun w t : World Gateway ν => t.gateway.flags = w.gateway.flags) (updateScratchpad env req) :=
  refreshes_flags.updateScratchpad (fun _ => Moves.change fun _ => rfl) (fun _ _ _ => rfl)
    (fun _ _ _ => rfl) (fun _ => rfl) req

theorem restartAfterLoad_of_flags {w t : World Gateway ν} (h : t.gateway.flags = w.gateway.flags) :
    t.gateway.restartAfterLoad = w.gateway.restartAfterLoad := congrArg Prod.snd h

theorem ne_invalidCurrentSeq {seq : UInt32} (h : seq ≤ 0xff) : seq ≠ invalidCurrentSeq := by
  rintro rfl
  exact absurd h (by decide)

include node

/-- A chunk that is accepted and leaves no load in progress was the last one. -/
theorem ScratchpadNode.loadChunk {chunk : List UInt8} {offset totalSize seq : UInt32}
    {w t : World Gateway ν} (hSeq : seq ≤ 0xff) (hNoRestart : w.gateway.restartAfterLoad = false)
    (h : Returns (loadChunk env chunk offset totalSize seq) w .ok t)
    (hIdle : t.gateway.scratchpadLoadCurrentSeq = invalidCurrentSeq) : Synced stored t := by
  obtain ⟨g, w', hGateway, hRest⟩ := returns_bind.mp h
  obtain ⟨rfl, rfl⟩ := returns_read.mp hGateway
  rcases returns_ite.mp hRest with ⟨-, hPure⟩ | ⟨hCurrent, hUpload⟩
  · exact absurd (returns_pure.mp hPure).1 nofun
  · obtain ⟨res, u, hBlocks, hRest⟩ := returns_bind.mp hUpload
    have hFlags := (refreshes_flags.asks.wpcUploadLocalBlockScratchpad
      (fun _ _ _ => rfl) chunk offset).returns hBlocks
    have hUnmoved := (refreshes_currentSeq.asks.wpcUploadLocalBlockScratchpad
      (fun _ _ _ => rfl) chunk offset).returns hBlocks
    rcases returns_ite.mp hRest with ⟨hFailed, hPure⟩ | ⟨-, hLast⟩
    · exact absurd (returns_pure.mp hPure).1.symm hFailed
    · rcases returns_ite.mp hLast with ⟨-, hEnd⟩ | ⟨-, hPure⟩
      · obtain ⟨_, v, hClear, hEnd⟩ := returns_bind.mp hEnd
        obtain ⟨_, x, hForce, hPure⟩ := returns_bind.mp hEnd
        obtain ⟨-, rfl⟩ := returns_pure.mp hPure
        refine node.forceParametersUpdate ?_ hForce
        rw [returns_change.mp hClear]
        exact (restartAfterLoad_of_flags hFlags).trans hNoRestart
      · obtain ⟨-, rfl⟩ := returns_pure.mp hPure
        rw [hUnmoved, ← of_not_not hCurrent] at hIdle
        exact absurd hIdle (ne_invalidCurrentSeq hSeq)

theorem ScratchpadNode.updateScratchpad {req : UploadScratchpadReq} {w t : World Gateway ν}
    (hSeq : req.seq ≤ 0xff) (hNoRestart : w.gateway.restartAfterLoad = false)
    (hScratchpad : req.scratchpad ≠ none) (h : Returns (updateScratchpad env req) w .ok t)
    (hIdle : t.gateway.scratchpadLoadCurrentSeq = invalidCurrentSeq) : Synced stored t := by
  unfold Proto.updateScratchpad at h
  cases hData : req.scratchpad with
  | none => exact absurd hData hScratchpad
  | some scratchpad =>
    rw [hData] at h
    cases hInfo : req.chunkInfo with
    | some chunk =>
      rw [hInfo] at h
      obtain ⟨res, u, hFirst, hRest⟩ := returns_bind.mp h
      have hFlags : u.gateway.flags = w.gateway.flags := by
        refine Moves.returns (r := fun w t : World Gateway ν => t.gateway.flags = w.gateway.flags) ?_ hFirst
        exact Moves.ite (refreshes_flags.startLoad (fun _ => Moves.change fun _ => rfl)
          (fun _ _ _ => rfl) _ _) (.pure (composes_eq fun w : World Gateway ν => w.gateway.flags) _)
      rcases returns_ite.mp hRest with ⟨hFailed, hPure⟩ | ⟨-, hLoad⟩
      · exact absurd (returns_pure.mp hPure).1.symm hFailed
      · exact node.loadChunk hSeq ((restartAfterLoad_of_flags hFlags).trans hNoRestart) hLoad hIdle
    | none =>
      rw [hInfo] at h
      obtain ⟨res, u, hUpload, hRest⟩ := returns_bind.mp h
      obtain ⟨_, v, hClear, hRest⟩ := returns_bind.mp hRest
      obtain ⟨_, x, hForce, hPure⟩ := returns_bind.mp hRest
      obtain ⟨-, rfl⟩ := returns_pure.mp hPure
      have hFlags : u.gateway.flags = w.gateway.flags := by
        refine Moves.returns (r := fun w t : World Gateway ν => t.gateway.flags = w.gateway.flags) ?_ hUpload
        exact refreshes_flags.asks.wpcUploadLocalScratchpad (fun _ _ _ => rfl) (fun _ _ _ => rfl) _ _
      refine node.forceParametersUpdate ?_ hForce
      rw [returns_change.mp hClear]
      exact (restartAfterLoad_of_flags hFlags).trans hNoRestart

omit node in
/-- A clear without a restart: the stack does not run, and was not stopped by an earlier request. -/
def QuietClear (env : Environment ν) (w : World Gateway ν) (req : UploadScratchpadReq) : Prop :=
  req.scratchpad = none ∧ statusRead env w.node ≠ .ok 0 ∧ w.gateway.restartAfterLoad = false

theorem ScratchpadNode.uploadScratchpad {req : UploadScratchpadReq} {w t : World Gateway ν}
    (hRegistered : w.gateway.stackStatusCb = true) (hSeq : req.seq ≤ 0xff)
    (hNotQuiet : ¬ QuietClear env w req) (h : Returns (uploadScratchpad env req) w .ok t)
    (hIdle : t.gateway.scratchpadLoadCurrentSeq = invalidCurrentSeq) : Synced stored t := by
  obtain ⟨stopped, u, hStop, hRest⟩ := returns_bind.mp h
  obtain ⟨_, u', hFlag, hRest⟩ := returns_bind.mp hRest
  obtain ⟨res, v, hUpdate, hRest⟩ := returns_bind.mp hRest
  obtain ⟨g, v', hGateway, hRest⟩ := returns_bind.mp hRest
  obtain ⟨rfl, rfl⟩ := returns_read.mp hGateway
  have hStopFlags : u.gateway.flags = w.gateway.flags :=
    (refreshes_flags.stopIfRunning (fun _ => rfl) fun _ => rfl).returns hStop
  have hUpdateFlags : v'.gateway.flags = u'.gateway.flags := (updateScratchpad_flags req).returns hUpdate
  have hNoted : u'.gateway.flags = (w.gateway.stackStatusCb, stopped || w.gateway.restartAfterLoad) := by
    cases stopped with
    | true =>
      rw [returns_change.mp hFlag]
      exact congrArg (fun flags : Bool × Bool => (flags.1, true)) hStopFlags
    | false =>
      rw [(returns_pure.mp hFlag).2]
      exact hStopFlags
  have hFlags : v'.gateway.flags = (w.gateway.stackStatusCb, stopped || w.gateway.restartAfterLoad) :=
    hUpdateFlags.trans hNoted
  rcases returns_ite.mp hRest with ⟨-, hRestart⟩ | ⟨hNoRestart, hPure⟩
  · obtain ⟨restartRes, x, hStart, hRest⟩ := returns_bind.mp hRestart
    obtain ⟨_, y, hClear, hPure⟩ := returns_bind.mp hRest
    obtain ⟨hResult, rfl⟩ := returns_pure.mp hPure
    have hStarted : restartRes = .ok := by
      split at hResult
      · exact hResult.symm
      · next hFailed => exact absurd hResult.symm hFailed
    subst hStarted
    have hSynced := node.startWithAutostart ((congrArg Prod.fst hFlags).trans hRegistered) hStart
    rw [returns_change.mp hClear]
    exact hSynced
  · obtain ⟨rfl, rfl⟩ := returns_pure.mp hPure
    have hNotPending : (stopped || w.gateway.restartAfterLoad) = false := by
      have hAfter : t.gateway.restartAfterLoad = (stopped || w.gateway.restartAfterLoad) :=
        congrArg Prod.snd hFlags
      rw [← hAfter]
      exact Bool.eq_false_iff.mpr fun hPending => hNoRestart ⟨hPending, hIdle⟩
    obtain ⟨rfl, hBefore⟩ := Bool.or_eq_false_iff.mp hNotPending
    have hNotRunning : statusRead env w.node ≠ .ok 0 := by
      intro hRunning
      exact absurd ((stopped_iff env hStop).mpr hRunning) (by decide)
    refine node.updateScratchpad hSeq ((congrArg Prod.snd hNoted).trans hNotPending) ?_ hUpdate hIdle
    exact fun hClear => hNotQuiet ⟨hClear, hNotRunning, hBefore⟩

/-- A request that is answered with OK and leaves no load in progress. -/
def LoadDone (a : AppProtoRes × Raw.UploadScratchpadResp) (t : World Gateway ν) : Prop :=
  a.2.header.res = ErrorCode.ok.value ∧ t.gateway.scratchpadLoadCurrentSeq = invalidCurrentSeq

theorem ScratchpadNode.handleUpload {req : UploadScratchpadReq} {resp : Raw.UploadScratchpadResp}
    {a : AppProtoRes × Raw.UploadScratchpadResp} {w t : World Gateway ν}
    (hRegistered : w.gateway.stackStatusCb = true) (hNotQuiet : ¬ QuietClear env w req)
    (h : Returns (protoOtapHandleUploadScratchpad env req resp) w a t) (hDone : LoadDone a t) :
    Synced stored t := by
  obtain ⟨res, u, hUpload, hRest⟩ := returns_bind.mp h
  obtain ⟨header, v, hHeader, hPure⟩ := returns_bind.mp hRest
  obtain ⟨rfl, rfl⟩ := returns_pure.mp hPure
  obtain rfl : res = .ok := ok_of_responseHeader env hHeader hDone.1
  have hIdle : u.gateway.scratchpadLoadCurrentSeq = invalidCurrentSeq :=
    ((Reading.fillResponseHeader refreshes_currentSeq.asks _ _).returns hHeader).symm.trans hDone.2
  apply (Reading.fillResponseHeader node.asks _ _).returns hHeader
  rcases returns_ite.mp hUpload with ⟨-, hPure⟩ | ⟨hSeq, hUpload⟩
  · cases (returns_pure.mp hPure).1
  · exact node.uploadScratchpad hRegistered (UInt32.not_lt.mp hSeq) hNotQuiet hUpload hIdle

end Node

section Runs

variable {ν : Type}

/-- A request, with what the memory for its response contains. -/
abbrev UploadEvent := UploadScratchpadReq × Raw.UploadScratchpadResp

def uploadStep (env : Environment ν) : Step (World Gateway ν) UploadEvent := fun w e =>
  finish (protoOtapHandleUploadScratchpad env e.1 e.2) w

/-- The status that is answered has the length, the CRC and the sequence that the node has stored. -/
def ReportsStored (env : Environment ν) (stored : ν → AppScratchpadStatus) (t : World Gateway ν) : Prop :=
  ∀ req resp, ∃ a u, Returns (protoConfigHandleGetScratchpadStatus env req resp) t a u ∧
    a.2.hasStoredScratchpad = true ∧ a.2.storedScratchpad = storedScratchpad (stored t.node)

theorem Synced.reportsStored {stored : ν → AppScratchpadStatus} {t : World Gateway ν}
    (env : Environment ν) (h : Synced stored t) : ReportsStored env stored t := by
  intro req resp
  refine ⟨_, _, rfl, rfl, ?_⟩
  exact congrArg storedScratchpad h

theorem uploadStep_stackStatusCb {env : Environment ν} {w t : World Gateway ν} {e : UploadEvent}
    (hRegistered : w.gateway.stackStatusCb = true) (hStep : uploadStep env w e = some t) :
    t.gateway.stackStatusCb = true := by
  obtain ⟨a, hHandler⟩ := finish_eq_some.mp hStep
  have hKept : Handles env fun w t : World Gateway ν =>
      t.gateway.stackStatusCb = w.gateway.stackStatusCb :=
    { toRefreshes := refreshes_gateway (fun _ _ => rfl) fun _ _ => rfl
      sends := fun _ _ _ => rfl
      currentSeq := fun _ => Moves.change fun _ => rfl
      restart := fun _ => Moves.change fun _ => rfl }
  exact ((hKept.uploadScratchpad e.1 e.2).returns hHandler).trans hRegistered

theorem reportsStored_of_not_quietClear {env : Environment ν} {stored : ν → AppScratchpadStatus}
    (node : ScratchpadNode env stored) {s w t : World Gateway ν} {es : List UploadEvent}
    {e : UploadEvent} {a : AppProtoRes × Raw.UploadScratchpadResp}
    (hRegistered : s.gateway.stackStatusCb = true) (hTakes : Takes (uploadStep env) s es w e)
    (hNotQuiet : ¬ QuietClear env w e.1)
    (hHandler : Returns (protoOtapHandleUploadScratchpad env e.1 e.2) w a t) (hDone : LoadDone a t) :
    ReportsStored env stored t := by
  have hKept : ∀ (w : World Gateway ν) e t, w.gateway.stackStatusCb = true →
      uploadStep env w e = some t → t.gateway.stackStatusCb = true := fun _ _ _ => uploadStep_stackStatusCb
  have hStillRegistered : w.gateway.stackStatusCb = true := hTakes.invariant' hKept hRegistered
  exact (node.handleUpload hStillRegistered hNotQuiet hHandler hDone).reportsStored env

end Runs

/-- A node that takes a scratchpad with its start request, and accepts every block. -/
def storingNode : Environment AppScratchpadStatus where
  request q n :=
    if q.primitiveId = msapScratchStartRequestId then
      match q.payload with
      | .imageStart length seq => (0, { n with scratLen := length, scratCrc := 0, scratSeqNumber := seq })
      | _ => (0, n)
    else if q.primitiveId = msapScratchClearRequestId then
      (0, { n with scratLen := 0, scratCrc := 0, scratSeqNumber := 0 })
    else (0, n)
  attributeRead sap id n :=
    if sap = .msap ∧ id = msapStackStatus then ((0, [1]), n)
    else if sap = .msap ∧ id = msapScratchpadBlockMax then ((0, [112]), n)
    else ((4, []), n)
  appConfigDataRead n := ((1, ⟨0, 0, []⟩), n)
  scratchpadStatus n := ((0, n), n)
  scratchpadTargetRead n := ((1, ⟨0, 0, 0, 0⟩), n)
  timestampMsMonotonic n := (0, n)
  timestampMsEpoch n := (0, n)
  malloc n := (false, n)
  rand n := (0, n)
  rounds := 2

theorem storingNode_scratchpad : ScratchpadNode storingNode id where
  keeps :=
    { attributeRead := by
        intro sap id n
        unfold storingNode
        dsimp only
        split
        · rfl
        · split
          · rfl
          · rfl
      appConfigDataRead := fun _ => rfl
      scratchpadStatus := fun _ => rfl
      scratchpadTargetRead := fun _ => rfl
      timestampMsMonotonic := fun _ => rfl
      timestampMsEpoch := fun _ => rfl
      malloc := fun _ => rfl
      rand := fun _ => rfl }
  other := by
    intro q hQuiet n
    unfold changesStored at hQuiet
    rw [Bool.or_eq_false_iff, Bool.or_eq_false_iff, beq_eq_false_iff_ne, beq_eq_false_iff_ne,
      beq_eq_false_iff_ne] at hQuiet
    unfold storingNode
    dsimp only
    rw [if_neg hQuiet.1.1, if_neg hQuiet.2]
  status _ := rfl

def storedBefore : AppScratchpadStatus := ⟨4096, 0x1d0f, 7, 1, 0, 0, 0, 0, 0⟩

def storingSink : World Gateway AppScratchpadStatus where
  statics := ⟨60, 102⟩
  gateway := .initialized { SinkConfig.zero with otapStatus := storedBefore }
  node := storedBefore

def fullImage : UploadEvent := (⟨⟨1⟩, 9, some (List.replicate 16 0), none⟩, ⟨zeroHeader⟩)

def clearStored : UploadEvent := (⟨⟨1⟩, 0, none, none⟩, ⟨zeroHeader⟩)

def uploadEnd (e : UploadEvent) : Option (AppProtoRes × Raw.UploadScratchpadResp) ×
    World Gateway AppScratchpadStatus :=
  protoOtapHandleUploadScratchpad storingNode e.1 e.2 storingSink

theorem uploadEnd_ok (e : UploadEvent)
    (hOk : (uploadEnd e).1.any (fun a => a.2.header.res == ErrorCode.ok.value) = true)
    (hIdle : (uploadEnd e).2.gateway.scratchpadLoadCurrentSeq = invalidCurrentSeq) :
    ∃ a, Returns (protoOtapHandleUploadScratchpad storingNode e.1 e.2) storingSink a (uploadEnd e).2 ∧
      LoadDone a (uploadEnd e).2 := by
  obtain ⟨a, hSome, hRes⟩ := (Option.any_eq_true _ _).mp hOk
  exact ⟨a, returns_of_fst hSome, beq_iff_eq.mp hRes, hIdle⟩

theorem reportsStored_of_not_quietClear_full :
    ∃ a, (Returns (protoOtapHandleUploadScratchpad storingNode fullImage.1 fullImage.2) storingSink a
        (uploadEnd fullImage).2 ∧ LoadDone a (uploadEnd fullImage).2) ∧
      ReportsStored storingNode id (uploadEnd fullImage).2 := by
  obtain ⟨a, hReturns, hDone⟩ := uploadEnd_ok fullImage (by decide +kernel) (by decide +kernel)
  refine ⟨a, ⟨hReturns, hDone⟩, ?_⟩
  refine reportsStored_of_not_quietClear storingNode_scratchpad (s := storingSink)
    rfl ⟨[], [], rfl, rfl⟩ ?_ hReturns hDone
  exact fun hQuiet => absurd hQuiet.1 (by decide)

/-- A clear of a stopped stack leaves the old scratchpad in the cache. -/
theorem cleared_scratchpad_still_reported :
    ScratchpadNode storingNode id ∧ Synced id storingSink ∧
      (∃ a, Returns (protoOtapHandleUploadScratchpad storingNode clearStored.1 clearStored.2)
        storingSink a (uploadEnd clearStored).2 ∧ LoadDone a (uploadEnd clearStored).2) ∧
      ¬ ReportsStored storingNode id (uploadEnd clearStored).2 := by
  refine ⟨storingNode_scratchpad, rfl, uploadEnd_ok clearStored (by decide +kernel) (by decide +kernel), ?_⟩
  intro hReports
  obtain ⟨a, u, hAnswer, -, hStored⟩ := hReports ⟨⟨1⟩⟩ ⟨zeroHeader, false, ⟨0, 0, 0⟩, false, 0, false, 0,
    false, ⟨0, 0, 0⟩, false, 0, false, ⟨0, false, 0, false, 0, 0, 0⟩⟩
  obtain ⟨rfl, -⟩ := Returns.unique rfl hAnswer
  have hCleared : (4096 : UInt32) = 0 := congrArg Raw.ScratchpadInfo.len hStored
  exact absurd hCleared (by decide)

end CMeshApi.Proto
