import CMeshApi.Proto.StackRequests

/-!
# Which status is that of a running stack

Of the status byte, one bit tells that the stack is stopped and the others tell what is not
set. `Proto_config_handle_set_config` looks at the bit; the handlers of `proto_otap.c` take the
stack for running only if no bit is set.
-/

namespace CMeshApi.Proto

open Programs Wpc Machine

inductive ScratchpadRequest where
  | upload (req : UploadScratchpadReq) (resp : Raw.UploadScratchpadResp)
  | process (req : ProcessScratchpadReq) (resp : Raw.ProcessScratchpadResp)

def scratchpadPrimitives : List UInt8 :=
  [msapScratchStartRequestId, msapScratchBlockRequestId, msapScratchClearRequestId,
    msapScratchUpdateRequestId]

def changesScratchpad (q : Request) : Bool := scratchpadPrimitives.contains q.primitiveId

/-- No request changes the scratchpad before the stack is told to stop. -/
def StopsFirst (requests : List Request) : Prop :=
  ∀ before q after, requests = before ++ q :: after → changesScratchpad q = true → stackStop ∈ before

section Status

variable {ν : Type}

def ScratchpadRequest.handle (env : Environment ν) : ScratchpadRequest → Call Gateway ν Unit
  | .upload req resp => do let _ ← protoOtapHandleUploadScratchpad env req resp
  | .process req resp => do let _ ← protoOtapHandleProcessScratchpad env req resp

def scratchpadStep (env : Environment ν) : Step (World Gateway ν) ScratchpadRequest := fun w e =>
  finish (e.handle env) w

/-- The node may have this status: it is the one that is read, if one is read. -/
def MayHaveStatus (env : Environment ν) (n : ν) (status : UInt8) : Prop :=
  ∀ read, statusRead env n = .ok read → read = status

/-- The request changes the scratchpad of a stack that may be running after a stop only. -/
def Guarded (env : Environment ν) (w : World Gateway ν) (e : ScratchpadRequest) : Prop :=
  ∀ status, MayHaveStatus env w.node status → status &&& appStackStopped = 0 →
    StopsFirst (requestsOf (e.handle env.recorded) w)

/-- The status that a new configuration decides on. -/
def readStackStatus (env : Environment ν) : Call Gateway ν Bool :=
  getValueFromNode (wpcGetStackStatus env) fun v c => { c with stackStatus := v }

/-- A new configuration stops the stack, where it needs that, just if the scratchpad handlers
take it for running; also where no status is read, and it decides on the one it has cached. -/
def SameDecision (env : Environment ν) (w : World Gateway ν) : Prop :=
  ∀ running t read u, Returns (stackRunning env) w running t → Returns (readStackStatus env) w read u →
    ∀ cfg, (stackActions u.gateway.sinkConfig.stackStatus cfg).stopStack =
      (running && (cfg.needsStop || cfg.sinkState == some OnOffState.off.value))

/-- The status is read, and is that of a stopped stack or of one that runs with all set. -/
def ReadsAllSet (env : Environment ν) (w : World Gateway ν) : Prop :=
  ∃ status, statusRead env w.node = .ok status ∧ (status &&& appStackStopped = 0 → status = 0)

theorem stackActions_stopStack (status : UInt8) (cfg : SinkNewConfig) :
    (stackActions status cfg).stopStack =
      (decide (status &&& appStackStopped = 0) &&
        (cfg.needsStop || cfg.sinkState == some OnOffState.off.value)) := by
  unfold stackActions
  by_cases hRunning : status &&& appStackStopped = 0
  · rw [if_neg (not_not_intro hRunning), decide_eq_true hRunning, Bool.true_and]
    split
    · next hOff => rw [hOff, beq_self_eq_true, Bool.or_true]
    · next hOff => rw [beq_eq_false_iff_ne.mpr hOff, Bool.or_false]
  · rw [if_pos hRunning, decide_eq_false hRunning, Bool.false_and]
    split
    · rfl
    · rfl

variable {env : Environment ν} {w : World Gateway ν}

theorem exists_stackRunning (env : Environment ν) (w : World Gateway ν) :
    ∃ running t, Returns (stackRunning env) w running t := by
  cases hStatus : statusRead env w.node with
  | ok status =>
    exact ⟨status == 0, _, returns_bind.mpr ⟨.ok status, _,
      (returns_readAttribute env).mpr ⟨hStatus.symm, rfl⟩, returns_pure.mpr ⟨rfl, rfl⟩⟩⟩
  | error error =>
    exact ⟨false, _, returns_bind.mpr ⟨.error error, _,
      (returns_readAttribute env).mpr ⟨hStatus.symm, rfl⟩, returns_pure.mpr ⟨rfl, rfl⟩⟩⟩

theorem exists_readStackStatus {status : UInt8} (hStatus : statusRead env w.node = .ok status) :
    ∃ read u, Returns (readStackStatus env) w read u :=
  ⟨true, _, returns_bind.mpr ⟨.ok status, _, (returns_readAttribute env).mpr ⟨hStatus.symm, rfl⟩,
    returns_bind.mpr ⟨(), _, returns_change.mpr rfl, returns_pure.mpr ⟨rfl, rfl⟩⟩⟩⟩

def switchOff : SinkNewConfig :=
  ⟨.copied sinkIdMaxSize sinkIdMaxSize_pos [], none, none, none, none, none, none, none,
    some OnOffState.off.value⟩

theorem sameDecision_iff {status : UInt8} (hStatus : statusRead env w.node = .ok status) :
    SameDecision env w ↔ (status &&& appStackStopped = 0 → status = 0) := by
  constructor
  · intro hSame hClear
    obtain ⟨running, t, hRunning⟩ := exists_stackRunning env w
    obtain ⟨read, u, hRead⟩ := exists_readStackStatus hStatus
    have hStops := hSame running t read u hRunning hRead switchOff
    rw [cached_statusRead hRead hStatus, stackActions_stopStack, decide_eq_true hClear] at hStops
    obtain ⟨rfl, -⟩ := Bool.and_eq_true_iff.mp hStops.symm
    have hZero := (stackRunning_iff env hRunning).mp rfl
    exact Except.ok.inj (hStatus.symm.trans hZero)
  · intro hAllSet running t read u hRunning hRead cfg
    have hDecision : running = decide (status &&& appStackStopped = 0) := by
      rw [Bool.eq_iff_iff, decide_eq_true_iff, stackRunning_iff env hRunning, hStatus, Except.ok.injEq]
      constructor
      · rintro rfl
        rfl
      · exact hAllSet
    rw [cached_statusRead hRead hStatus, stackActions_stopStack, hDecision]

def Untouched (w : World Gateway (List Request × ν)) : Prop :=
  ∀ q ∈ w.node.1, changesScratchpad q = false

theorem Untouched.stopsFirst {w : World Gateway (List Request × ν)} (h : Untouched w) :
    StopsFirst w.node.1 := by
  intro before q after hSplit hChanges
  have hMem : q ∈ w.node.1 := hSplit ▸ List.mem_append_right _ List.mem_cons_self
  exact absurd (hChanges.symm.trans (h q hMem)) nofun

theorem StopsFirst.snoc {requests : List Request} (h : StopsFirst requests) {q : Request}
    (hStop : changesScratchpad q = true → stackStop ∈ requests) : StopsFirst (requests ++ [q]) := by
  intro before q' after hSplit hChanges
  rcases List.append_eq_append_iff.mp hSplit with ⟨middle, rfl, hLast⟩ | ⟨middle, rfl, hLast⟩
  · cases middle with
    | nil =>
      obtain ⟨rfl, -⟩ := List.cons.inj hLast
      exact List.mem_append_left _ (hStop hChanges)
    | cons _ middle =>
      obtain ⟨-, hNone⟩ := List.cons.inj hLast
      exact absurd (List.append_eq_nil_iff.mp hNone.symm).2 nofun
  · cases middle with
    | nil =>
      obtain ⟨rfl, -⟩ := List.cons.inj hLast
      rw [List.append_nil] at hStop
      exact hStop hChanges
    | cons _ middle =>
      obtain ⟨rfl, -⟩ := List.cons.inj hLast
      exact h before _ middle rfl hChanges

theorem asks_record (env : Environment ν) (prop : List Request → Prop) :
    Asks env.recorded fun w t : World Gateway (List Request × ν) => prop w.node.1 → prop t.node.1 :=
  (keeps_record env).asks (composes_invariant fun w : World Gateway (List Request × ν) => prop w.node.1)
    fun _ _ hSame hBefore => hSame ▸ hBefore

theorem refreshes_record (env : Environment ν) (prop : List Request → Prop) :
    Refreshes env.recorded fun w t : World Gateway (List Request × ν) => prop w.node.1 → prop t.node.1 :=
  refreshes_of_stores (asks_record env prop) (fun _ _ => id) fun _ _ => id

/-- Once the stack was told to stop, everything may be sent. -/
theorem handles_stopped : Handles env.recorded fun w t : World Gateway (List Request × ν) =>
    stackStop ∈ w.node.1 ∧ StopsFirst w.node.1 → stackStop ∈ t.node.1 ∧ StopsFirst t.node.1 where
  toRefreshes := refreshes_record env fun requests => stackStop ∈ requests ∧ StopsFirst requests
  sends _ _ _ := fun ⟨hStop, hFirst⟩ => ⟨List.mem_append_left _ hStop, hFirst.snoc fun _ => hStop⟩
  currentSeq _ := Moves.change fun _ => id
  restart _ := Moves.change fun _ => id

theorem stopIfRunning_untouched :
    Moves (fun w t => Untouched w → Untouched t) (stopIfRunning env.recorded) := by
  have hSends : ∀ q, changesScratchpad q = false →
      Sends env.recorded (fun w t : World Gateway (List Request × ν) => Untouched w → Untouched t) q :=
    fun q hQuiet w hBefore => List.forall_mem_append.mpr ⟨hBefore, List.forall_mem_singleton.mpr hQuiet⟩
  have hRefreshes := refreshes_record env fun requests => ∀ q ∈ requests, changesScratchpad q = false
  exact hRefreshes.stopIfRunning (hSends _ rfl) (hSends _ rfl)

theorem stopIfRunning_stops {w t : World Gateway (List Request × ν)} {stopped : Bool} (hUntouched : Untouched w)
    (hZero : statusRead env.recorded w.node = .ok 0)
    (h : Returns (stopIfRunning env.recorded) w stopped t) : stackStop ∈ t.node.1 ∧ StopsFirst t.node.1 := by
  obtain rfl := (stopped_iff env.recorded h).mpr hZero
  refine ⟨?_, (stopIfRunning_untouched.returns h hUntouched).stopsFirst⟩
  obtain ⟨running, u, hRunning, hRest⟩ := returns_bind.mp h
  rcases returns_ite.mp hRest with ⟨-, hStop⟩ | ⟨-, hPure⟩
  · obtain ⟨_, v, -, hStop⟩ := returns_bind.mp hStop
    obtain ⟨_, x, hStop, hPure⟩ := returns_bind.mp hStop
    obtain ⟨-, rfl⟩ := returns_pure.mp hPure
    have hSent : stackStop ∈ (env.recorded.request stackStop v.node).2.1 :=
      List.mem_append_right _ (List.mem_singleton_self _)
    exact (asks_record env (stackStop ∈ ·)).returns_wpcStopStack hStop hSent
  · cases (returns_pure.mp hPure).1

theorem stopsFirst_bind {α : Type} {rest : Bool → Call Gateway (List Request × ν) α}
    {w : World Gateway (List Request × ν)} (hUntouched : Untouched w)
    (hZero : statusRead env.recorded w.node = .ok 0)
    (hRest : ∀ stopped, Moves (fun w t : World Gateway (List Request × ν) =>
      stackStop ∈ w.node.1 ∧ StopsFirst w.node.1 → stackStop ∈ t.node.1 ∧ StopsFirst t.node.1)
      (rest stopped)) :
    StopsFirst ((stopIfRunning env.recorded >>= rest) w).2.node.1 := by
  have hUnfinished : ∀ t, stopIfRunning env.recorded w = (none, t) → StopsFirst t.node.1 := by
    intro t hNone
    have hMoved := @stopIfRunning_untouched ν env w hUntouched
    rw [hNone] at hMoved
    exact hMoved.stopsFirst
  exact bind_leaves hUnfinished fun stopped t hStop =>
    (hRest stopped t (stopIfRunning_stops hUntouched hZero hStop)).2

theorem leaves_then {α β : Type} {prop : List Request → Prop} {p : Call Gateway (List Request × ν) α}
    {rest : α → Call Gateway (List Request × ν) β} {w : World Gateway (List Request × ν)}
    (h : prop (p w).2.node.1)
    (hRest : ∀ a, Moves (fun w t : World Gateway (List Request × ν) => prop w.node.1 → prop t.node.1)
      (rest a)) : prop ((p >>= rest) w).2.node.1 := by
  have hUnfinished : ∀ t, p w = (none, t) → prop t.node.1 := fun t hNone => by
    rwa [hNone] at h
  exact bind_leaves hUnfinished fun a t hReturns => hRest a t (hReturns.leaves ▸ h)

theorem leaves_respond {α : Type} {prop : List Request → Prop}
    {p : Call Gateway (List Request × ν) AppRes} {header : RequestHeader}
    {answer : AppRes → Raw.ResponseHeader → α} {w : World Gateway (List Request × ν)}
    (h : prop (p w).2.node.1) :
    prop ((do
      let res ← p
      let header ← fillResponseHeader env.recorded header (commonConvertErrorCode res)
      return answer res header) w).2.node.1 := by
  have hAsks := asks_record env prop
  refine leaves_then h fun res => ?_
  apply Moves.bind hAsks.composes (Reading.fillResponseHeader hAsks _ _)
  intro header
  exact .pure hAsks.composes _

theorem stopsFirst_uploadScratchpad {w : World Gateway (List Request × ν)} (hUntouched : Untouched w)
    (hZero : statusRead env.recorded w.node = .ok 0) (req : UploadScratchpadReq) :
    StopsFirst (uploadScratchpad env.recorded req w).2.node.1 :=
  stopsFirst_bind hUntouched hZero (handles_stopped.uploadStopped req)

theorem stopsFirst_processScratchpad {w : World Gateway (List Request × ν)} (hUntouched : Untouched w)
    (hZero : statusRead env.recorded w.node = .ok 0) :
    StopsFirst (processScratchpad env.recorded w).2.node.1 :=
  stopsFirst_bind hUntouched hZero handles_stopped.processStopped

theorem guarded_of_readsAllSet (hAllSet : ReadsAllSet env w) (e : ScratchpadRequest) :
    Guarded env w e := by
  intro status hMay hClear
  obtain ⟨read, hRead, hAllSet⟩ := hAllSet
  obtain rfl := hMay read hRead
  have hZero : statusRead env.recorded w.recording.node = .ok 0 :=
    hRead.trans (congrArg Except.ok (hAllSet hClear))
  have hUntouched : Untouched w.recording := nofun
  have hAsks := asks_record env StopsFirst
  cases e with
  | upload req resp =>
    refine leaves_then (leaves_respond ?_) fun _ => .pure hAsks.composes _
    split
    · exact hUntouched.stopsFirst
    · exact stopsFirst_uploadScratchpad hUntouched hZero req
  | process req resp =>
    exact leaves_then (leaves_respond (stopsFirst_processScratchpad hUntouched hZero))
      fun _ => .pure hAsks.composes _

def clearFirst : ScratchpadRequest := .upload ⟨⟨1⟩, 0, none, none⟩ ⟨zeroHeader⟩

def StartsWith (q : Request) (requests : List Request) : Prop := ∃ rest, requests = q :: rest

/-- The request that was sent first stays the first one. -/
theorem handles_startsWith (env : Environment ν) (q : Request) :
    Handles env.recorded fun w t : World Gateway (List Request × ν) =>
      StartsWith q w.node.1 → StartsWith q t.node.1 where
  toRefreshes := refreshes_record env (StartsWith q)
  sends q' _ _ := fun ⟨rest, hFirst⟩ => ⟨rest ++ [q'], congrArg (· ++ [q']) hFirst⟩
  currentSeq _ := Moves.change fun _ => id
  restart _ := Moves.change fun _ => id

/-- With no status to be read the stack is not stopped, and the clear is the first request. -/
theorem clear_sent_first {error : AppRes} (hStatus : statusRead env w.node = .error error) :
    StartsWith scratchpadClear (requestsOf (clearFirst.handle env.recorded) w) := by
  have hHandles := handles_startsWith env scratchpadClear
  refine leaves_then (leaves_respond ?_) fun _ => .pure hHandles.asks.composes _
  rw [if_neg (by decide)]
  obtain ⟨running, u, hRunning⟩ := exists_stackRunning env.recorded w.recording
  have hNotRunning : running = false := Bool.eq_false_iff.mpr fun hYes => by
    have hZero := (stackRunning_iff env.recorded hRunning).mp hYes
    exact absurd (hStatus.symm.trans hZero) nofun
  subst hNotRunning
  have hSame : u.node.1 = [] :=
    (Reading.stackRunning ((keeps_record env).asks (composes_eq fun w => w.node.1)
      fun _ _ hSame => hSame)).returns hRunning
  have hNoStop : Returns (stopIfRunning env.recorded) w.recording false u :=
    returns_bind.mpr ⟨false, u, hRunning, returns_pure.mpr ⟨rfl, rfl⟩⟩
  unfold uploadScratchpad
  rw [bind_of_returns hNoStop, if_neg (by decide), pure_bind]
  refine leaves_then ?_ (hHandles.toRefreshes.restartAfterLoad hHandles.sends hHandles.restart)
  exact ⟨[], congrArg (· ++ [scratchpadClear]) hSame⟩

/-- The handlers guard the scratchpad and decide alike just where the status is read and shows a
stopped stack or one with all set. -/
theorem guarded_iff_readsAllSet :
    (∀ e, Guarded env w e) ∧ SameDecision env w ↔ ReadsAllSet env w := by
  constructor
  · rintro ⟨hGuarded, hSame⟩
    cases hStatus : statusRead env w.node with
    | ok status => exact ⟨status, hStatus, (sameDecision_iff hStatus).mp hSame⟩
    | error error =>
      have hMay : MayHaveStatus env w.node 0 := fun read hRead => by
        rw [hStatus] at hRead
        cases hRead
      obtain ⟨rest, hSent⟩ := clear_sent_first hStatus
      have hStop := hGuarded clearFirst 0 hMay (by decide) [] scratchpadClear rest hSent (by decide)
      cases hStop
  · intro hAllSet
    have hRead := hAllSet
    obtain ⟨status, hStatus, hZero⟩ := hRead
    exact ⟨guarded_of_readsAllSet hAllSet, (sameDecision_iff hStatus).mpr hZero⟩

/-- In a run whose requests read the status of a stopped stack or of one with all set, none
changes the scratchpad of a running stack before a stop, and all handlers decide as one; and only
there do they. -/
theorem guarded_of_allSet (env : Environment ν) (s : World Gateway ν) (es : List ScratchpadRequest) :
    (Meets (scratchpadStep env) (fun w _ => ReadsAllSet env w) s es →
      ∀ w e, Takes (scratchpadStep env) s es w e → Guarded env w e ∧ SameDecision env w) ∧
    ∀ w, (∀ e, Guarded env w e) ∧ SameDecision env w ↔ ReadsAllSet env w := by
  refine ⟨?_, fun w => guarded_iff_readsAllSet⟩
  intro hMeets w e hTakes
  obtain ⟨hGuarded, hSame⟩ := guarded_iff_readsAllSet.mpr (meets_iff_takes.mp hMeets w e hTakes)
  exact ⟨hGuarded e, hSame⟩

theorem guarded_of_allSet_clear :
    let s := runningStack fun _ => false
    Takes (scratchpadStep switchNode) s [clearFirst] s clearFirst ∧
      Guarded switchNode s clearFirst ∧ SameDecision switchNode s := by
  intro s
  have hTakes : Takes (scratchpadStep switchNode) s [clearFirst] s clearFirst := ⟨[], [], rfl, rfl⟩
  have hAllSet : ReadsAllSet switchNode s := ⟨0, rfl, fun _ => rfl⟩
  have hMeets : Meets (scratchpadStep switchNode) (fun w _ => ReadsAllSet switchNode w) s [clearFirst] := by
    refine ⟨hAllSet, ?_⟩
    split
    · trivial
    · trivial
  exact ⟨hTakes, (guarded_of_allSet switchNode s [clearFirst]).1 hMeets s clearFirst hTakes⟩

/-- The stack runs, and its application configuration data is not set. -/
def appDataNotSet : Environment (Nat × Power) :=
  { switchNode with attributeRead := fun _ _ n => ((0, [32]), n) }

theorem clear_before_stop :
    let s := runningStack fun _ => false
    Takes (scratchpadStep appDataNotSet) s [clearFirst] s clearFirst ∧
      ¬ Guarded appDataNotSet s clearFirst ∧ ¬ SameDecision appDataNotSet s := by
  intro s
  refine ⟨⟨[], [], rfl, rfl⟩, ?_, ?_⟩
  · intro hGuarded
    have hSent : requestsOf (clearFirst.handle appDataNotSet.recorded) s = [scratchpadClear] := by
      decide +kernel
    have hStop := hGuarded 32 (fun _ hRead => (Except.ok.inj hRead).symm) (by decide) [] scratchpadClear [] hSent (by decide)
    cases hStop
  · intro hSame
    have hStatus : statusRead appDataNotSet s.node = .ok 32 := rfl
    exact absurd ((sameDecision_iff hStatus).mp hSame) (by decide)

end Status

end CMeshApi.Proto
