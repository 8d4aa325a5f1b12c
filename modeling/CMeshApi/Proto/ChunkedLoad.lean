import CMeshApi.Proto.StoredStatus
import CMeshApi.Foundations.Segments

/-!
# A scratchpad that is loaded in chunks

Of a load under way only the sequence is known; it ends with the chunk that ends at
the total size named in it. Which chunks came before is not recorded. They cover the
scratchpad if they are sent in order, which is left to the sender.
-/

namespace CMeshApi.Proto

open Programs Wpc Machine

structure Chunk where
  seq : UInt32
  totalSize : UInt32
  segment : Segment UInt8
deriving DecidableEq, Repr

/-- The chunk with which the request comes to `handle_scratchpad_chunk`. -/
def UploadScratchpadReq.chunk (req : UploadScratchpadReq) : Option Chunk :=
  if 0xff < req.seq then none
  else
    match req.scratchpad, req.chunkInfo with
    | some scratchpad, some info =>
      some ⟨req.seq, info.scratchpadTotalSize, ⟨info.startOffset.toNat, scratchpad⟩⟩
    | _, _ => none

theorem UploadScratchpadReq.chunk_eq_some {req : UploadScratchpadReq} {chunk : Chunk} :
    req.chunk = some chunk ↔ req.seq ≤ 0xff ∧ ∃ scratchpad info, req.scratchpad = some scratchpad ∧
      req.chunkInfo = some info ∧
        chunk = ⟨req.seq, info.scratchpadTotalSize, ⟨info.startOffset.toNat, scratchpad⟩⟩ := by
  unfold UploadScratchpadReq.chunk
  split
  · next hLarge => exact ⟨nofun, fun h => absurd h.1 (UInt32.not_le.mpr hLarge)⟩
  · next hSmall =>
    cases req.scratchpad with
    | none => exact ⟨nofun, nofun⟩
    | some scratchpad =>
      cases req.chunkInfo with
      | none => exact ⟨nofun, nofun⟩
      | some info =>
        constructor
        · intro h
          exact ⟨UInt32.not_lt.mp hSmall, scratchpad, info, rfl, rfl, (Option.some.inj h).symm⟩
        · rintro ⟨-, scratchpad, info, ⟨rfl⟩, ⟨rfl⟩, rfl⟩
          rfl

section Requests

variable {ν : Type} {env : Environment ν}

/-- `Proto_otap_handle_upload_scratchpad` up to what the update of the scratchpad answers. -/
def updateResult (env : Environment ν) (req : UploadScratchpadReq) : Call Gateway ν AppRes := do
  let stopped ← stopIfRunning env
  (if stopped then setRestartAfterLoad true else pure ())
  updateScratchpad env req

theorem returns_handleUpload {req : UploadScratchpadReq} {resp : Raw.UploadScratchpadResp}
    {a : AppProtoRes × Raw.UploadScratchpadResp} {w t : World Gateway ν}
    (h : Returns (protoOtapHandleUploadScratchpad env req resp) w a t) :
    (0xff < req.seq ∧
        t.gateway.scratchpadLoadCurrentSeq = w.gateway.scratchpadLoadCurrentSeq) ∨
      (req.seq ≤ 0xff ∧ ∃ res u, Returns (updateResult env req) w res u ∧
        t.gateway.scratchpadLoadCurrentSeq = u.gateway.scratchpadLoadCurrentSeq) := by
  obtain ⟨answer, v, hUpload, hRest⟩ := returns_bind.mp h
  obtain ⟨header, x, hHeader, hPure⟩ := returns_bind.mp hRest
  obtain ⟨-, rfl⟩ := returns_pure.mp hPure
  have hSame : t.gateway.scratchpadLoadCurrentSeq = v.gateway.scratchpadLoadCurrentSeq :=
    (Reading.fillResponseHeader refreshes_currentSeq.asks _ _).returns hHeader
  rcases returns_ite.mp hUpload with ⟨hLarge, hPure⟩ | ⟨hSmall, hUpload⟩
  · obtain ⟨-, rfl⟩ := returns_pure.mp hPure
    exact .inl ⟨hLarge, hSame⟩
  · obtain ⟨stopped, u, hStop, hRest⟩ := returns_bind.mp hUpload
    obtain ⟨_, u', hFlag, hRest⟩ := returns_bind.mp hRest
    obtain ⟨res, x', hUpdate, hRestart⟩ := returns_bind.mp hRest
    have hRestarted : v.gateway.scratchpadLoadCurrentSeq = x'.gateway.scratchpadLoadCurrentSeq :=
      (refreshes_currentSeq.restartAfterLoad (fun _ _ _ => rfl)
        (fun _ => Moves.change fun _ => rfl) res).returns hRestart
    have hResult : Returns (updateResult env req) w res x' :=
      returns_bind.mpr ⟨stopped, u, hStop, returns_bind.mpr ⟨(), u', hFlag, hUpdate⟩⟩
    exact .inr ⟨UInt32.not_lt.mp hSmall, res, x', hResult, hSame.trans hRestarted⟩

/-- The sequence of the load under way, before the update and after it. -/
theorem returns_updateResult {req : UploadScratchpadReq} {res : AppRes} {w t : World Gateway ν}
    (h : Returns (updateResult env req) w res t) :
    ∃ u, u.gateway.scratchpadLoadCurrentSeq = w.gateway.scratchpadLoadCurrentSeq ∧
      Returns (updateScratchpad env req) u res t := by
  obtain ⟨stopped, v, hStop, hRest⟩ := returns_bind.mp h
  obtain ⟨_, u, hFlag, hUpdate⟩ := returns_bind.mp hRest
  have hStopped : v.gateway.scratchpadLoadCurrentSeq = w.gateway.scratchpadLoadCurrentSeq :=
    (refreshes_currentSeq.stopIfRunning (fun _ => rfl) fun _ => rfl).returns hStop
  refine ⟨u, ?_, hUpdate⟩
  cases stopped with
  | true => exact returns_change.mp hFlag ▸ hStopped
  | false => exact (returns_pure.mp hFlag).2 ▸ hStopped

/-- A start that succeeds makes its sequence the one of the load, and a start that fails ends it. -/
theorem returns_startLoad {totalSize seq : UInt32} {res : AppRes} {w t : World Gateway ν}
    (h : Returns (startLoad env totalSize seq) w res t) :
    t.gateway.scratchpadLoadCurrentSeq = if res = .ok then seq else invalidCurrentSeq := by
  obtain ⟨_, u, hSeq, hRest⟩ := returns_bind.mp h
  obtain ⟨answer, v, hStart, hRest⟩ := returns_bind.mp hRest
  obtain ⟨_, x, hForce, hRest⟩ := returns_bind.mp hRest
  rcases returns_ite.mp hRest with ⟨hFailed, hEnd⟩ | ⟨-, hPure⟩
  · obtain ⟨_, y, hClear, hPure⟩ := returns_bind.mp hEnd
    obtain ⟨rfl, rfl⟩ := returns_pure.mp hPure
    rw [if_neg hFailed, returns_change.mp hClear]
  · obtain ⟨rfl, rfl⟩ := returns_pure.mp hPure
    have hForced : t.gateway.scratchpadLoadCurrentSeq = v.gateway.scratchpadLoadCurrentSeq :=
      refreshes_currentSeq.forceParametersUpdate.returns hForce
    have hStarted : v.gateway.scratchpadLoadCurrentSeq = u.gateway.scratchpadLoadCurrentSeq :=
      (refreshes_currentSeq.asks.converted (fun _ => rfl) _).returns hStart
    rw [if_pos rfl, hForced, hStarted, returns_change.mp hSeq]

/-- A chunk is accepted with the sequence of the load only, and ends it if it ends at the total size. -/
theorem returns_loadChunk {chunk : List UInt8} {offset totalSize seq : UInt32} {res : AppRes}
    {w t : World Gateway ν} (h : Returns (loadChunk env chunk offset totalSize seq) w res t) :
    (res = .ok ∧ seq = w.gateway.scratchpadLoadCurrentSeq ∧
        t.gateway.scratchpadLoadCurrentSeq =
          if offset.toNat + chunk.length = totalSize.toNat then invalidCurrentSeq else seq) ∨
      (res ≠ .ok ∧ t.gateway.scratchpadLoadCurrentSeq = w.gateway.scratchpadLoadCurrentSeq) := by
  obtain ⟨g, w', hGateway, hRest⟩ := returns_bind.mp h
  obtain ⟨rfl, rfl⟩ := returns_read.mp hGateway
  rcases returns_ite.mp hRest with ⟨-, hPure⟩ | ⟨hCurrent, hUpload⟩
  · obtain ⟨rfl, rfl⟩ := returns_pure.mp hPure
    exact .inr ⟨nofun, rfl⟩
  · obtain ⟨answer, u, hBlocks, hRest⟩ := returns_bind.mp hUpload
    have hBlocked : u.gateway.scratchpadLoadCurrentSeq = w'.gateway.scratchpadLoadCurrentSeq :=
      (refreshes_currentSeq.asks.wpcUploadLocalBlockScratchpad (fun _ _ _ => rfl) _ _).returns hBlocks
    have hSeq : seq = w'.gateway.scratchpadLoadCurrentSeq := of_not_not hCurrent
    rcases returns_ite.mp hRest with ⟨hFailed, hPure⟩ | ⟨-, hLast⟩
    · obtain ⟨rfl, rfl⟩ := returns_pure.mp hPure
      exact .inr ⟨hFailed, hBlocked⟩
    · rcases returns_ite.mp hLast with ⟨hEnd, hRest⟩ | ⟨hNotEnd, hPure⟩
      · obtain ⟨_, v, hClear, hRest⟩ := returns_bind.mp hRest
        obtain ⟨_, x, hForce, hPure⟩ := returns_bind.mp hRest
        obtain ⟨rfl, rfl⟩ := returns_pure.mp hPure
        have hForced : t.gateway.scratchpadLoadCurrentSeq = v.gateway.scratchpadLoadCurrentSeq :=
          refreshes_currentSeq.forceParametersUpdate.returns hForce
        refine .inl ⟨rfl, hSeq, ?_⟩
        rw [if_pos hEnd, hForced, returns_change.mp hClear]
      · obtain ⟨rfl, rfl⟩ := returns_pure.mp hPure
        refine .inl ⟨rfl, hSeq, ?_⟩
        rw [if_neg hNotEnd, hBlocked, ← hSeq]

theorem ne_invalidCurrentSeq_of_chunk {req : UploadScratchpadReq} {chunk : Chunk}
    (h : req.chunk = some chunk) : chunk.seq ≠ invalidCurrentSeq := by
  obtain ⟨hSmall, _, _, -, -, rfl⟩ := UploadScratchpadReq.chunk_eq_some.mp h
  exact ne_invalidCurrentSeq hSmall

/-- What a chunk makes of the sequence of the load. -/
structure ChunkOutcome (chunk : Chunk) (before after : UInt32) (res : AppRes) : Prop where
  accepted : res = .ok → (chunk.segment.offset = 0 ∨ chunk.seq = before) ∧
    after = if chunk.segment.stop = chunk.totalSize.toNat then invalidCurrentSeq else chunk.seq
  refused : res ≠ .ok → chunk.segment.offset ≠ 0 → after = before

theorem returns_chunk {req : UploadScratchpadReq} {chunk : Chunk} {res : AppRes}
    {w t : World Gateway ν} (hChunk : req.chunk = some chunk)
    (h : Returns (updateScratchpad env req) w res t) :
    ChunkOutcome chunk w.gateway.scratchpadLoadCurrentSeq t.gateway.scratchpadLoadCurrentSeq res := by
  obtain ⟨-, scratchpad, info, hScratchpad, hInfo, rfl⟩ := UploadScratchpadReq.chunk_eq_some.mp hChunk
  unfold updateScratchpad at h
  rw [hScratchpad, hInfo] at h
  obtain ⟨first, u, hFirst, hRest⟩ := returns_bind.mp h
  rcases returns_ite.mp hFirst with ⟨hZero, hStart⟩ | ⟨hLater, hPure⟩
  · have hOffset : info.startOffset.toNat = 0 := congrArg UInt32.toNat hZero
    have hStarted := returns_startLoad hStart
    rcases returns_ite.mp hRest with ⟨hFailed, hPure⟩ | ⟨-, hLoad⟩
    · obtain ⟨rfl, rfl⟩ := returns_pure.mp hPure
      exact ⟨fun hOk => absurd hOk hFailed, fun _ hNonzero => absurd hOffset hNonzero⟩
    · rcases returns_loadChunk hLoad with ⟨rfl, -, hAfter⟩ | ⟨hRefused, -⟩
      · exact ⟨fun _ => ⟨.inl hOffset, hAfter⟩, fun hNotOk => absurd rfl hNotOk⟩
      · exact ⟨fun hOk => absurd hOk hRefused, fun _ hNonzero => absurd hOffset hNonzero⟩
  · obtain ⟨rfl, rfl⟩ := returns_pure.mp hPure
    rw [if_neg fun hNotOk => hNotOk rfl] at hRest
    rcases returns_loadChunk hRest with ⟨rfl, hSeq, hAfter⟩ | ⟨hRefused, hSame⟩
    · exact ⟨fun _ => ⟨.inr hSeq, hAfter⟩, fun hNotOk => absurd rfl hNotOk⟩
    · exact ⟨fun hOk => absurd hOk hRefused, fun _ _ => hSame⟩

theorem returns_noChunk {req : UploadScratchpadReq} {res : AppRes} {w t : World Gateway ν}
    (hSmall : req.seq ≤ 0xff) (hNoChunk : req.chunk = none)
    (h : Returns (updateScratchpad env req) w res t) :
    t.gateway.scratchpadLoadCurrentSeq = invalidCurrentSeq := by
  unfold UploadScratchpadReq.chunk at hNoChunk
  rw [if_neg (UInt32.not_lt.mpr hSmall)] at hNoChunk
  unfold updateScratchpad at h
  cases hScratchpad : req.scratchpad with
  | none =>
    rw [hScratchpad] at h
    obtain ⟨answer, u, -, hRest⟩ := returns_bind.mp h
    obtain ⟨_, v, hClear, hPure⟩ := returns_bind.mp hRest
    obtain ⟨-, rfl⟩ := returns_pure.mp hPure
    rw [returns_change.mp hClear]
  | some scratchpad =>
    rw [hScratchpad] at h hNoChunk
    cases hInfo : req.chunkInfo with
    | some info =>
      rw [hInfo] at hNoChunk
      cases hNoChunk
    | none =>
      rw [hInfo] at h
      obtain ⟨answer, u, -, hRest⟩ := returns_bind.mp h
      obtain ⟨_, v, hClear, hRest⟩ := returns_bind.mp hRest
      obtain ⟨_, x, hForce, hPure⟩ := returns_bind.mp hRest
      obtain ⟨-, rfl⟩ := returns_pure.mp hPure
      have hForced : t.gateway.scratchpadLoadCurrentSeq = v.gateway.scratchpadLoadCurrentSeq :=
        refreshes_currentSeq.forceParametersUpdate.returns hForce
      rw [hForced, returns_change.mp hClear]

end Requests

/-- The chunks that were accepted since the last one at offset zero, after another chunk. -/
def acceptChunk (accepted : List Chunk) (chunk : Chunk) (res : AppRes) : List Chunk :=
  let since := if chunk.segment.offset = 0 then [] else accepted
  if res = .ok then since ++ [chunk] else since

/-- The world, and beside it the chunks that were accepted since the last one at offset zero. -/
structure Loading (ν : Type) where
  world : World Gateway ν
  accepted : List Chunk

section Runs

variable {ν : Type}

def Loading.record (env : Environment ν) (s : Loading ν) (req : UploadScratchpadReq) : List Chunk :=
  match req.chunk, (updateResult env req s.world).1 with
  | some chunk, some res => acceptChunk s.accepted chunk res
  | _, _ => s.accepted

def loadStep (env : Environment ν) : Step (Loading ν) UploadEvent := fun s e =>
  (uploadStep env s.world e).map fun t => ⟨t, s.record env e.1⟩

/-- While a load is under way, the accepted chunks have its sequence. -/
def Loading.OneSeq (s : Loading ν) : Prop :=
  s.world.gateway.scratchpadLoadCurrentSeq ≠ invalidCurrentSeq →
    ∀ c ∈ s.accepted, c.seq = s.world.gateway.scratchpadLoadCurrentSeq

def Loading.Ends (env : Environment ν) (s : Loading ν) (req : UploadScratchpadReq) : Prop :=
  ∃ t, Returns (updateResult env req) s.world .ok t ∧
    t.gateway.scratchpadLoadCurrentSeq = invalidCurrentSeq

variable {env : Environment ν} {s : Loading ν}

theorem Loading.record_chunk {req : UploadScratchpadReq} {chunk : Chunk} {res : AppRes}
    {t : World Gateway ν} (hChunk : req.chunk = some chunk)
    (h : Returns (updateResult env req) s.world res t) :
    s.record env req = acceptChunk s.accepted chunk res := by
  have hResult : (updateResult env req s.world).1 = some res := congrArg Prod.fst h
  unfold Loading.record
  rw [hChunk, hResult]

theorem Loading.OneSeq.of_accepted {chunk : Chunk} {after : UInt32} (h : s.OneSeq)
    (hValid : chunk.seq ≠ invalidCurrentSeq)
    (hOutcome : ChunkOutcome chunk s.world.gateway.scratchpadLoadCurrentSeq after .ok) :
    ∀ c ∈ acceptChunk s.accepted chunk .ok, c.seq = chunk.seq := by
  intro c hMem
  obtain ⟨hKnown, -⟩ := hOutcome.accepted rfl
  unfold acceptChunk at hMem
  rw [if_pos rfl] at hMem
  rcases List.mem_append.mp hMem with hSince | hNew
  · split at hSince
    · cases hSince
    · next hLater =>
      have hSeq : chunk.seq = s.world.gateway.scratchpadLoadCurrentSeq := hKnown.resolve_left hLater
      exact (h (hSeq ▸ hValid) c hSince).trans hSeq.symm
  · rw [List.mem_singleton.mp hNew]

theorem Loading.OneSeq.of_chunk {chunk : Chunk} {res : AppRes} {t : World Gateway ν} (h : s.OneSeq)
    (hValid : chunk.seq ≠ invalidCurrentSeq)
    (hOutcome : ChunkOutcome chunk s.world.gateway.scratchpadLoadCurrentSeq
      t.gateway.scratchpadLoadCurrentSeq res) :
    Loading.OneSeq ⟨t, acceptChunk s.accepted chunk res⟩ := by
  intro hLoading c hMem
  change t.gateway.scratchpadLoadCurrentSeq ≠ _ at hLoading
  change c.seq = t.gateway.scratchpadLoadCurrentSeq
  by_cases hOk : res = .ok
  · subst hOk
    obtain ⟨-, hAfter⟩ := hOutcome.accepted rfl
    have hSeq := h.of_accepted hValid hOutcome c hMem
    split at hAfter
    · exact absurd hAfter hLoading
    · exact hSeq.trans hAfter.symm
  · unfold acceptChunk at hMem
    rw [if_neg hOk] at hMem
    split at hMem
    · cases hMem
    · next hLater =>
      have hSame := hOutcome.refused hOk hLater
      rw [hSame] at hLoading ⊢
      exact h hLoading c hMem

theorem Loading.OneSeq.step {t : Loading ν} {e : UploadEvent} (h : s.OneSeq)
    (hStep : loadStep env s e = some t) : t.OneSeq := by
  obtain ⟨u, hUpload, rfl⟩ := Option.map_eq_some_iff.mp hStep
  obtain ⟨a, hHandler⟩ := finish_eq_some.mp hUpload
  rcases returns_handleUpload hHandler with ⟨hLarge, hSame⟩ | ⟨hSmall, res, v, hResult, hSame⟩
  · have hNoChunk : e.1.chunk = none := if_pos hLarge
    unfold Loading.record Loading.OneSeq
    rw [hNoChunk, hSame]
    exact h
  · obtain ⟨w, hBefore, hUpdate⟩ := returns_updateResult hResult
    cases hChunk : e.1.chunk with
    | none =>
      intro hLoading
      exact absurd (hSame.trans (returns_noChunk hSmall hChunk hUpdate)) hLoading
    | some chunk =>
      have hOutcome := returns_chunk hChunk hUpdate
      rw [hBefore, ← hSame] at hOutcome
      rw [Loading.record_chunk hChunk hResult]
      exact h.of_chunk (ne_invalidCurrentSeq_of_chunk hChunk) hOutcome

/-- What is known of the accepted chunks when the load ends with the chunk. -/
structure EndsWith (chunk : Chunk) (accepted : List Chunk) : Prop where
  oneSeq : ∀ c ∈ accepted, c.seq = chunk.seq
  last : accepted.getLast? = some chunk
  atTotalSize : chunk.segment.stop = chunk.totalSize.toNat
  covered : Segment.Gapless 0 (accepted.map Chunk.segment) →
    ∀ i < chunk.totalSize.toNat, ∃ c ∈ accepted, c.segment.Covers i

theorem Loading.OneSeq.ends {req : UploadScratchpadReq} {chunk : Chunk} (h : s.OneSeq)
    (hChunk : req.chunk = some chunk) (hEnds : s.Ends env req) : EndsWith chunk (s.record env req) := by
  obtain ⟨t, hResult, hIdle⟩ := hEnds
  obtain ⟨w, hBefore, hUpdate⟩ := returns_updateResult hResult
  have hValid := ne_invalidCurrentSeq_of_chunk hChunk
  have hOutcome := returns_chunk hChunk hUpdate
  rw [hBefore] at hOutcome
  have hStop : chunk.segment.stop = chunk.totalSize.toNat := by
    have hAfter := (hOutcome.accepted rfl).2
    rw [hIdle] at hAfter
    by_contra hNotEnd
    rw [if_neg hNotEnd] at hAfter
    exact hValid hAfter.symm
  rw [Loading.record_chunk hChunk hResult]
  refine ⟨h.of_accepted hValid hOutcome, ?_, hStop, ?_⟩
  · unfold acceptChunk
    rw [if_pos rfl, List.getLast?_concat]
  · intro hGapless i hi
    have hMem : chunk ∈ acceptChunk s.accepted chunk .ok := by
      unfold acceptChunk
      rw [if_pos rfl]
      exact List.mem_append_right _ List.mem_cons_self
    have hReached : ∃ f ∈ (acceptChunk s.accepted chunk .ok).map Chunk.segment, i < f.stop :=
      ⟨chunk.segment, List.mem_map_of_mem hMem, hStop ▸ hi⟩
    obtain ⟨f, hf, hCovers⟩ := hGapless.covers (Nat.zero_le i) hReached
    obtain ⟨c, hc, rfl⟩ := List.mem_map.mp hf
    exact ⟨c, hc, hCovers⟩

theorem endsWith_of_ends {u : Loading ν} {es : List UploadEvent} {e : UploadEvent} {chunk : Chunk}
    (hIdle : s.world.gateway.scratchpadLoadCurrentSeq = invalidCurrentSeq)
    (hTakes : Takes (loadStep env) s es u e) (hChunk : e.1.chunk = some chunk)
    (hEnds : u.Ends env e.1) : EndsWith chunk (u.record env e.1) := by
  have hStart : s.OneSeq := fun hLoading => absurd hIdle hLoading
  have hOneSeq : u.OneSeq := hTakes.invariant' (fun _ _ _ h => h.step) hStart
  exact hOneSeq.ends hChunk hEnds

end Runs

def chunkRequest (offset size totalSize : Nat) : UploadEvent :=
  (⟨⟨1⟩, 9, some (List.replicate size 0), some ⟨.ofNat totalSize, .ofNat offset⟩⟩, ⟨zeroHeader⟩)

def chunkOf (offset size totalSize : Nat) : Chunk := ⟨9, .ofNat totalSize, ⟨offset, List.replicate size 0⟩⟩

def idleSink : Loading AppScratchpadStatus := ⟨storingSink, []⟩

def afterFirst (totalSize : Nat) : Loading AppScratchpadStatus where
  world := (uploadEnd (chunkRequest 0 16 totalSize)).2
  accepted := idleSink.record storingNode (chunkRequest 0 16 totalSize).1

theorem takes_second {totalSize : Nat} {e : UploadEvent}
    (h : (uploadEnd (chunkRequest 0 16 totalSize)).1.isSome = true) :
    Takes (loadStep storingNode) idleSink [chunkRequest 0 16 totalSize, e] (afterFirst totalSize) e := by
  refine ⟨[chunkRequest 0 16 totalSize], [], rfl, ?_⟩
  have hStep : uploadStep storingNode storingSink (chunkRequest 0 16 totalSize) =
      some (uploadEnd (chunkRequest 0 16 totalSize)).2 :=
    finish_eq_some.mpr ⟨_, returns_of_fst (Option.some_get h).symm⟩
  have hLoad : loadStep storingNode idleSink (chunkRequest 0 16 totalSize) = some (afterFirst totalSize) :=
    congrArg (Option.map _) hStep
  exact run_cons_eq_some.mpr ⟨_, hLoad, rfl⟩

theorem endsWith_of_ends_two :
    EndsWith (chunkOf 16 16 32) ((afterFirst 32).record storingNode (chunkRequest 16 16 32).1) :=
  endsWith_of_ends (s := idleSink) rfl (takes_second (by decide +kernel)) (by decide +kernel)
    ⟨_, returns_of_fst (by decide +kernel), by decide +kernel⟩

/-- A node that accepts every request lets a load end that has a gap. -/
theorem load_ends_with_gap :
    (∀ q n, (storingNode.request q n).1 = 0) ∧
      Takes (loadStep storingNode) idleSink [chunkRequest 0 16 64, chunkRequest 48 16 64]
        (afterFirst 64) (chunkRequest 48 16 64) ∧
      (afterFirst 64).Ends storingNode (chunkRequest 48 16 64).1 ∧
      ¬ ∀ i < 64, ∃ c ∈ (afterFirst 64).record storingNode (chunkRequest 48 16 64).1,
        c.segment.Covers i := by
  refine ⟨?_, takes_second (by decide +kernel),
    ⟨_, returns_of_fst (by decide +kernel), by decide +kernel⟩, ?_⟩
  · intro q n
    unfold storingNode
    dsimp only
    repeat' split
    all_goals rfl
  · intro hCovered
    have hAccepted : (afterFirst 64).record storingNode (chunkRequest 48 16 64).1 =
        [chunkOf 0 16 64, chunkOf 48 16 64] := by decide +kernel
    obtain ⟨c, hMem, hCovers⟩ := hCovered 16 (by decide)
    rw [hAccepted] at hMem
    rcases List.mem_cons.mp hMem with rfl | hMem
    · exact absurd hCovers.2 (by decide)
    · rw [List.mem_singleton.mp hMem] at hCovers
      exact absurd hCovers.1 (by decide)

end CMeshApi.Proto
