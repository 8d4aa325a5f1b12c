import CMeshApi.Reassembly.Integrity

/-!
# How long a message is kept

Histories of the store in which memory is always there and the clock does not go back. A
collection takes out the messages that were silent for too long and nothing else, so that a
message is kept for as long as it goes on growing.
-/

namespace CMeshApi.Reassembly

open Machine

/-- The reading of the clock that the operation makes. -/
def Op.time : Op → Option Nat
  | .addFragment _ _ now | .garbageCollect now => some now
  | .getFullMessage _ _ _ | .setMaxFragmentDuration _ => none

/-- All allocations succeed, and the maximum duration is left as it is. -/
def Op.Steady : Op → Prop
  | .addFragment _ allocs _ => allocs = .all
  | .setMaxFragmentDuration _ => False
  | .getFullMessage _ _ _ | .garbageCollect _ => True

/-- The clock does not go back, up to the present time, which is below `2 ^ 32` seconds. -/
structure Timely (ops : List Op) (now : Nat) : Prop where
  steady : ∀ op ∈ ops, op.Steady
  ordered : (ops.filterMap Op.time ++ [now]).Pairwise (· ≤ ·)
  bounded : now < 2 ^ 32 * 1000

/-- A fragment and the time it came at. -/
structure Arrival where
  time : Nat
  piece : InternalFragment
deriving DecidableEq, Repr

/-- The fragments of a message that an operation stores. -/
def accepted (key : PacketKey) (s : State) : Op → List Arrival
  | .addFragment frag allocs now =>
    if frag.key = key ∧ (reassemblyAddFragment s frag allocs now).2.1 = true then [⟨now, frag.piece⟩]
    else []
  | _ => []

/-- The times of the collections that take place. -/
def collected (s : State) : Op → List Nat
  | .garbageCollect now => if Collects s now then [now] else []
  | _ => []

/-- The messages handed out. -/
def retrieved (s : State) : Op → List PacketKey
  | .getFullMessage key buffer size =>
    if (reassemblyGetFullMessage s key buffer size).2.retrieved then [key] else []
  | _ => []

section Histories

variable (s : State) (ops : List Op)

def lastAccepted (key : PacketKey) : Option Nat :=
  (journal step (accepted key) s ops).getLast?.map Arrival.time

/-- Before the first collection, the time is taken from zero. -/
def lastCollected : Nat := (journal step collected s ops).getLast?.getD 0

/-- No fragment of the message was accepted in the last `maxDurationS` seconds. -/
def Silent (maxDurationS now : Nat) (key : PacketKey) : Prop :=
  ∃ last ∈ lastAccepted s ops key, maxDurationS < (now - last) / 1000

instance (maxDurationS now : Nat) (key : PacketKey) : Decidable (Silent s ops maxDurationS now key) :=
  decidable_of_iff ((lastAccepted s ops key).any fun last => maxDurationS < (now - last) / 1000)
    (by simp [Silent, Option.any_eq_true])

end Histories

/-- The fragments of a message that were new when they came, the last one first. Another one at
the same offset is a duplicate. -/
def newcomers (key : PacketKey) (ops : List Op) : List Arrival :=
  ops.foldl (fun seen op =>
    match op with
    | .addFragment frag _ now =>
      if frag.key = key ∧ ∀ a ∈ seen, a.piece.offset ≠ frag.offset then ⟨now, frag.piece⟩ :: seen
      else seen
    | _ => seen) []

/-- Each new fragment comes at most `maxDurationS` seconds after the one before, and the last one
was at most as long ago. -/
structure Growing (maxDurationS now : Nat) (arrivals : List Arrival) : Prop where
  chain : arrivals.IsChain fun later earlier => later.time ≤ earlier.time + maxDurationS * 1000
  last : ∀ a ∈ arrivals.head?, now ≤ a.time + maxDurationS * 1000

section Times

variable {ops : List Op} {op : Op} {now : Nat}

theorem newcomers_concat (key : PacketKey) (frag : ReassemblyFragment) (allocs : Allocs) :
    newcomers key (ops ++ [.addFragment frag allocs now]) =
      if frag.key = key ∧ ∀ a ∈ newcomers key ops, a.piece.offset ≠ frag.offset then
        ⟨now, frag.piece⟩ :: newcomers key ops
      else newcomers key ops := by
  rw [newcomers, List.foldl_append]
  rfl

/-- What was timely is so at the time of the operation that follows. -/
theorem Timely.before (h : Timely (ops ++ [op]) now) :
    ∃ earlier ≤ now, Timely ops earlier ∧ ∀ time ∈ op.time, earlier = time := by
  obtain ⟨hSteady, hOrdered, hBounded⟩ := h
  have hBefore : ∀ op ∈ ops, op.Steady := fun op hOp => hSteady op (List.mem_append_left _ hOp)
  rw [List.filterMap_append] at hOrdered
  cases hTime : op.time with
  | none =>
    rw [List.filterMap_cons_none hTime, List.filterMap_nil, List.append_nil] at hOrdered
    exact ⟨now, Nat.le_refl now, ⟨hBefore, hOrdered, hBounded⟩, nofun⟩
  | some time =>
    rw [List.filterMap_cons_some hTime, List.filterMap_nil] at hOrdered
    obtain ⟨hUpTo, -, hLater⟩ := List.pairwise_append.mp hOrdered
    have hLe : time ≤ now := hLater time (List.mem_append_right _ List.mem_cons_self) now List.mem_cons_self
    refine ⟨time, hLe, ⟨hBefore, hUpTo, Nat.lt_of_le_of_lt hLe hBounded⟩, ?_⟩
    rintro _ ⟨rfl⟩
    rfl

end Times

/-- With memory at hand, only a fragment at an offset already there is refused. -/
theorem addFragment_all (s : State) (frag : ReassemblyFragment) (now : Nat) :
    (NewOffset (target s.packets frag.key) frag ∧
      (reassemblyAddFragment s frag .all now).2.1 = true ∧
      getPacketFromHash (reassemblyAddFragment s frag .all now).1.packets frag.key =
        some (grown s frag now)) ∨
    (¬ NewOffset (target s.packets frag.key) frag ∧
      (reassemblyAddFragment s frag .all now).2.1 = false ∧
      (reassemblyAddFragment s frag .all now).1 = { s with isQueueEmpty := false }) := by
  by_cases hStores : Stores s frag .all
  · obtain ⟨packets, hAdd, hGet, -⟩ := addFragment_of_stores now hStores
    refine Or.inl ⟨hStores.2.1, ?_, ?_⟩
    · rw [hAdd]
    · rw [hAdd]
      exact hGet
  · have hOld : ¬ NewOffset (target s.packets frag.key) frag :=
      fun hNew => hStores ⟨Or.inr rfl, hNew, rfl, rfl⟩
    obtain ⟨packets, hAdd, -⟩ := addFragment_of_not_stores now hStores
    have hRefused : (reassemblyAddFragment s frag .all now).2.1 = false := by rw [hAdd]
    refine Or.inr ⟨hOld, hRefused, ?_⟩
    cases hGet : getPacketFromHash s.packets frag.key with
    | none =>
      rw [target, hGet] at hOld
      exact absurd (fun _ hf => absurd hf List.not_mem_nil) hOld
    | some p =>
      obtain ⟨created, hSame, hNone⟩ := refused_packets hRefused
      have hStored : NoneCreated s frag .all := Or.inl (by rw [hGet]; rfl)
      rw [hSame, hNone hStored, List.append_nil]

theorem addFragment_lastGcTsMs (s : State) (frag : ReassemblyFragment) (allocs : Allocs) (now : Nat) :
    (reassemblyAddFragment s frag allocs now).1.lastGcTsMs = s.lastGcTsMs := by
  rcases reassemblyAddFragment_cases s frag allocs now with
    ⟨-, hAdd⟩ | ⟨packets, p, -, -, ⟨-, hAdd⟩ | ⟨-, hAdd⟩⟩ <;> rw [hAdd]

theorem get_addFragment_other {s : State} {frag : ReassemblyFragment} {allocs : Allocs} {now : Nat}
    {key : PacketKey} (h : frag.key ≠ key) :
    getPacketFromHash (reassemblyAddFragment s frag allocs now).1.packets key =
      getPacketFromHash s.packets key := by
  by_cases hStores : Stores s frag allocs
  · obtain ⟨packets, hAdd, -, hOther⟩ := addFragment_of_stores now hStores
    rw [hAdd]
    exact hOther key h
  · obtain ⟨packets, hAdd, hOther⟩ := addFragment_of_not_stores now hStores
    rw [hAdd]
    exact hOther key h

/-- The time stamps are the times of the last accepted fragments. -/
structure Aged (start : State) (ops : List Op) (s : State) : Prop where
  intact : Intact s
  duration : s.fragmentMaxDurationS = start.fragmentMaxDurationS
  collected : s.lastGcTsMs = lastCollected start ops
  stamps : ∀ p ∈ s.packets, lastAccepted start ops p.key = some p.timestampMsEpochLast

section Steps

variable {start s t : State} {ops : List Op} {op : Op}

theorem lastAccepted_concat (hRun : run step start ops = some s) (hStep : step s op = some t)
    (key : PacketKey) :
    lastAccepted start (ops ++ [op]) key =
      ((accepted key s op).getLast?.map Arrival.time).or (lastAccepted start ops key) := by
  rw [lastAccepted, journal_concat hRun hStep, List.getLast?_append, Option.map_or]
  rfl

theorem lastCollected_concat (hRun : run step start ops = some s) (hStep : step s op = some t) :
    lastCollected start (ops ++ [op]) =
      (collected s op).getLast?.getD (lastCollected start ops) := by
  rw [lastCollected, journal_concat hRun hStep, List.getLast?_append, Option.getD_or]
  rfl

theorem Aged.addFragment (h : Aged start ops s) (hRun : run step start ops = some s)
    (frag : ReassemblyFragment) (now : Nat) :
    Aged start (ops ++ [.addFragment frag .all now]) (reassemblyAddFragment s frag .all now).1 := by
  have hStep : step s (.addFragment frag .all now) = some (reassemblyAddFragment s frag .all now).1 := rfl
  have hIntact := h.intact.addFragment frag .all now
  have hDuration := addFragment_fragmentMaxDurationS s frag .all now
  have hLastGc := addFragment_lastGcTsMs s frag .all now
  refine ⟨hIntact, hDuration.trans h.duration, ?_, fun p hp => ?_⟩
  · rw [hLastGc, h.collected, lastCollected_concat hRun hStep]
    rfl
  rw [lastAccepted_concat hRun hStep]
  have hGet := get_of_mem hIntact.keys hp
  by_cases hKey : frag.key = p.key
  · rcases addFragment_all s frag now with ⟨-, hAccepted, hGrown⟩ | ⟨-, hRefused, hSame⟩
    · rw [← hKey, hGrown] at hGet
      cases hGet
      rw [accepted, if_pos ⟨hKey, hAccepted⟩]
      rfl
    · rw [hSame] at hp
      rw [accepted, if_neg (by simp [hRefused])]
      exact h.stamps p hp
  · rw [get_addFragment_other hKey] at hGet
    rw [accepted, if_neg fun hBoth => hKey hBoth.1]
    exact h.stamps p (mem_of_get hGet)

theorem Aged.getFullMessage (h : Aged start ops s) (hRun : run step start ops = some s)
    (key : PacketKey) (buffer : Memory UInt8) (size : Nat) :
    Aged start (ops ++ [.getFullMessage key buffer size])
      (reassemblyGetFullMessage s key buffer size).1 := by
  have hStep : step s (.getFullMessage key buffer size) =
      some (reassemblyGetFullMessage s key buffer size).1 := rfl
  have hCollected := lastCollected_concat hRun hStep
  have hAccepted := lastAccepted_concat hRun hStep
  have hIntact : Intact (reassemblyGetFullMessage s key buffer size).1 :=
    h.intact.step (show Use.step s (.plain (.getFullMessage key buffer size)) = _ from rfl)
  rcases reassemblyGetFullMessage_cases s key buffer size with ⟨left, hGet⟩ | ⟨q, -, -, -, hGet⟩
  · rw [hGet] at hIntact ⊢
    exact ⟨hIntact, h.duration, h.collected.trans hCollected.symm,
      fun p hp => (hAccepted p.key).trans (h.stamps p hp)⟩
  · rw [hGet] at hIntact ⊢
    exact ⟨hIntact, h.duration, h.collected.trans hCollected.symm,
      fun p hp => (hAccepted p.key).trans (h.stamps p (List.eraseP_subset hp))⟩

theorem Aged.garbageCollect (h : Aged start ops s) (hRun : run step start ops = some s) (now : Nat) :
    Aged start (ops ++ [.garbageCollect now]) (reassemblyGarbageCollect s now) := by
  have hStep : step s (.garbageCollect now) = some (reassemblyGarbageCollect s now) := rfl
  have hCollected := lastCollected_concat hRun hStep
  have hAccepted := lastAccepted_concat hRun hStep
  have hIntact : Intact (reassemblyGarbageCollect s now) :=
    h.intact.step (show Use.step s (.plain (.garbageCollect now)) = _ from rfl)
  rw [Reassembly.collected] at hCollected
  unfold reassemblyGarbageCollect at hIntact ⊢
  split at hIntact
  · next hCollects =>
    rw [if_pos hCollects] at hCollected ⊢
    exact ⟨hIntact, h.duration, hCollected.symm,
      fun p hp => (hAccepted p.key).trans (h.stamps p (List.mem_filter.mp hp).1)⟩
  · next hEarly =>
    rw [if_neg hEarly] at hCollected ⊢
    exact ⟨hIntact, h.duration, h.collected.trans hCollected.symm,
      fun p hp => (hAccepted p.key).trans (h.stamps p hp)⟩

theorem Aged.step (h : Aged start ops s) (hRun : run step start ops = some s) (hSteady : op.Steady)
    (hStep : Reassembly.step s op = some t) : Aged start (ops ++ [op]) t := by
  cases op with
  | addFragment frag allocs now =>
    obtain rfl : allocs = .all := hSteady
    cases hStep
    exact h.addFragment hRun frag now
  | getFullMessage key buffer size =>
    cases hStep
    exact h.getFullMessage hRun key buffer size
  | garbageCollect now =>
    cases hStep
    exact h.garbageCollect hRun now
  | setMaxFragmentDuration d => exact hSteady.elim

end Steps

/-- The store of a process that has set the maximum duration and nothing else. -/
def started (fragmentMaxDurationS : UInt32) : State := setMaxFragmentDuration init fragmentMaxDurationS

theorem intact_started (fragmentMaxDurationS : UInt32) : Intact (started fragmentMaxDurationS) :=
  ⟨List.nodup_nil, nofun, flagSound_init⟩

theorem aged_run {fragmentMaxDurationS : UInt32} {ops : List Op} {s : State}
    (hSteady : ∀ op ∈ ops, op.Steady) (hRun : run step (started fragmentMaxDurationS) ops = some s) :
    Aged (started fragmentMaxDurationS) ops s := by
  induction ops using List.reverseRecOn generalizing s with
  | nil =>
    obtain rfl : started fragmentMaxDurationS = s := Option.some.inj hRun
    exact ⟨intact_started fragmentMaxDurationS, rfl, rfl, nofun⟩
  | append_singleton ops op ih =>
    obtain ⟨u, hBefore, hStep⟩ := run_concat_eq_some.mp hRun
    have hAged := ih (fun op hOp => hSteady op (List.mem_append_left _ hOp)) hBefore
    exact hAged.step hBefore (hSteady op (List.mem_append_right _ List.mem_cons_self)) hStep

theorem Aged.expired_eq {start s : State} {ops : List Op} (h : Aged start ops s) {now : Nat}
    (hNow : now < 2 ^ 32 * 1000) {p : FullPacket} (hp : p ∈ s.packets) :
    expired s now p = decide (Silent start ops start.fragmentMaxDurationS.toNat now p.key) := by
  have hAge : (now - p.timestampMsEpochLast) / 1000 % 2 ^ 32 = (now - p.timestampMsEpochLast) / 1000 :=
    Nat.mod_eq_of_lt (by omega)
  have hSilent : Silent start ops start.fragmentMaxDurationS.toNat now p.key ↔
      start.fragmentMaxDurationS.toNat < (now - p.timestampMsEpochLast) / 1000 := by
    rw [Silent, h.stamps p hp]
    constructor
    · rintro ⟨_, ⟨rfl⟩, hOld⟩
      exact hOld
    · exact fun hOld => ⟨_, rfl, hOld⟩
  rw [expired, hAge, h.duration]
  exact decide_eq_decide.mpr hSilent.symm

/-- What is stored of a message is what came new, with the time of the last of it. -/
structure Kept (packets : List FullPacket) (key : PacketKey) (arrivals : List Arrival) : Prop where
  head : (target packets key).head = arrivals.map Arrival.piece
  time : (getPacketFromHash packets key).map FullPacket.timestampMsEpochLast =
    arrivals.head?.map Arrival.time

theorem kept_nil {packets : List FullPacket} {key : PacketKey}
    (h : getPacketFromHash packets key = none) : Kept packets key [] := by
  refine ⟨?_, ?_⟩
  · rw [target, h]
    rfl
  · rw [h]
    rfl

theorem Kept.of_get {packets packets' : List FullPacket} {key : PacketKey} {arrivals : List Arrival}
    (h : Kept packets key arrivals)
    (hGet : getPacketFromHash packets' key = getPacketFromHash packets key) :
    Kept packets' key arrivals := by
  refine ⟨?_, ?_⟩
  · rw [target, hGet]
    exact h.head
  · rw [hGet]
    exact h.time

theorem Kept.exists_packet {packets : List FullPacket} {key : PacketKey} {arrivals : List Arrival}
    (h : Kept packets key arrivals) (hSome : arrivals ≠ []) :
    ∃ p, getPacketFromHash packets key = some p ∧ p.head = arrivals.map Arrival.piece := by
  obtain ⟨hHead, hTime⟩ := h
  cases hGet : getPacketFromHash packets key with
  | none =>
    rw [target, hGet] at hHead
    exact absurd (List.map_eq_nil_iff.mp hHead.symm) hSome
  | some p =>
    rw [target, hGet] at hHead
    exact ⟨p, rfl, hHead⟩

section Growth

variable {s t : State} {key : PacketKey} {life : List Op} {op : Op} {maxDurationS : Nat}

theorem Kept.newOffset_iff (h : Kept s.packets key (newcomers key life)) (frag : ReassemblyFragment) :
    NewOffset (target s.packets key) frag ↔
      ∀ a ∈ newcomers key life, a.piece.offset ≠ frag.offset := by
  rw [NewOffset, h.head, List.forall_mem_map]

theorem Kept.addFragment (h : Kept s.packets key (newcomers key life)) (frag : ReassemblyFragment)
    (now : Nat) :
    Kept (reassemblyAddFragment s frag .all now).1.packets key
      (newcomers key (life ++ [.addFragment frag .all now])) := by
  rw [newcomers_concat]
  by_cases hKey : frag.key = key
  · subst hKey
    have hOffset := h.newOffset_iff frag
    rcases addFragment_all s frag now with ⟨hNew, -, hGrown⟩ | ⟨hOld, -, hSame⟩
    · rw [if_pos ⟨rfl, hOffset.mp hNew⟩]
      refine ⟨?_, ?_⟩
      · rw [target, hGrown]
        exact congrArg (frag.piece :: ·) h.head
      · rw [hGrown]
        rfl
    · rw [if_neg fun hBoth => hOld (hOffset.mpr hBoth.2), hSame]
      exact h
  · rw [if_neg fun hBoth => hKey hBoth.1]
    exact h.of_get (get_addFragment_other hKey)

theorem Kept.getFullMessage (h : Kept s.packets key (newcomers key life)) {key' : PacketKey}
    (buffer : Memory UInt8) (size : Nat)
    (hLeft : key ∉ retrieved s (.getFullMessage key' buffer size)) :
    Kept (reassemblyGetFullMessage s key' buffer size).1.packets key (newcomers key life) := by
  rw [retrieved] at hLeft
  rcases reassemblyGetFullMessage_cases s key' buffer size with ⟨left, hGet⟩ | ⟨q, -, -, -, hGet⟩
  · rw [hGet]
    exact h
  · rw [hGet] at hLeft ⊢
    have hOther : key' ≠ key := fun hSame => hLeft (hSame ▸ List.mem_cons_self)
    exact h.of_get (get_deletePacket_other hOther)

theorem Kept.garbageCollect (h : Kept s.packets key (newcomers key life)) {now : Nat}
    (hRecent : ∀ a ∈ (newcomers key life).head?,
      now ≤ a.time + s.fragmentMaxDurationS.toNat * 1000) :
    Kept (reassemblyGarbageCollect s now).packets key (newcomers key life) := by
  refine h.of_get (get_garbageCollect fun _ p hGet => ?_)
  have hTime := h.time
  rw [hGet] at hTime
  obtain ⟨a, ha, hStamp⟩ := Option.map_eq_some_iff.mp hTime.symm
  have hNow := hRecent a ha
  have hAge : (now - p.timestampMsEpochLast) / 1000 % 2 ^ 32 ≤ s.fragmentMaxDurationS.toNat := by
    omega
  simpa [expired] using hAge

theorem Kept.step (h : Kept s.packets key (newcomers key life)) (hSteady : op.Steady)
    (hLeft : key ∉ retrieved s op)
    (hRecent : ∀ now ∈ op.time, ∀ a ∈ (newcomers key life).head?,
      now ≤ a.time + s.fragmentMaxDurationS.toNat * 1000)
    (hStep : Reassembly.step s op = some t) : Kept t.packets key (newcomers key (life ++ [op])) := by
  cases op with
  | addFragment frag allocs now =>
    obtain rfl : allocs = .all := hSteady
    cases hStep
    exact h.addFragment frag now
  | getFullMessage key' buffer size =>
    cases hStep
    rw [newcomers, List.foldl_append]
    exact h.getFullMessage buffer size hLeft
  | garbageCollect now =>
    cases hStep
    rw [newcomers, List.foldl_append]
    exact h.garbageCollect (hRecent now rfl)
  | setMaxFragmentDuration d => exact hSteady.elim

/-- A message that has grown in time was doing so at each operation before. -/
theorem Growing.before {now earlier : Nat} (h : Growing maxDurationS now (newcomers key (life ++ [op])))
    (hLe : earlier ≤ now) (hTime : ∀ time ∈ op.time, earlier = time) :
    Growing maxDurationS earlier (newcomers key life) := by
  have hSame (hNone : newcomers key (life ++ [op]) = newcomers key life) :
      Growing maxDurationS earlier (newcomers key life) := by
    rw [hNone] at h
    exact ⟨h.chain, fun a ha => Nat.le_trans hLe (h.last a ha)⟩
  cases op with
  | addFragment frag allocs now' =>
    have hConcat : newcomers key (life ++ [.addFragment frag allocs now']) = _ :=
      newcomers_concat key frag allocs
    split at hConcat
    · rw [hConcat] at h
      obtain rfl : earlier = now' := hTime now' rfl
      obtain ⟨hHead, hTail⟩ := List.isChain_cons.mp h.chain
      exact ⟨hTail, hHead⟩
    · exact hSame hConcat
  | getFullMessage key' buffer size => exact hSame (by rw [newcomers, List.foldl_append]; rfl)
  | garbageCollect now' => exact hSame (by rw [newcomers, List.foldl_append]; rfl)
  | setMaxFragmentDuration d => exact hSame (by rw [newcomers, List.foldl_append]; rfl)

theorem duration_step (hSteady : op.Steady) (hStep : Reassembly.step s op = some t) :
    t.fragmentMaxDurationS = s.fragmentMaxDurationS := by
  cases op with
  | addFragment frag allocs now =>
    cases hStep
    exact addFragment_fragmentMaxDurationS s frag allocs now
  | getFullMessage key' buffer size =>
    cases hStep
    exact getFullMessage_fragmentMaxDurationS s key' buffer size
  | garbageCollect now =>
    cases hStep
    exact garbageCollect_fragmentMaxDurationS s now
  | setMaxFragmentDuration d => exact hSteady.elim

theorem kept_run {before : List Op} {s₀ : State} {now : Nat} (hTimely : Timely (before ++ life) now)
    (hFresh : getPacketFromHash s₀.packets key = none) (hRun : run step s₀ life = some s)
    (hLeft : key ∉ journal step retrieved s₀ life)
    (hGrowing : Growing s₀.fragmentMaxDurationS.toNat now (newcomers key life)) :
    Kept s.packets key (newcomers key life) ∧ s.fragmentMaxDurationS = s₀.fragmentMaxDurationS := by
  induction life using List.reverseRecOn generalizing s now with
  | nil =>
    obtain rfl : s₀ = s := Option.some.inj hRun
    exact ⟨kept_nil hFresh, rfl⟩
  | append_singleton life op ih =>
    obtain ⟨u, hBefore, hStep⟩ := run_concat_eq_some.mp hRun
    rw [journal_concat hBefore hStep, List.mem_append, not_or] at hLeft
    have hSteady := hTimely.steady op (by simp)
    rw [← List.append_assoc] at hTimely
    obtain ⟨earlier, hLe, hEarlier, hTime⟩ := hTimely.before
    have hGrew := hGrowing.before hLe hTime
    obtain ⟨hKept, hDuration⟩ := ih hEarlier hBefore hLeft.1 hGrew
    refine ⟨hKept.step hSteady hLeft.2 ?_ hStep, (duration_step hSteady hStep).trans hDuration⟩
    intro time hOp a ha
    rw [hDuration, ← hTime time hOp]
    exact hGrew.last a ha

end Growth

/-- A collection more than five seconds after the one before takes out the silent messages and
nothing else, and an earlier one does nothing. A message that grows in time is there with all its
fragments until it is handed out. -/
theorem silent_messages_collected (fragmentMaxDurationS : UInt32) (hOn : 0 < fragmentMaxDurationS.toNat)
    (ops : List Op) (now : Nat) (s : State) (hTimely : Timely ops now)
    (hRun : run step (started fragmentMaxDurationS) ops = some s) :
    (now - lastCollected (started fragmentMaxDurationS) ops ≤ 5000 →
      reassemblyGarbageCollect s now = s) ∧
    (5000 < now - lastCollected (started fragmentMaxDurationS) ops →
      (reassemblyGarbageCollect s now).packets = s.packets.filter fun p =>
        ¬ Silent (started fragmentMaxDurationS) ops fragmentMaxDurationS.toNat now p.key) ∧
    (∀ p ∈ s.packets, (lastAccepted (started fragmentMaxDurationS) ops p.key).isSome = true) ∧
    ∀ (key : PacketKey) (before life : List Op) (s₀ : State), ops = before ++ life →
      run step (started fragmentMaxDurationS) before = some s₀ →
      getPacketFromHash s₀.packets key = none → key ∉ journal step retrieved s₀ life →
      Growing fragmentMaxDurationS.toNat now (newcomers key life) → newcomers key life ≠ [] →
      ∃ p, getPacketFromHash s.packets key = some p ∧
        p.head = (newcomers key life).map Arrival.piece := by
  have hAged : Aged (started fragmentMaxDurationS) ops s :=
    aged_run hTimely.steady hRun
  have hCollects : Collects s now ↔
      5000 < now - lastCollected (started fragmentMaxDurationS) ops := by
    rw [Collects, hAged.duration, hAged.collected]
    exact and_iff_right hOn
  refine ⟨fun hEarly => ?_, fun hDue => ?_, fun p hp => ?_, ?_⟩
  · exact if_neg fun hDue => Nat.not_lt_of_le hEarly (hCollects.mp hDue)
  · rw [reassemblyGarbageCollect, if_pos (hCollects.mpr hDue)]
    refine List.filter_congr fun p hp => ?_
    rw [hAged.expired_eq hTimely.bounded hp, decide_not]
    rfl
  · rw [hAged.stamps p hp]
    rfl
  · rintro key before life s₀ rfl hBefore hFresh hLeft hGrowing hSome
    obtain ⟨u, hu, hLife⟩ := run_append_eq_some.mp hRun
    obtain rfl : s₀ = u := Option.some.inj (hBefore.symm.trans hu)
    have hAgedBefore : Aged (started fragmentMaxDurationS) before s₀ :=
      aged_run (fun op hOp => hTimely.steady op (List.mem_append_left _ hOp)) hBefore
    have hKept := (kept_run hTimely hFresh hLife hLeft (hAgedBefore.duration ▸ hGrowing)).1
    exact hKept.exists_packet hSome

/-- Two fragments within three seconds, and a collection between them. -/
def growingMessage : List Op :=
  [.addFragment ⟨7, 1, 0, false, [10]⟩ .all 6000, .garbageCollect 7000,
    .addFragment ⟨7, 1, 1, false, [20]⟩ .all 9000]

theorem silent_messages_collected_growing :
    ∃ s, run step (started 5) growingMessage = some s ∧
      (reassemblyGarbageCollect s 12001).packets =
        (s.packets.filter fun p => ¬ Silent (started 5) growingMessage 5 12001 p.key) ∧
      ∃ p, getPacketFromHash s.packets ⟨7, 1⟩ = some p ∧ p.head = [⟨1, [20]⟩, ⟨0, [10]⟩] := by
  obtain ⟨-, hDue, -, hGrows⟩ :=
    silent_messages_collected 5 (by decide) growingMessage 12001 _
      ⟨by simp [growingMessage, Op.Steady], by decide, by decide⟩ rfl
  have hNew : newcomers ⟨7, 1⟩ growingMessage = [⟨9000, ⟨1, [20]⟩⟩, ⟨6000, ⟨0, [10]⟩⟩] := rfl
  have hGrowing : Growing 5 12001 (newcomers ⟨7, 1⟩ growingMessage) := by
    rw [hNew]
    exact ⟨by simp, by simp⟩
  exact ⟨_, rfl, hDue (by decide),
    hGrows ⟨7, 1⟩ [] growingMessage (started 5) rfl rfl rfl (by decide) hGrowing (by decide)⟩

end CMeshApi.Reassembly
