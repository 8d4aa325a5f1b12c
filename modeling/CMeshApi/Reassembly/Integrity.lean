import CMeshApi.Reassembly.Store

/-!
# What no operation breaks

Keys and offsets stay unique and a raised flag stays right, whatever allocations fail
and whatever the clock reads. A fragment that is refused leaves what is stored as it is,
with the flag lowered.
-/

namespace CMeshApi.Reassembly

open Machine

/-- The readings of the clock in one collection: for the test of its period, for its time stamp,
and for the age of each packet. -/
structure Clock where
  asked : UInt64
  stored : UInt64
  aged : FullPacket → UInt64

def Clock.steady (now : Nat) : Clock := ⟨.ofNat now, .ofNat now, fun _ => .ofNat now⟩

/-- The age test with the subtraction of `unsigned long long`s. -/
def expiredBy (s : State) (clock : Clock) (p : FullPacket) : Bool :=
  let lastActivity := (clock.aged p - .ofNat p.timestampMsEpochLast).toNat / 1000 % 2 ^ 32
  s.fragmentMaxDurationS.toNat < lastActivity

/-- `reassembly_garbage_collect` with each of its readings of the clock. -/
def reassemblyGarbageCollectBy (s : State) (clock : Clock) : State :=
  if 0 < s.fragmentMaxDurationS.toNat ∧
      minGarbageCollectPeriodS * 1000 < (clock.asked - .ofNat s.lastGcTsMs).toNat then
    let packets := s.packets.filter fun p => !expiredBy s clock p
    { s with lastGcTsMs := clock.stored.toNat, packets, isQueueEmpty := packets.isEmpty }
  else s

theorem toNat_elapsed {since now : Nat} (hSince : since ≤ now) (hNow : now < 2 ^ 64) :
    (UInt64.ofNat now - UInt64.ofNat since).toNat = now - since := by
  have hLe : UInt64.ofNat since ≤ UInt64.ofNat now := by
    rw [UInt64.le_iff_toNat_le, UInt64.toNat_ofNat_of_lt' hNow,
      UInt64.toNat_ofNat_of_lt' (Nat.lt_of_le_of_lt hSince hNow)]
    exact hSince
  rw [UInt64.toNat_sub_of_le _ _ hLe, UInt64.toNat_ofNat_of_lt' hNow,
    UInt64.toNat_ofNat_of_lt' (Nat.lt_of_le_of_lt hSince hNow)]

/-- With a clock that has not gone back, and reads the same all the time, this is the collection
at one point in time. -/
theorem garbageCollectBy_steady {s : State} {now : Nat} (hNow : now < 2 ^ 64)
    (hLast : s.lastGcTsMs ≤ now) (hStamps : ∀ p ∈ s.packets, p.timestampMsEpochLast ≤ now) :
    reassemblyGarbageCollectBy s (.steady now) = reassemblyGarbageCollect s now := by
  have hExpired : ∀ p ∈ s.packets, (!expiredBy s (.steady now) p) = !expired s now p := by
    intro p hp
    simp only [expiredBy, Clock.steady, toNat_elapsed (hStamps p hp) hNow, expired]
  unfold reassemblyGarbageCollectBy reassemblyGarbageCollect Collects
  simp only [Clock.steady, toNat_elapsed hLast hNow, UInt64.toNat_ofNat_of_lt' hNow]
  rw [← Clock.steady, List.filter_congr hExpired]
  rfl

/-- What can be done with the store, at any time. -/
inductive Use where
  | plain (op : Op)
  | garbageCollect (clock : Clock)

def Use.step (s : State) : Use → Option State
  | .plain op => Reassembly.step s op
  | .garbageCollect clock => some (reassemblyGarbageCollectBy s clock)

/-- No two packets have one key, no packet has two fragments at one offset, and the flag is raised
only over an empty store. -/
structure Intact (s : State) : Prop where
  keys : (s.packets.map FullPacket.key).Nodup
  offsets : ∀ p ∈ s.packets, (p.head.map Segment.offset).Nodup
  flag : s.FlagSound

theorem intact_init : Intact init := ⟨List.nodup_nil, nofun, flagSound_init⟩

section Packets

variable {packets packets' : List FullPacket} {p : FullPacket} {key : PacketKey}

theorem map_key_storePacket : (storePacket p packets).map FullPacket.key = packets.map FullPacket.key := by
  induction packets with
  | nil => rfl
  | cons q packets ih =>
    rw [storePacket]
    split
    · next hSame => rw [List.map_cons, List.map_cons, hSame]
    · rw [List.map_cons, List.map_cons, ih]

theorem get_eq_none_iff : getPacketFromHash packets key = none ↔ key ∉ packets.map FullPacket.key := by
  rw [getPacketFromHash, List.find?_eq_none, List.mem_map]
  constructor
  · rintro h ⟨p, hp, hKey⟩
    exact h p hp (decide_eq_true hKey)
  · intro h p hp hKey
    exact h ⟨p, hp, of_decide_eq_true hKey⟩

theorem get_of_mem (h : (packets.map FullPacket.key).Nodup) (hp : p ∈ packets) :
    getPacketFromHash packets p.key = some p := by
  induction packets with
  | nil => cases hp
  | cons q packets ih =>
    obtain ⟨hFresh, hRest⟩ := List.nodup_cons.mp h
    rcases List.mem_cons.mp hp with rfl | hp
    · exact List.find?_cons_of_pos (decide_eq_true rfl)
    · have hOther : ¬ q.key = p.key := fun hSame => hFresh (hSame ▸ List.mem_map_of_mem hp)
      exact (List.find?_cons_of_neg (by simpa using hOther)).trans (ih hRest hp)

theorem nodup_getOrCreatePacket {alloc : Bool} (h : (packets.map FullPacket.key).Nodup)
    (hFound : getOrCreatePacket packets key alloc = some (packets', p)) :
    (packets'.map FullPacket.key).Nodup := by
  unfold getOrCreatePacket at hFound
  split at hFound
  · cases hFound
    exact h
  · next hNone =>
    unfold createPacketInHash at hFound
    split at hFound
    · cases hFound
      have hConcat := h.concat (get_eq_none_iff.mp hNone)
      rw [List.concat_eq_append] at hConcat
      rw [List.map_append, List.map_singleton]
      exact hConcat
    · cases hFound

end Packets

theorem Intact.addFragment {s : State} (h : Intact s) (frag : ReassemblyFragment) (allocs : Allocs)
    (now : Nat) : Intact (reassemblyAddFragment s frag allocs now).1 := by
  have hFlag := flagSound_addFragment s frag allocs now
  rcases reassemblyAddFragment_cases s frag allocs now with
    ⟨-, hAdd⟩ | ⟨packets, p, hFound, hEntered, hOutcome⟩
  · rw [hAdd] at hFlag ⊢
    exact ⟨h.keys, h.offsets, hFlag⟩
  have hKeys := nodup_getOrCreatePacket h.keys hFound
  have hOffsets : ∀ q ∈ packets, (q.head.map Segment.offset).Nodup := by
    intro q hq
    rcases hEntered.mem q hq with hOld | rfl
    · exact h.offsets q hOld
    · exact List.nodup_nil
  rcases hOutcome with ⟨-, hAdd⟩ | ⟨hAccepts, hAdd⟩
  · rw [hAdd] at hFlag ⊢
    exact ⟨hKeys, hOffsets, hFlag⟩
  · rw [hAdd] at hFlag ⊢
    refine ⟨?_, fun q hq => ?_, hFlag⟩
    · exact map_key_storePacket.symm ▸ hKeys
    rcases mem_storePacket hq with rfl | hOld
    · refine List.nodup_cons.mpr ⟨?_, hOffsets p (mem_of_get hEntered.get_same)⟩
      rw [List.mem_map]
      rintro ⟨f, hf, hSame⟩
      exact hAccepts.1 f hf hSame
    · exact hOffsets q hOld

/-- Some packets are taken out, and the flag is set anew. -/
theorem Intact.remove {s : State} (h : Intact s) {packets : List FullPacket} (hLess : packets.Sublist s.packets)
    (lastGcTsMs : Nat) :
    Intact { s with lastGcTsMs, packets, isQueueEmpty := packets.isEmpty } where
  keys := h.keys.sublist (hLess.map _)
  offsets p hp := h.offsets p (hLess.subset hp)
  flag := fun hEmpty => List.isEmpty_iff.mp hEmpty

theorem Intact.step {s t : State} {use : Use} (h : Intact s) (hStep : Use.step s use = some t) : Intact t := by
  cases use with
  | plain op =>
    cases op with
    | addFragment frag allocs now =>
      cases hStep
      exact h.addFragment frag allocs now
    | getFullMessage key buffer size =>
      cases hStep
      rcases reassemblyGetFullMessage_cases s key buffer size with ⟨left, hGet⟩ | ⟨p, -, -, -, hGet⟩
      · rw [hGet]
        exact h
      · rw [hGet]
        exact h.remove List.eraseP_sublist s.lastGcTsMs
    | garbageCollect now =>
      cases hStep
      unfold reassemblyGarbageCollect
      split
      · exact h.remove List.filter_sublist now
      · exact h
    | setMaxFragmentDuration d =>
      cases hStep
      exact ⟨h.keys, h.offsets, h.flag⟩
  | garbageCollect clock =>
    cases hStep
    unfold reassemblyGarbageCollectBy
    split
    · exact h.remove List.filter_sublist clock.stored.toNat
    · exact h

theorem intact_run {uses : List Use} {s : State} (h : run Use.step init uses = some s) : Intact s :=
  run_invariant' (fun _ _ _ hInv hStep => hInv.step hStep) intact_init h

/-- No packet is created for the fragment: its packet is there, or its allocation fails. -/
def NoneCreated (s : State) (frag : ReassemblyFragment) (allocs : Allocs) : Prop :=
  (getPacketFromHash s.packets frag.key).isSome = true ∨ allocs.packet = false

/-- A refused fragment finds the store as it was, with a packet for it at most in addition. -/
theorem refused_packets {s : State} {frag : ReassemblyFragment} {allocs : Allocs} {now : Nat}
    (hRefused : (reassemblyAddFragment s frag allocs now).2.1 = false) :
    ∃ created, (reassemblyAddFragment s frag allocs now).1 =
        { s with isQueueEmpty := false, packets := s.packets ++ created } ∧
      (NoneCreated s frag allocs → created = []) := by
  have hSame : ({ s with isQueueEmpty := false } : State) =
      { s with isQueueEmpty := false, packets := s.packets ++ [] } := by
    rw [List.append_nil]
  rcases reassemblyAddFragment_cases s frag allocs now with
    ⟨-, hAdd⟩ | ⟨packets, p, hFound, -, ⟨-, hAdd⟩ | ⟨-, hAdd⟩⟩
  · rw [hAdd]
    exact ⟨[], hSame, fun _ => rfl⟩
  · rw [hAdd]
    unfold getOrCreatePacket at hFound
    split at hFound
    · cases hFound
      exact ⟨[], hSame, fun _ => rfl⟩
    · next hNone =>
      unfold createPacketInHash at hFound
      split at hFound
      · next hAlloc =>
        cases hFound
        refine ⟨_, rfl, ?_⟩
        rintro (hStored | hFailed)
        · rw [hNone] at hStored
          cases hStored
        · rw [hAlloc] at hFailed
          cases hFailed
      · cases hFound
  · rw [hAdd] at hRefused
    cases hRefused

/-- A fragment that is refused lowers the flag, which is done in advance. All packets stay as
they were, and no other is stored unless one was created for the fragment. -/
theorem addFragment_refused (s : State) (frag : ReassemblyFragment) (allocs : Allocs) (now : Nat)
    (hRefused : (reassemblyAddFragment s frag allocs now).2.1 = false) :
    (reassemblyAddFragment s frag allocs now).1.isQueueEmpty = false ∧
      s.packets <+: (reassemblyAddFragment s frag allocs now).1.packets ∧
      (NoneCreated s frag allocs →
        (reassemblyAddFragment s frag allocs now).1 = { s with isQueueEmpty := false }) := by
  obtain ⟨created, hAdd, hNone⟩ := refused_packets hRefused
  rw [hAdd]
  refine ⟨rfl, List.prefix_append _ _, fun h => ?_⟩
  rw [hNone h, List.append_nil]

/-- The store after the first fragment of packet 1 from node 7. -/
def oneStored : State :=
  (reassemblyAddFragment init ⟨7, 1, 0, false, [10]⟩ ⟨true, true, true⟩ 0).1

/-- The fragment arrives a second time, with the last flag and another byte. -/
theorem addFragment_refused_duplicate :
    (reassemblyAddFragment oneStored ⟨7, 1, 0, true, [20]⟩ ⟨true, true, true⟩ 5).1.isQueueEmpty = false ∧
      oneStored.packets <+:
        (reassemblyAddFragment oneStored ⟨7, 1, 0, true, [20]⟩ ⟨true, true, true⟩ 5).1.packets ∧
      (NoneCreated oneStored ⟨7, 1, 0, true, [20]⟩ ⟨true, true, true⟩ →
        (reassemblyAddFragment oneStored ⟨7, 1, 0, true, [20]⟩ ⟨true, true, true⟩ 5).1 =
          { oneStored with isQueueEmpty := false }) :=
  addFragment_refused oneStored ⟨7, 1, 0, true, [20]⟩ ⟨true, true, true⟩ 5 (by decide)

/-- Without memory for its packet, the first fragment is refused and the flag is lowered. -/
theorem refusal_lowers_flag :
    ¬ ∀ (ops : List Op) (s : State) (frag : ReassemblyFragment) (allocs : Allocs) (now : Nat),
      run step init ops = some s → (reassemblyAddFragment s frag allocs now).2.1 = false →
        (reassemblyAddFragment s frag allocs now).1 = s := by
  intro h
  exact absurd (h [] init ⟨7, 1, 0, false, [10]⟩ ⟨false, true, true⟩ 0 rfl rfl) (by decide)

end CMeshApi.Reassembly
