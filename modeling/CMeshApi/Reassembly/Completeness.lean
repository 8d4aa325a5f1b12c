import CMeshApi.Reassembly.Store

/-!
# When a full message is complete

A packet counts as full when the sizes of its fragments add up to the end of the
last one. This decides the cover only for fragments that do not overlap and stay
below that end, which nothing checks: fragments that do not fit together let the
sum come out right with a byte missing, or with a write beyond the message.
-/

namespace CMeshApi.Reassembly

open Segment

/-- The fragment fits the packet it is added to: it overlaps no stored fragment, every
fragment ends within the full size as soon as that is known, and a packet that is already
full is only ever extended by the fragment that continues it. -/
def Fits (p : FullPacket) (frag : ReassemblyFragment) : Prop :=
  let fullSize := if frag.lastFragment then frag.offset + frag.size else p.fullSize
  (∀ f ∈ p.head, frag.piece.Apart f) ∧
  (fullSize ≠ 0 → Within fullSize (frag.piece :: p.head)) ∧
  (p.isFull = true → total (frag.piece :: p.head) = fullSize)

instance (p : FullPacket) (frag : ReassemblyFragment) : Decidable (Fits p frag) :=
  inferInstanceAs (Decidable (_ ∧ _))

def FitsWhenAdded (s : State) : Op → Prop
  | .addFragment frag allocs _ => Accepts (target s.packets frag.key) frag allocs →
    Fits (target s.packets frag.key) frag
  | _ => True

instance (s : State) (op : Op) : Decidable (FitsWhenAdded s op) := by
  cases op <;> unfold FitsWhenAdded <;> infer_instance

/-- What the state of a packet says about its fragments while every fragment fits. -/
structure Sound (p : FullPacket) : Prop where
  apart : PairwiseApart p.head
  within : p.fullSize ≠ 0 → Within p.fullSize p.head
  full : p.isFull = true → p.fullSize ≠ 0 ∧ total p.head = p.fullSize

theorem sound_freshPacket (key : PacketKey) : Sound (freshPacket key) :=
  ⟨List.Pairwise.nil, fun h => absurd rfl h, fun h => by cases h⟩

theorem Sound.extended {p : FullPacket} {frag : ReassemblyFragment} {now : Nat} (h : Sound p)
    (hFits : Fits p frag) : Sound (extended p frag now) := by
  obtain ⟨hApart, hWithin, hFull⟩ := hFits
  refine ⟨List.pairwise_cons.mpr ⟨hApart, h.apart⟩, hWithin, fun hIsFull => ?_⟩
  have hTotal := hFull hIsFull
  obtain ⟨hKnown, hOld⟩ := h.full hIsFull
  refine ⟨?_, hTotal⟩
  change (if frag.lastFragment then frag.offset + frag.size else p.fullSize) ≠ 0
  rw [← hTotal, total_cons]
  omega

theorem Sound.settled {p : FullPacket} (h : Sound p) : Sound (settled p) := by
  refine ⟨h.apart, h.within, fun hIsFull => ?_⟩
  rcases Bool.or_eq_true_iff.mp hIsFull with hOld | hNow
  · exact h.full hOld
  · have hNow : p.fullSize ≠ 0 ∧ total p.head = p.fullSize := by simpa using hNow
    exact hNow

theorem sound_step (s : State) (op : Op) (t : State) (hSound : ∀ p ∈ s.packets, Sound p)
    (hFits : FitsWhenAdded s op) (hStep : step s op = some t) : ∀ p ∈ t.packets, Sound p := by
  cases op with
  | addFragment frag allocs now =>
    cases hStep
    rcases reassemblyAddFragment_cases s frag allocs now with
      ⟨-, h⟩ | ⟨packets, p, -, hEntered, ⟨-, h⟩ | ⟨hAccepts, h⟩⟩
    · rw [h]
      exact hSound
    · rw [h]
      intro q hq
      rcases hEntered.mem q hq with hOld | rfl
      · exact hSound q hOld
      · exact sound_freshPacket _
    · have hOldSound : ∀ q ∈ packets, Sound q := fun q hq => by
        rcases hEntered.mem q hq with hOld | rfl
        · exact hSound q hOld
        · exact sound_freshPacket _
      have hTarget := target_eq hEntered
      rw [FitsWhenAdded, hTarget] at hFits
      rw [h]
      intro q hq
      rcases mem_storePacket hq with rfl | hOld
      · exact ((hOldSound p (mem_of_get hEntered.get_same)).extended (hFits hAccepts)).settled
      · exact hOldSound q hOld
  | getFullMessage key buffer size =>
    cases hStep
    rcases reassemblyGetFullMessage_cases s key buffer size with ⟨left, h⟩ | ⟨p, -, -, -, h⟩
    · rw [h]
      exact hSound
    · rw [h]
      exact fun q hq => hSound q (List.mem_of_mem_eraseP hq)
  | garbageCollect now =>
    cases hStep
    unfold reassemblyGarbageCollect
    split
    · exact fun q hq => hSound q (List.mem_of_mem_filter hq)
    · exact hSound
  | setMaxFragmentDuration d =>
    cases hStep
    exact hSound

/-- A retrieved message of size `n` is covered exactly by the packet's fragments, which do not
overlap; nothing is written outside it, and each of its bytes is that of the fragment there. -/
def DeliversCovered (s : State) (key : PacketKey) (buffer : Memory UInt8) (size : Nat) : Prop :=
  let message := (reassemblyGetFullMessage s key buffer size).2
  message.retrieved = true → ∃ p, getPacketFromHash s.packets key = some p ∧
    PairwiseApart p.head ∧ CoverExactly message.size p.head ∧
    (∀ i : Int, i < 0 ∨ (message.size : Int) ≤ i → message.buffer i = buffer i) ∧
    ∀ i < message.size, ∃ f ∈ p.head, f.Covers i ∧ f.byteAt i = some (message.buffer i)

theorem Sound.delivers {s : State} (hSound : ∀ p ∈ s.packets, Sound p) (key : PacketKey)
    (buffer : Memory UInt8) (size : Nat) : DeliversCovered s key buffer size := by
  intro hRetrieved
  rcases reassemblyGetFullMessage_cases s key buffer size with ⟨left, h⟩ | ⟨p, hGet, hFull, -, h⟩
  · rw [h] at hRetrieved
    cases hRetrieved
  · have hp := hSound p (mem_of_get hGet)
    obtain ⟨hKnown, hTotal⟩ := hp.full hFull
    have hWithin := hp.within hKnown
    have hCover := (coverExactly_iff_total hp.apart hWithin).mpr hTotal
    rw [h]
    refine ⟨p, hGet, hp.apart, hCover, fun i hi => assemble_beyond buffer hWithin hi, ?_⟩
    intro i hi
    obtain ⟨f, hf, hCovers⟩ := (hCover i).mp hi
    exact ⟨f, hf, hCovers, assemble_covered buffer hp.apart hf hCovers⟩

/-- At one retrieval, the two conditions on the stored fragments are also necessary. -/
theorem delivers_iff {s : State} {key : PacketKey} {buffer : Memory UInt8} {size : Nat}
    {p : FullPacket} (hGet : getPacketFromHash s.packets key = some p)
    (hRetrieved : (reassemblyGetFullMessage s key buffer size).2.retrieved = true) :
    DeliversCovered s key buffer size ↔
      PairwiseApart p.head ∧ Within p.fullSize p.head ∧ total p.head = p.fullSize := by
  rcases reassemblyGetFullMessage_cases s key buffer size with ⟨left, h⟩ | ⟨q, hq, -, -, h⟩
  · rw [h] at hRetrieved
    cases hRetrieved
  · obtain rfl : q = p := Option.some.inj (hq.symm.trans hGet)
    simp only [DeliversCovered, h, hGet, Option.some.injEq, exists_eq_left', forall_const]
    constructor
    · rintro ⟨hApart, hCover, -⟩
      have hWithin := hCover.within
      exact ⟨hApart, hWithin, (coverExactly_iff_total hApart hWithin).mp hCover⟩
    · rintro ⟨hApart, hWithin, hTotal⟩
      have hCover := (coverExactly_iff_total hApart hWithin).mpr hTotal
      refine ⟨hApart, hCover, fun i hi => assemble_beyond buffer hWithin hi, fun i hi => ?_⟩
      obtain ⟨f, hf, hCovers⟩ := (hCover i).mp hi
      exact ⟨f, hf, hCovers, assemble_covered buffer hApart hf hCovers⟩

/-- In every run whose fragments fit their packets, every retrieval is complete and exact. -/
theorem fitting_runs_deliver (ops : List Op) (hFits : Machine.Meets step FitsWhenAdded init ops)
    (s : State) (key : PacketKey) (buffer : Memory UInt8) (size : Nat)
    (hTakes : Machine.Takes step init ops s (.getFullMessage key buffer size)) :
    DeliversCovered s key buffer size :=
  Sound.delivers (hTakes.invariant sound_step (fun _ hp => nomatch hp) hFits).1 key buffer size

def twoFragments : List Op := [
  .addFragment ⟨7, 1, 2, true, [30]⟩ .all 0,
  .addFragment ⟨7, 1, 0, false, [10, 20]⟩ .all 0]

theorem fitting_runs_deliver_two :
    DeliversCovered ((Machine.run step init twoFragments).getD init) ⟨7, 1⟩ (fun _ => 0) 1500 :=
  fitting_runs_deliver (twoFragments ++ [.getFullMessage ⟨7, 1⟩ (fun _ => 0) 1500])
    (by decide) _ _ _ _ ⟨twoFragments, [], rfl, rfl⟩

/-- One fragment far beyond the end and a last fragment that leaves a gap add up to a "full"
message of two bytes: the first byte is never written, and the byte at 4000 is. -/
def strayFragments : List Op := [
  .addFragment ⟨7, 1, 4000, false, [0xAA]⟩ .all 0,
  .addFragment ⟨7, 1, 1, true, [0xBB]⟩ .all 0]

theorem stray_fragments_break :
    ¬ ∀ (ops : List Op) (s : State) (key : PacketKey) (buffer : Memory UInt8) (size : Nat),
      Machine.Takes step init ops s (.getFullMessage key buffer size) →
        DeliversCovered s key buffer size := by
  intro h
  have hDelivers := h (strayFragments ++ [.getFullMessage ⟨7, 1⟩ (fun _ => 0) 1500]) _ _ _ _
    ⟨strayFragments, [], rfl, rfl⟩
  obtain ⟨p, -, -, -, hOutside, -⟩ := hDelivers rfl
  have hStray := hOutside 4000 (Or.inr (by decide))
  revert hStray
  decide

end CMeshApi.Reassembly
