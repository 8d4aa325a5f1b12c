import CMeshApi.Foundations.Memory
import Mathlib.Order.Interval.Finset.Nat
import Mathlib.Algebra.BigOperators.Group.Finset.Basic
import Mathlib.Algebra.GroupWithZero.Nat

/-!
# Segments of a message

A segment is a piece of data with its place in a longer message. For segments
that lie inside a message and do not overlap, the sum of the sizes alone decides
whether the message is covered; without these two conditions it decides nothing.
-/

namespace CMeshApi

universe u

structure Segment (α : Type u) where
  offset : Nat
  bytes : List α
deriving DecidableEq, Repr

namespace Segment

variable {α : Type u}

def size (f : Segment α) : Nat := f.bytes.length

def stop (f : Segment α) : Nat := f.offset + f.size

def Covers (f : Segment α) (i : Nat) : Prop := f.offset ≤ i ∧ i < f.stop

instance (f : Segment α) (i : Nat) : Decidable (f.Covers i) := inferInstanceAs (Decidable (_ ∧ _))

def Apart (f g : Segment α) : Prop := f.size = 0 ∨ g.size = 0 ∨ f.stop ≤ g.offset ∨ g.stop ≤ f.offset

instance (f g : Segment α) : Decidable (f.Apart g) := inferInstanceAs (Decidable (_ ∨ _))

theorem apart_iff {f g : Segment α} : f.Apart g ↔ ∀ i, ¬ (f.Covers i ∧ g.Covers i) := by
  simp only [Apart, Covers, stop]
  constructor
  · rintro h i ⟨hf, hg⟩
    omega
  · intro h
    by_contra hMeet
    exact h (max f.offset g.offset) (by omega)

/-- The byte a segment holds for a place of the message. -/
def byteAt (f : Segment α) (i : Nat) : Option α := f.bytes[i - f.offset]?

def total (fs : List (Segment α)) : Nat := (fs.map size).sum

@[simp] theorem total_nil : total ([] : List (Segment α)) = 0 := rfl
@[simp] theorem total_cons (f : Segment α) (fs : List (Segment α)) :
    total (f :: fs) = f.size + total fs := by simp [total]

def PairwiseApart (fs : List (Segment α)) : Prop := fs.Pairwise Apart

instance (fs : List (Segment α)) : Decidable (PairwiseApart fs) :=
  inferInstanceAs (Decidable (fs.Pairwise Apart))

/-- No segment covers a place from `n` on; an empty segment may stand anywhere. -/
def Within (n : Nat) (fs : List (Segment α)) : Prop := ∀ f ∈ fs, f.size = 0 ∨ f.stop ≤ n

instance (n : Nat) (fs : List (Segment α)) : Decidable (Within n fs) :=
  inferInstanceAs (Decidable (∀ f ∈ fs, f.size = 0 ∨ f.stop ≤ n))

theorem within_iff {fs : List (Segment α)} {n : Nat} :
    Within n fs ↔ ∀ f ∈ fs, ∀ i, f.Covers i → i < n := by
  simp only [Within, Covers, stop]
  constructor
  · rintro h f hf i hCovers
    have := h f hf
    omega
  · intro h f hf
    by_contra hBeyond
    have := h f hf (f.offset + f.size - 1) (by omega)
    omega

/-- The segments cover the places below `n`, and no other. -/
def CoverExactly (n : Nat) (fs : List (Segment α)) : Prop :=
  ∀ i, i < n ↔ ∃ f ∈ fs, f.Covers i

def places : List (Segment α) → Finset Nat
  | [] => ∅
  | f :: fs => Finset.Ico f.offset f.stop ∪ places fs

theorem mem_places {fs : List (Segment α)} {i : Nat} : i ∈ places fs ↔ ∃ f ∈ fs, f.Covers i := by
  induction fs with
  | nil => simp [places]
  | cons f fs ih =>
    rw [places, Finset.mem_union, Finset.mem_Ico, ih]
    simp [Covers]

theorem card_places {fs : List (Segment α)} (h : PairwiseApart fs) : (places fs).card = total fs := by
  induction fs with
  | nil => rfl
  | cons f fs ih =>
    obtain ⟨hHead, hTail⟩ := List.pairwise_cons.mp h
    have hDisjoint : Disjoint (Finset.Ico f.offset f.stop) (places fs) := by
      rw [Finset.disjoint_left]
      intro i hf hfs
      obtain ⟨g, hg, hCovers⟩ := mem_places.mp hfs
      exact apart_iff.mp (hHead g hg) i ⟨Finset.mem_Ico.mp hf, hCovers⟩
    rw [places, Finset.card_union_of_disjoint hDisjoint, ih hTail, Nat.card_Ico, total_cons]
    simp [stop]

theorem coverExactly_iff_places {fs : List (Segment α)} {n : Nat} :
    CoverExactly n fs ↔ places fs = Finset.range n := by
  simp only [CoverExactly, Finset.ext_iff, mem_places, Finset.mem_range]
  exact forall_congr' fun i => iff_comm

theorem places_subset {fs : List (Segment α)} {n : Nat} (hWithin : Within n fs) :
    places fs ⊆ Finset.range n := by
  intro i hi
  obtain ⟨f, hf, hCovers⟩ := mem_places.mp hi
  exact Finset.mem_range.mpr (within_iff.mp hWithin f hf i hCovers)

theorem total_le {fs : List (Segment α)} {n : Nat} (hApart : PairwiseApart fs)
    (hWithin : Within n fs) : total fs ≤ n := by
  rw [← card_places hApart, ← Finset.card_range n]
  exact Finset.card_le_card (places_subset hWithin)

/-- Apart and inside the message, the sizes decide the cover. -/
theorem coverExactly_iff_total {fs : List (Segment α)} {n : Nat} (hApart : PairwiseApart fs)
    (hWithin : Within n fs) : CoverExactly n fs ↔ total fs = n := by
  rw [coverExactly_iff_places, ← card_places hApart]
  constructor
  · intro h
    rw [h, Finset.card_range]
  · intro h
    exact Finset.eq_of_subset_of_card_le (places_subset hWithin) (by rw [Finset.card_range, h])

theorem CoverExactly.within {fs : List (Segment α)} {n : Nat} (h : CoverExactly n fs) : Within n fs :=
  within_iff.mpr fun f hf i hCovers => (h i).mpr ⟨f, hf, hCovers⟩

/-- Each segment starts no later than the ones before it have come, from `n` on. -/
def Gapless : Nat → List (Segment α) → Prop
  | _, [] => True
  | n, f :: fs => f.offset ≤ n ∧ Gapless (max n f.stop) fs

/-- What one of the segments comes to is covered, by it or by one before it. -/
theorem Gapless.covers {fs : List (Segment α)} {n i : Nat} (h : Gapless n fs) (hStart : n ≤ i)
    (hStop : ∃ f ∈ fs, i < f.stop) : ∃ f ∈ fs, f.Covers i := by
  induction fs generalizing n with
  | nil =>
    obtain ⟨f, hMem, -⟩ := hStop
    cases hMem
  | cons f fs ih =>
    obtain ⟨hHead, hTail⟩ := h
    rcases Nat.lt_or_ge i f.stop with hBefore | hBehind
    · exact ⟨f, List.mem_cons_self, hHead.trans hStart, hBefore⟩
    · have hRest : ∃ g ∈ fs, i < g.stop := by
        obtain ⟨g, hMem, hStop⟩ := hStop
        rcases List.mem_cons.mp hMem with rfl | hMem
        · exact absurd hBehind (Nat.not_le.mpr hStop)
        · exact ⟨g, hMem, hStop⟩
      obtain ⟨g, hMem, hCovers⟩ := ih hTail (Nat.max_le.mpr ⟨hStart, hBehind⟩) hRest
      exact ⟨g, List.mem_cons_of_mem f hMem, hCovers⟩

theorem total_append (fs gs : List (Segment α)) : total (fs ++ gs) = total fs + total gs := by
  simp [total]

theorem total_perm {fs gs : List (Segment α)} (h : fs.Perm gs) : total fs = total gs :=
  (h.map size).sum_eq

/-- Copies every segment to its place, in the order of the list. -/
def assemble (m : Memory α) (fs : List (Segment α)) : Memory α :=
  fs.foldl (fun m f => m.write f.offset f.bytes) m

@[simp] theorem assemble_nil (m : Memory α) : assemble m [] = m := rfl
@[simp] theorem assemble_cons (m : Memory α) (f : Segment α) (fs : List (Segment α)) :
    assemble m (f :: fs) = assemble (m.write f.offset f.bytes) fs := rfl

theorem write_outside (m : Memory α) {f : Segment α} {i : Int}
    (h : i < f.offset ∨ (f.stop : Int) ≤ i) : m.write f.offset f.bytes i = m i := by
  rcases h with h | h
  · exact Memory.write_below _ _ _ h
  · exact Memory.write_above _ _ _ (by simpa [stop, size] using h)

theorem Covers.index_lt {f : Segment α} {i : Nat} (h : f.Covers i) :
    i - f.offset < f.bytes.length := by
  unfold Covers stop size at h
  omega

theorem write_covered (m : Memory α) {f : Segment α} {i : Nat} (h : f.Covers i) :
    f.byteAt i = some (m.write f.offset f.bytes i) := by
  have hBound := h.index_lt
  obtain ⟨hLow, hHigh⟩ := h
  have hPlace : (i : Int) = f.offset + (i - f.offset : Nat) := by omega
  have hWrite := Memory.write_inside m f.offset f.bytes hBound
  rw [← hPlace] at hWrite
  rw [byteAt, hWrite, List.getElem?_eq_getElem hBound]

theorem assemble_outside (m : Memory α) (fs : List (Segment α)) {i : Int}
    (h : ∀ f ∈ fs, i < f.offset ∨ (f.stop : Int) ≤ i) : assemble m fs i = m i := by
  induction fs generalizing m with
  | nil => rfl
  | cons f fs ih =>
    rw [assemble_cons, ih _ fun g hg => h g (List.mem_cons_of_mem _ hg)]
    exact write_outside m (h f List.mem_cons_self)

/-- Segments that stay within `n` places write nothing before the first or from `n` on. -/
theorem assemble_beyond (m : Memory α) {fs : List (Segment α)} {n : Nat} (hWithin : Within n fs)
    {i : Int} (h : i < 0 ∨ (n : Int) ≤ i) : assemble m fs i = m i := by
  apply assemble_outside
  intro f hf
  have hf := hWithin f hf
  simp only [stop] at hf ⊢
  omega

theorem assemble_covered (m : Memory α) {fs : List (Segment α)} (hApart : PairwiseApart fs)
    {f : Segment α} (hf : f ∈ fs) {i : Nat} (hCovers : f.Covers i) :
    f.byteAt i = some (assemble m fs i) := by
  induction fs generalizing m with
  | nil => cases hf
  | cons g fs ih =>
    obtain ⟨hHead, hTail⟩ := List.pairwise_cons.mp hApart
    rcases List.mem_cons.mp hf with rfl | hf
    · have hOutside : assemble (m.write f.offset f.bytes) fs i = m.write f.offset f.bytes i := by
        apply assemble_outside
        intro h hh
        have := apart_iff.mp (hHead h hh) i
        simp only [Covers, not_and] at this hCovers
        have := this hCovers
        omega
      rw [assemble_cons, hOutside]
      exact write_covered m hCovers
    · exact ih (m.write g.offset g.bytes) hTail hf

/-- What the segments together hold for a place: of those that cover it, the last one counts. -/
def lastByte (fs : List (Segment α)) (i : Nat) : Option α :=
  (fs.filterMap fun f => if f.Covers i then f.byteAt i else none).getLast?

theorem assemble_eq_lastByte (m : Memory α) (fs : List (Segment α)) (i : Nat) :
    assemble m fs i = (lastByte fs i).getD (m i) := by
  induction fs generalizing m with
  | nil => rfl
  | cons f fs ih =>
    rw [assemble_cons, ih]
    by_cases hCovers : f.Covers i
    · have hByte := write_covered m hCovers
      have hHead : lastByte (f :: fs) i =
          some ((lastByte fs i).getD (m.write f.offset f.bytes i)) := by
        rw [lastByte, List.filterMap_cons_some (by rw [if_pos hCovers, hByte]), List.getLast?_cons]
        rfl
      rw [hHead, Option.getD_some]
    · have hOutside : (i : Int) < f.offset ∨ (f.stop : Int) ≤ i := by
        unfold Covers at hCovers
        omega
      have hHead : lastByte (f :: fs) i = lastByte fs i := by
        simp only [lastByte, List.filterMap_cons, if_neg hCovers]
      rw [hHead, write_outside m hOutside]

theorem lastByte_eq_none {fs : List (Segment α)} {i : Nat} :
    lastByte fs i = none ↔ ∀ f ∈ fs, ¬ f.Covers i := by
  rw [lastByte, List.getLast?_eq_none_iff, List.filterMap_eq_nil_iff]
  refine forall₂_congr fun f _ => ?_
  constructor
  · intro h hCovers
    rw [if_pos hCovers, byteAt, List.getElem?_eq_getElem hCovers.index_lt] at h
    cases h
  · intro hCovers
    exact if_neg hCovers

/-- Assembled in memory, the segments hold their own bytes at the places they cover only. -/
theorem lastByte_eq_assemble_iff {m : Memory α} {fs : List (Segment α)} {i : Nat} :
    lastByte fs i = some (assemble m fs i) ↔ ∃ f ∈ fs, f.Covers i := by
  rw [assemble_eq_lastByte]
  cases h : lastByte fs i with
  | none =>
    have hUncovered := lastByte_eq_none.mp h
    constructor
    · intro hSome
      cases hSome
    · rintro ⟨f, hf, hCovers⟩
      exact absurd hCovers (hUncovered f hf)
  | some b =>
    have hCovered : ¬ ∀ f ∈ fs, ¬ f.Covers i := fun hNone => by
      rw [lastByte_eq_none.mpr hNone] at h
      cases h
    constructor
    · intro _
      simpa using hCovered
    · intro _
      rfl

/-- The segments cover every place below `n`. -/
def Covered (n : Nat) (fs : List (Segment α)) : Prop := ∀ i < n, ∃ f ∈ fs, f.Covers i

instance (n : Nat) (fs : List (Segment α)) : Decidable (Covered n fs) :=
  inferInstanceAs (Decidable (∀ i < n, ∃ f ∈ fs, f.Covers i))

/-- Each of the bytes is one that the segments hold for its place. -/
def MadeOf (fs : List (Segment α)) (bytes : List α) : Prop :=
  ∀ i (h : i < bytes.length), lastByte fs i = some bytes[i]

theorem madeOf_read_assemble {m : Memory α} {fs : List (Segment α)} {n : Nat} :
    MadeOf fs ((assemble m fs).read 0 n) ↔ Covered n fs := by
  unfold MadeOf Covered
  simp only [Memory.length_read, Memory.getElem_read, Int.zero_add]
  exact forall₂_congr fun i _ => lastByte_eq_assemble_iff

/-- The segment holds what the message holds at its place. -/
def PieceOf (m : List α) (f : Segment α) : Prop := ∀ i, f.Covers i → f.byteAt i = m[i]?

theorem PieceOf.stop_le {m : List α} {f : Segment α} (h : PieceOf m f) :
    f.size = 0 ∨ f.stop ≤ m.length := by
  rcases Nat.eq_zero_or_pos f.size with hNil | hPos
  · exact Or.inl hNil
  · have hStop : f.stop = f.offset + f.size := rfl
    have hEnd : f.Covers (f.stop - 1) := by
      unfold Covers
      omega
    have hByte := h (f.stop - 1) hEnd
    have hInside : f.stop - 1 - f.offset < f.bytes.length := by
      change _ < f.size
      omega
    rw [byteAt, List.getElem?_eq_getElem hInside] at hByte
    obtain ⟨hLt, -⟩ := List.getElem?_eq_some_iff.mp hByte.symm
    exact Or.inr (by omega)

/-- Pieces of one message may overlap: what covers a cell is the message's own byte. -/
theorem assemble_pieces (buffer : Memory α) {m : List α} {fs : List (Segment α)}
    (hPieces : ∀ f ∈ fs, PieceOf m f) {i : Nat} (hCovered : ∃ f ∈ fs, f.Covers i) :
    m[i]? = some (assemble buffer fs i) := by
  induction fs generalizing buffer with
  | nil =>
    obtain ⟨f, hf, -⟩ := hCovered
    cases hf
  | cons f fs ih =>
    have hTail : ∀ g ∈ fs, PieceOf m g := fun g hg => hPieces g (List.mem_cons_of_mem _ hg)
    rw [assemble_cons]
    by_cases hLater : ∃ g ∈ fs, g.Covers i
    · exact ih (buffer.write f.offset f.bytes) hTail hLater
    · obtain ⟨g, hg, hCovers⟩ := hCovered
      obtain rfl : g = f := by
        rcases List.mem_cons.mp hg with rfl | hg
        · rfl
        · exact absurd ⟨g, hg, hCovers⟩ hLater
      have hOutside : ∀ h ∈ fs, (i : Int) < h.offset ∨ (h.stop : Int) ≤ i := fun h hh => by
        by_contra hInside
        exact hLater ⟨h, hh, by unfold Covers; omega⟩
      rw [assemble_outside _ _ hOutside, ← write_covered buffer hCovers]
      exact (hPieces g List.mem_cons_self i hCovers).symm

theorem read_assemble_pieces (buffer : Memory α) {m : List α} {fs : List (Segment α)}
    (hPieces : ∀ f ∈ fs, PieceOf m f) (hCover : ∀ i < m.length, ∃ f ∈ fs, f.Covers i) :
    (assemble buffer fs).read 0 m.length = m := by
  refine Memory.read_eq_iff.mpr fun i hi => ?_
  have hByte := assemble_pieces buffer hPieces (hCover i hi)
  rw [List.getElem?_eq_getElem hi] at hByte
  rw [Int.zero_add]
  exact (Option.some.inj hByte).symm

/-- The `i`-th piece of a message that is cut every `k` places. -/
def chunk (m : List α) (k i : Nat) : Segment α := ⟨i * k, (m.drop (i * k)).take k⟩

theorem size_chunk (m : List α) (k i : Nat) : (chunk m k i).size = min k (m.length - i * k) := by
  rw [size, chunk, List.length_take, List.length_drop]

theorem pieceOf_chunk (m : List α) (k i : Nat) : PieceOf m (chunk m k i) := by
  rintro j ⟨hLow, hHigh⟩
  rw [stop, size_chunk] at hHigh
  simp only [chunk] at hLow hHigh ⊢
  have hInside : j - i * k < k := by omega
  have hPlace : i * k + (j - i * k) = j := by omega
  rw [byteAt, List.getElem?_take_of_lt hInside, List.getElem?_drop, hPlace]

theorem chunk_covers {m : List α} {k i : Nat} (hk : 0 < k) (hi : i < m.length) :
    (chunk m k (i / k)).Covers i := by
  have hDiv := Nat.div_add_mod i k
  have hMod := Nat.mod_lt i hk
  rw [Nat.mul_comm] at hDiv
  constructor
  · simp only [chunk]
    omega
  · rw [stop, size_chunk]
    simp only [chunk]
    omega

theorem chunk_apart (m : List α) (k : Nat) {i j : Nat} (hNe : i ≠ j) :
    (chunk m k i).Apart (chunk m k j) := by
  have hStop : ∀ n, (chunk m k n).stop ≤ (n + 1) * k := by
    intro n
    rw [stop, size_chunk, Nat.succ_mul]
    simp only [chunk]
    omega
  rcases Nat.lt_or_gt_of_ne hNe with hLt | hGt
  · exact Or.inr (Or.inr (Or.inl ((hStop i).trans (Nat.mul_le_mul_right k hLt))))
  · exact Or.inr (Or.inr (Or.inr ((hStop j).trans (Nat.mul_le_mul_right k hGt))))

theorem total_chunks (m : List α) (k n : Nat) :
    total ((List.range n).map (chunk m k)) = min (n * k) m.length := by
  induction n with
  | zero => simp
  | succ n ih =>
    have hStep : (n + 1) * k = n * k + k := Nat.succ_mul n k
    simp only [List.range_succ, List.map_append, List.map_cons, List.map_nil]
    rw [total_append, ih, total_cons, total_nil, size_chunk, hStep]
    omega

end Segment

end CMeshApi
