import Mathlib.Data.List.Basic

/-!
# Memory around a pointer

The cells are addressed relative to a pointer, in both directions: an access
outside the object the pointer belongs to stays visible as an access at a
negative index, or at one past the object's size.
-/

namespace CMeshApi

universe u

abbrev Memory (α : Type u) := Int → α

namespace Memory

variable {α : Type u}

def store (m : Memory α) (pos : Int) (a : α) : Memory α := fun i => if i = pos then a else m i

/-- Copies the list to the cells from `pos` on. -/
def write (m : Memory α) (pos : Int) (bs : List α) : Memory α := fun i =>
  if i < pos then m i else (bs[(i - pos).toNat]?).getD (m i)

def read (m : Memory α) (pos : Int) (n : Nat) : List α := (List.range n).map fun k : Nat => m (pos + k)

@[simp] theorem store_same (m : Memory α) (pos : Int) (a : α) : m.store pos a pos = a := if_pos rfl

theorem store_other (m : Memory α) (pos : Int) (a : α) {i : Int} (h : i ≠ pos) :
    m.store pos a i = m i := if_neg h

@[simp] theorem write_nil (m : Memory α) (pos : Int) : m.write pos [] = m := by
  funext i
  simp [write]

theorem write_below (m : Memory α) (pos : Int) (bs : List α) {i : Int} (h : i < pos) :
    m.write pos bs i = m i := if_pos h

theorem write_above (m : Memory α) (pos : Int) (bs : List α) {i : Int} (h : pos + bs.length ≤ i) :
    m.write pos bs i = m i := by
  have hi : ¬ i < pos := by omega
  have hEnd : bs.length ≤ (i - pos).toNat := by omega
  rw [write, if_neg hi, List.getElem?_eq_none hEnd, Option.getD_none]

theorem write_inside (m : Memory α) (pos : Int) (bs : List α) {k : Nat} (h : k < bs.length) :
    m.write pos bs (pos + k) = bs[k] := by
  have hk : ¬ pos + k < pos := by omega
  have hIndex : (pos + k - pos).toNat = k := by omega
  rw [write, if_neg hk, hIndex, List.getElem?_eq_getElem h, Option.getD_some]

theorem write_cons (m : Memory α) (pos : Int) (b : α) (bs : List α) :
    m.write pos (b :: bs) = (m.store pos b).write (pos + 1) bs := by
  funext i
  rcases Int.lt_trichotomy i pos with h | h | h
  · rw [write_below _ _ _ h, write_below _ _ _ (by omega), store_other _ _ _ (by omega)]
  · subst h
    rw [write_below (m.store i b) _ _ (by omega), store_same]
    have hHead : 0 < (b :: bs).length := Nat.succ_pos _
    simpa using write_inside m i (b :: bs) hHead
  · have hIndex : (i - pos).toNat = (i - (pos + 1)).toNat + 1 := by omega
    rw [write, write, if_neg (by omega), if_neg (by omega), hIndex, List.getElem?_cons_succ,
      store_other _ _ _ (by omega)]

theorem write_append (m : Memory α) (pos : Int) (bs cs : List α) :
    m.write pos (bs ++ cs) = (m.write pos bs).write (pos + bs.length) cs := by
  induction bs generalizing m pos with
  | nil => simp
  | cons b bs ih =>
    rw [List.cons_append, write_cons, write_cons, ih, List.length_cons]
    congr 1
    omega

instance : Nontrivial UInt8 := ⟨0, 1, by decide⟩

/-- What is stored somewhere differs from what one of two memories held there. -/
theorem not_unchanged [Nontrivial α] (f : Memory α → Memory α) (pos : Int) {bs : List α}
    (hSome : 0 < bs.length) : ¬ ∀ m : Memory α, (f m).write pos bs pos = m pos := by
  intro h
  have hFirst : ∀ a : α, bs[0] = a := by
    intro a
    have hInside := write_inside (f fun _ => a) pos bs hSome
    rw [Int.natCast_zero, Int.add_zero] at hInside
    exact hInside.symm.trans (h fun _ => a)
  obtain ⟨a, hNe⟩ := exists_ne bs[0]
  exact hNe (hFirst a).symm

theorem write_take_drop (m : Memory α) (pos : Int) {bs : List α} {k : Nat} (h : k ≤ bs.length) :
    (m.write pos (bs.take k)).write (pos + k) (bs.drop k) = m.write pos bs := by
  have hFront : (bs.take k).length = k := List.length_take_of_le h
  calc (m.write pos (bs.take k)).write (pos + k) (bs.drop k)
    _ = m.write pos (bs.take k ++ bs.drop k) := by rw [write_append, hFront]
    _ = m.write pos bs := by rw [List.take_append_drop]

@[simp] theorem length_read (m : Memory α) (pos : Int) (n : Nat) : (m.read pos n).length = n := by
  simp [read]

@[simp] theorem getElem_read (m : Memory α) (pos : Int) (n : Nat) (k : Nat)
    (h : k < (m.read pos n).length) : (m.read pos n)[k] = m (pos + k) := by
  simp only [read, List.getElem_map, List.getElem_range]

/-- Reading depends on the cells read only. -/
theorem read_eq_iff {m : Memory α} {pos : Int} {bs : List α} :
    m.read pos bs.length = bs ↔ ∀ k (h : k < bs.length), m (pos + k) = bs[k] := by
  constructor
  · intro h k hk
    have hRead : k < (m.read pos bs.length).length := by simpa using hk
    rw [← getElem_read m pos bs.length k hRead]
    simp only [h]
  · intro h
    exact List.ext_getElem (by simp) fun k _ hk => by rw [getElem_read, h k hk]

theorem read_congr {m m' : Memory α} {pos : Int} {n : Nat} (h : ∀ k < n, m (pos + k) = m' (pos + k)) :
    m.read pos n = m'.read pos n :=
  List.map_congr_left fun k hk => h k (List.mem_range.mp hk)

theorem read_inj {m m' : Memory α} {pos : Int} {n : Nat} (h : m.read pos n = m'.read pos n) {k : Nat}
    (hk : k < n) : m (pos + k) = m' (pos + k) :=
  (List.map_inj_left.mp h) k (List.mem_range.mpr hk)

theorem read_succ (m : Memory α) (pos : Int) (n : Nat) : m.read pos (n + 1) = m pos :: m.read (pos + 1) n := by
  rw [read, List.range_succ_eq_map, List.map_cons, List.map_map, Int.natCast_zero, Int.add_zero]
  refine congrArg _ (List.map_congr_left fun k _ => congrArg m ?_)
  simp only [Nat.succ_eq_add_one]
  omega

theorem read_cons_iff {m : Memory α} {pos : Int} {b : α} {bs : List α} :
    m.read pos (b :: bs).length = b :: bs ↔ m pos = b ∧ m.read (pos + 1) bs.length = bs := by
  rw [List.length_cons, read_succ, List.cons.injEq]

theorem read_add (m : Memory α) (pos : Int) (n k : Nat) :
    m.read pos (n + k) = m.read pos n ++ m.read (pos + n) k := by
  rw [read, List.range_add, List.map_append, List.map_map]
  refine congrArg _ (List.map_congr_left fun i _ => congrArg m ?_)
  push_cast
  omega

theorem read_write_part (m : Memory α) (pos : Int) {bs : List α} {i n : Nat} (h : i + n ≤ bs.length) :
    (m.write pos bs).read (pos + i) n = (bs.drop i).take n := by
  have hPart : ((bs.drop i).take n).length = n := by
    rw [List.length_take, List.length_drop]
    omega
  have hCells : ∀ k (hk : k < ((bs.drop i).take n).length),
      m.write pos bs (pos + i + k) = ((bs.drop i).take n)[k] := by
    intro k hk
    have hInside : i + k < bs.length := by omega
    have hWritten := write_inside m pos bs hInside
    rw [Int.natCast_add, ← Int.add_assoc] at hWritten
    rw [hWritten, List.getElem_take, List.getElem_drop]
  rw [← read_eq_iff.mpr hCells, hPart]

theorem write_read_add (m r : Memory α) (pos i : Int) (n k : Nat) :
    (m.write pos (r.read i n)).write (pos + n) (r.read (i + n) k) = m.write pos (r.read i (n + k)) := by
  rw [read_add, write_append, length_read]

theorem read_store_below (m : Memory α) {pos i : Int} (n : Nat) (a : α) (h : i < pos) :
    (m.store i a).read pos n = m.read pos n :=
  read_congr fun k _ => store_other m i a (by omega)

theorem read_write (m : Memory α) (pos : Int) (bs : List α) :
    (m.write pos bs).read pos bs.length = bs :=
  read_eq_iff.mpr fun _ hk => write_inside m pos bs hk

/-- What the cells hold already changes nothing. -/
theorem write_replicate {m : Memory α} {pos : Int} {a : α} (h : ∀ i, pos ≤ i → m i = a) (n : Nat) :
    m.write pos (List.replicate n a) = m := by
  funext i
  unfold write
  split
  · rfl
  · next hAt =>
    rw [List.getElem?_replicate, h i (Int.le_of_not_gt hAt)]
    split <;> rfl

/-- The memory as it is addressed from another pointer into it. -/
def shift (m : Memory α) (k : Int) : Memory α := fun i => m (k + i)

theorem shift_write (m : Memory α) (k pos : Int) (bs : List α) :
    (m.write pos bs).shift k = (m.shift k).write (pos - k) bs := by
  funext i
  have hBelow : k + i < pos ↔ i < pos - k := by omega
  have hPlace : k + i - pos = i - (pos - k) := by omega
  simp only [shift, write, hBelow, hPlace]

@[simp] theorem shift_shift (m : Memory α) (k l : Int) : (m.shift k).shift l = m.shift (k + l) := by
  funext i
  simp only [shift, Int.add_assoc]

@[simp] theorem shift_zero (m : Memory α) : m.shift 0 = m := by
  funext i
  simp only [shift, Int.zero_add]

theorem store_eq_write (m : Memory α) (pos : Int) (a : α) : m.store pos a = m.write pos [a] := by
  rw [write_cons, write_nil]

end Memory

end CMeshApi
