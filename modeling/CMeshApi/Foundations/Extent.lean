import CMeshApi.Foundations.Memory
import Mathlib.Tactic.ByContra

/-!
# How far a function looks into memory

A list is written to the front of a memory that holds anything, and a function is
applied to the result. It depends on the list alone exactly if it looks no further
than the list reaches, where how far it looks may depend on what it finds.
-/

namespace CMeshApi.Memory

universe u v

variable {α : Type u} {β : Type v}

theorem write_store (m : Memory α) (bs : List α) {i : Nat} (h : bs.length ≤ i) (a : α) :
    (m.store i a).write 0 bs = (m.write 0 bs).store i a := by
  funext j
  by_cases hj : j = i
  · subst hj
    rw [write_above _ _ _ (by omega), store_same, store_same]
  · rw [store_other _ _ _ hj, write, write, store_other _ _ _ hj]

theorem write_getD (m : Memory α) (bs : List α) {i : Nat} (h : i < bs.length) (a : α) :
    m.write 0 bs i = bs.getD i a := by
  have hInside := write_inside m 0 bs h
  rw [Int.zero_add] at hInside
  rw [hInside, List.getD_eq_getElem?_getD, List.getElem?_eq_getElem h, Option.getD_some]

theorem read_store_ne {m : Memory α} {pos : Int} {n k : Nat} {a : α} (hk : k < n)
    (ha : a ≠ m (pos + k)) : (m.store (pos + k) a).read pos n ≠ m.read pos n := by
  intro hRead
  have hCell := read_inj hRead hk
  rw [store_same] at hCell
  exact ha hCell

theorem write_read (m m' : Memory α) (n : Nat) (i : Int) :
    m.write 0 (m'.read 0 n) i = if 0 ≤ i ∧ i < n then m' i else m i := by
  rcases Int.lt_or_le i 0 with hBelow | hFront
  · rw [write_below _ _ _ hBelow, if_neg (by omega)]
  · obtain ⟨k, rfl⟩ := Int.eq_ofNat_of_zero_le hFront
    by_cases hk : k < n
    · have hRead : k < (m'.read 0 n).length := by rwa [length_read]
      have hInside := write_inside m 0 (m'.read 0 n) hRead
      rw [getElem_read, Int.zero_add] at hInside
      rw [hInside, if_pos ⟨hFront, by omega⟩]
    · rw [write_above _ _ _ (by rw [length_read]; omega), if_neg (by omega)]

theorem write_read_self (m : Memory α) (n : Nat) : m.write 0 (m.read 0 n) = m := by
  funext i
  rw [write_read, ite_self]

theorem write_read_write (m m' : Memory α) {bs : List α} {n : Nat} (h : bs.length ≤ n) :
    m.write 0 ((m'.write 0 bs).read 0 n) = (m.write 0 (m'.read 0 n)).write 0 bs := by
  funext i
  rw [write_read]
  rcases Int.lt_or_le i 0 with hBelow | hFront
  · rw [if_neg (by omega), write_below _ _ _ hBelow, write_below _ _ _ hBelow]
  · obtain ⟨k, rfl⟩ := Int.eq_ofNat_of_zero_le hFront
    by_cases hk : k < bs.length
    · have hInside := write_inside m' 0 bs hk
      have hInside' := write_inside (m.write 0 (m'.read 0 n)) 0 bs hk
      rw [Int.zero_add] at hInside hInside'
      rw [if_pos ⟨hFront, by omega⟩, hInside, hInside']
    · have hAbove : (0 : Int) + bs.length ≤ k := by omega
      rw [write_above m' _ _ hAbove, write_above (m.write 0 _) _ _ hAbove, write_read]

theorem read_write_iff (m : Memory α) (bs : List α) {l : List α} {pos : Nat} :
    (∃ m' : Memory α, (m'.write 0 bs).read pos l.length = l) ↔ (bs.drop pos).take l.length <+: l := by
  constructor
  · rintro ⟨m', hRead⟩
    rw [List.prefix_iff_getElem?]
    intro k hk
    rw [List.length_take, List.length_drop] at hk
    have hInside : pos + k < bs.length := by omega
    have hCell := read_eq_iff.mp hRead k (by omega)
    have hWritten := write_inside m' 0 bs hInside
    rw [Int.zero_add, Int.natCast_add, hCell] at hWritten
    rw [List.getElem?_eq_getElem (by omega), hWritten, List.getElem_take, List.getElem_drop]
  · intro hPrefix
    refine ⟨m.write pos l, read_eq_iff.mpr fun k hk => ?_⟩
    by_cases hInside : pos + k < bs.length
    · have hWritten := write_inside (m.write pos l) 0 bs hInside
      rw [Int.zero_add, Int.natCast_add] at hWritten
      have hTaken : k < ((bs.drop pos).take l.length).length := by
        rw [List.length_take, List.length_drop]
        omega
      have hSame := List.prefix_iff_getElem?.mp hPrefix k hTaken
      rw [List.getElem?_eq_getElem hk, List.getElem_take, List.getElem_drop] at hSame
      rw [hWritten, Option.some.inj hSame]
    · rw [write_above _ _ _ (by omega), write_inside m pos l hk]

theorem write_agrees (m m' : Memory α) (bs : List α) :
    ∀ k < bs.length, m.write 0 bs k = m'.write 0 bs k := by
  intro k hk
  have hCell := write_inside m 0 bs hk
  have hCell' := write_inside m' 0 bs hk
  rw [Int.zero_add] at hCell hCell'
  rw [hCell, hCell']

/-- What was in the memory before makes no difference. -/
def Settled (bs : List α) (f : Memory α → β) : Prop :=
  ∀ m m' : Memory α, f (m.write 0 bs) = f (m'.write 0 bs)

/-- How far the function looks; the last cell that it looks at can change what it gives. -/
structure Extent (f : Memory α → β) (extent : Memory α → Nat) : Prop where
  looks : ∀ m m' : Memory α, (∀ k < extent m, m k = m' k) → f m = f m'
  last : ∀ (m : Memory α) (n : Nat), extent m = n + 1 → ∃ a, f (m.store n a) ≠ f m

variable {f : Memory α → β} {extent : Memory α → Nat} {bs : List α}

theorem Extent.settled_iff (h : Extent f extent) :
    Settled bs f ↔ ∀ m : Memory α, extent (m.write 0 bs) ≤ bs.length := by
  constructor
  · intro hSettled m
    by_contra hFar
    obtain ⟨n, hn⟩ : ∃ n, extent (m.write 0 bs) = n + 1 :=
      ⟨extent (m.write 0 bs) - 1, by omega⟩
    obtain ⟨a, ha⟩ := h.last _ n hn
    rw [← write_store m bs (by omega)] at ha
    exact ha (hSettled _ _)
  · intro hNear m m'
    apply h.looks
    exact fun k hk => write_agrees m m' bs k (Nat.lt_of_lt_of_le hk (hNear m))

theorem Settled.congr {g : Memory α → β} (h : ∀ m : Memory α, f (m.write 0 bs) = g (m.write 0 bs)) :
    Settled bs f ↔ Settled bs g := by
  constructor
  · intro hSettled m m'
    rw [← h, ← h, hSettled m m']
  · intro hSettled m m'
    rw [h, h, hSettled m m']

end CMeshApi.Memory
