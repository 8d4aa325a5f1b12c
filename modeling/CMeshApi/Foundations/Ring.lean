import Mathlib.Data.List.Basic
import Mathlib.Logic.Function.Basic

/-!
# Ring queues

A queue in a circular array, with the index to write to, the index to read from,
and a flag that tells the empty queue from the full one. The relation `Holds` says
what the queue is for: everything ever put in, in order, less the part already
removed.
-/

namespace CMeshApi

universe u

structure Ring (α : Type u) where
  cells : Nat → α
  write : Nat
  read : Nat
  empty : Bool

namespace Ring

variable {α : Type u}

def Full (q : Ring α) : Prop := q.empty = false ∧ q.write = q.read

instance (q : Ring α) : Decidable q.Full := inferInstanceAs (Decidable (_ ∧ _))

def front (q : Ring α) : α := q.cells q.read

/-- Writes to the next cell, whether or not it is free. -/
def put (capacity : Nat) (q : Ring α) (a : α) : Ring α where
  cells := Function.update q.cells q.write a
  write := (q.write + 1) % capacity
  read := q.read
  empty := false

def advance (capacity : Nat) (q : Ring α) : Ring α :=
  let read := (q.read + 1) % capacity
  { q with read, empty := if read = q.write then true else q.empty }

theorem front_put {capacity : Nat} {q : Ring α} {a : α} (h : q.write ≠ q.read) :
    (q.put capacity a).front = q.front := by
  change Function.update q.cells q.write a q.read = q.cells q.read
  exact Function.update_of_ne h.symm a q.cells

/-- The list was put in, and its first `done` elements are removed. -/
structure Holds (capacity : Nat) (q : Ring α) (xs : List α) (done : Nat) : Prop where
  write_eq : q.write = xs.length % capacity
  read_eq : q.read = done % capacity
  empty_iff : q.empty = true ↔ done = xs.length
  done_le : done ≤ xs.length
  length_le : xs.length ≤ done + capacity
  cell : ∀ k (h : k < xs.length), done ≤ k → q.cells (k % capacity) = xs[k]

theorem holds_nil (capacity : Nat) (a : α) :
    Holds capacity ⟨fun _ => a, 0, 0, true⟩ [] 0 where
  write_eq := (Nat.zero_mod _).symm
  read_eq := (Nat.zero_mod _).symm
  empty_iff := by simp
  done_le := Nat.le_refl 0
  length_le := Nat.zero_le _
  cell := fun _ h => absurd h (Nat.not_lt_zero _)

/-- Two positions less than a turn apart: the later one lies ahead in the same turn, or
behind in the next. -/
theorem mod_cases {capacity a b : Nat} (hCap : 0 < capacity) (hLe : a ≤ b)
    (hTurn : b ≤ a + capacity) :
    b % capacity = a % capacity + (b - a) ∨ b % capacity + capacity = a % capacity + (b - a) := by
  have hSum : b % capacity = (a % capacity + (b - a)) % capacity := by
    rw [Nat.mod_add_mod, Nat.add_sub_cancel' hLe]
  have hFirst : a % capacity < capacity := Nat.mod_lt a hCap
  rw [hSum]
  by_cases hSame : a % capacity + (b - a) < capacity
  · exact Or.inl (Nat.mod_eq_of_lt hSame)
  · right
    rw [Nat.mod_eq_sub_mod (Nat.le_of_not_lt hSame), Nat.mod_eq_of_lt (by omega)]
    omega

theorem mod_ne {capacity a b : Nat} (hLt : a < b) (hTurn : b < a + capacity) :
    a % capacity ≠ b % capacity := by
  have hCap : 0 < capacity := by omega
  rcases mod_cases hCap (Nat.le_of_lt hLt) (Nat.le_of_lt hTurn) with h | h <;> omega

namespace Holds

variable {capacity done : Nat} {q : Ring α} {xs : List α}

theorem not_empty_iff (h : Holds capacity q xs done) : q.empty = false ↔ done < xs.length := by
  have hLe := h.done_le
  rw [← Bool.not_eq_true, h.empty_iff]
  omega

theorem full_iff (h : Holds capacity q xs done) (hCap : 0 < capacity) :
    q.Full ↔ xs.length = done + capacity := by
  rw [Full, h.not_empty_iff, h.write_eq, h.read_eq]
  constructor
  · rintro ⟨hLt, hEq⟩
    by_contra hNot
    exact mod_ne hLt (Nat.lt_of_le_of_ne h.length_le hNot) hEq.symm
  · intro hLength
    refine ⟨by omega, ?_⟩
    rw [hLength, Nat.add_mod_right]

theorem front_eq (h : Holds capacity q xs done) (hLt : done < xs.length) :
    q.front = xs[done] := by
  rw [front, h.read_eq]
  exact h.cell done hLt (Nat.le_refl done)

theorem put (h : Holds capacity q xs done) (hCap : 0 < capacity) (hRoom : ¬ q.Full) (a : α) :
    Holds capacity (q.put capacity a) (xs ++ [a]) done := by
  have hLt : xs.length < done + capacity :=
    Nat.lt_of_le_of_ne h.length_le (mt (h.full_iff hCap).mpr hRoom)
  have hLe := h.done_le
  refine ⟨?_, h.read_eq, ?_, ?_, ?_, ?_⟩
  · rw [List.length_append]
    change (q.write + 1) % capacity = _
    rw [h.write_eq, Nat.mod_add_mod]
    rfl
  · simp only [Ring.put, List.length_append, List.length_singleton, Bool.false_eq_true, false_iff]
    omega
  · simp only [List.length_append, List.length_singleton]
    omega
  · simp only [List.length_append, List.length_singleton]
    omega
  · intro k hk hDone
    change Function.update q.cells q.write a (k % capacity) = _
    rw [List.length_append, List.length_singleton] at hk
    rw [h.write_eq]
    by_cases hLast : k = xs.length
    · subst hLast
      simp
    · have hOld : k < xs.length := by omega
      rw [Function.update_of_ne (mod_ne hOld (by omega)), List.getElem_append_left hOld]
      exact h.cell k hOld hDone

theorem advance (h : Holds capacity q xs done) (hLt : done < xs.length) :
    Holds capacity (q.advance capacity) xs (done + 1) := by
  have hLe := h.length_le
  have hRead : (q.read + 1) % capacity = (done + 1) % capacity := by
    rw [h.read_eq, Nat.mod_add_mod]
  refine ⟨h.write_eq, hRead, ?_, hLt, by omega, ?_⟩
  · change (if (q.read + 1) % capacity = q.write then true else q.empty) = true ↔ _
    rw [hRead, h.write_eq, h.not_empty_iff.mpr hLt]
    constructor
    · intro hSet
      by_contra hNot
      rw [if_neg (mod_ne (by omega) (by omega))] at hSet
      cases hSet
    · intro hEq
      rw [if_pos (by rw [hEq])]
  · intro k hk hDone
    exact h.cell k hk (Nat.le_of_succ_le hDone)

/-- The free cells, as the two indices show them while the queue is neither empty nor full. -/
theorem room (h : Holds capacity q xs done) (hCap : 0 < capacity)
    (hNotFull : xs.length < done + capacity) :
    (q.read < q.write → capacity - (q.write - q.read) = done + capacity - xs.length) ∧
      (q.write ≤ q.read → q.read - q.write ≤ done + capacity - xs.length) := by
  have hLe := h.done_le
  have hWrite : xs.length % capacity < capacity := Nat.mod_lt _ hCap
  rw [h.write_eq, h.read_eq]
  rcases mod_cases hCap hLe h.length_le with hSame | hNext
  · exact ⟨by omega, by omega⟩
  · exact ⟨by omega, by omega⟩

end Holds

end Ring

end CMeshApi
