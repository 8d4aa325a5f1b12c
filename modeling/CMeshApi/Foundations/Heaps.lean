import Mathlib.Data.List.Basic

/-!
# Heaps of one type of object

A heap says of each pointer what object is allocated there. An access to anything
else is a fault, so that a program that is shown to end without one only uses memory
it owns, and a second free of an object is one of the faults it does not have. A loop
over pointers is followed for a given number of rounds.
-/

namespace CMeshApi.Heaps

universe u v w

/-- Why a program stops before its end. -/
inductive Stop where
  /-- Memory was used that is not allocated. -/
  | fault
  /-- The program ended the process. -/
  | exit
  /-- A loop was not over after the rounds it was followed for. -/
  | stuck
deriving DecidableEq, Repr

abbrev Run (α : Type u) := Except Stop α

/-- The run is over, without a fault, with a result that meets `Q`; it ends the process only
under `exits`. -/
def Ends {α : Type u} (exits : Prop) (x : Run α) (Q : α → Prop) : Prop :=
  match x with
  | .ok a => Q a
  | .error .exit => exits
  | .error _ => False

section Ends

variable {α β : Type u} {exits exits' : Prop} {x : Run α} {Q R : α → Prop}

theorem Ends.bind {f : α → Run β} {R : β → Prop} (h : Ends exits x Q)
    (hNext : ∀ a, Q a → Ends exits (f a) R) : Ends exits (x >>= f) R := by
  cases x with
  | ok a => exact hNext a h
  | error stop =>
    cases stop with
    | fault => exact h.elim
    | exit => exact h
    | stuck => exact h.elim

theorem Ends.mono (h : Ends exits x Q) (hExits : exits → exits') (hMono : ∀ a, Q a → R a) :
    Ends exits' x R := by
  cases x with
  | ok a => exact hMono a h
  | error stop =>
    cases stop with
    | fault => exact h.elim
    | exit => exact hExits h
    | stuck => exact h.elim

theorem Ends.returned (h : Ends exits x Q) {a : α} (hReturned : x = .ok a) : Q a := by
  rw [hReturned] at h
  exact h

/-- What is known of the result, with where it comes from. -/
theorem Ends.returning (h : Ends exits x Q) : Ends exits x fun a => x = .ok a ∧ Q a := by
  cases x with
  | ok a => exact ⟨rfl, h⟩
  | error stop =>
    cases stop with
    | fault => exact h.elim
    | exit => exact h
    | stuck => exact h.elim

@[simp] theorem ok_bind {a : α} {f : α → Run β} : ((.ok a : Run α) >>= f) = f a := rfl

end Ends

/-- What is allocated at each pointer. -/
abbrev Heap (P : Type u) (E : Type v) := P → Option E

namespace Heap

variable {P : Type u} {E : Type v} {h : Heap P E} {p q : P} {e : E} {f : E → E}

def empty : Heap P E := fun _ => none

def load (h : Heap P E) (p : P) : Run E :=
  match h p with
  | some e => .ok e
  | none => .error .fault

theorem load_eq (hSome : h p = some e) : h.load p = .ok e := by
  rw [load, hSome]

variable [DecidableEq P]

def set (h : Heap P E) (p : P) (e : E) : Heap P E := fun q => if q = p then some e else h q

def clear (h : Heap P E) (p : P) : Heap P E := fun q => if q = p then none else h q

/-- The object at the pointer, if that is not null, changes by `f`; nothing is allocated and nothing
freed. -/
def change (h : Heap P E) (p : Option P) (f : E → E) : Heap P E := fun q =>
  if p = some q then (h q).map f else h q

def modify (h : Heap P E) (p : P) (f : E → E) : Run (Heap P E) :=
  if (h p).isSome then .ok (h.change (some p) f) else .error .fault

/-- Writes through a pointer that may be null, if it is not. -/
def modifyIf (h : Heap P E) (p : Option P) (f : E → E) : Run (Heap P E) :=
  match p with
  | some p => h.modify p f
  | none => .ok h

def free (h : Heap P E) (p : P) : Run (Heap P E) :=
  if (h p).isSome then .ok (h.clear p) else .error .fault

@[simp] theorem set_same (h : Heap P E) (p : P) (e : E) : h.set p e p = some e := if_pos rfl

theorem set_other (hNe : q ≠ p) : h.set p e q = h q := if_neg hNe

@[simp] theorem clear_same (h : Heap P E) (p : P) : h.clear p p = none := if_pos rfl

theorem clear_other (hNe : q ≠ p) : h.clear p q = h q := if_neg hNe

@[simp] theorem change_none (h : Heap P E) (f : E → E) : h.change none f = h :=
  funext fun q => if_neg (Option.some_ne_none q).symm

theorem change_same (h : Heap P E) (p : P) (f : E → E) : h.change (some p) f p = (h p).map f :=
  if_pos rfl

theorem change_other {p : Option P} (hNe : p ≠ some q) : h.change p f q = h q := if_neg hNe

@[simp] theorem isSome_change (h : Heap P E) (p : Option P) (q : P) (f : E → E) :
    (h.change p f q).isSome = (h q).isSome := by
  unfold change
  split
  · exact Option.isSome_map
  · rfl

theorem clear_set (hFresh : h p = none) : (h.set p e).clear p = h := by
  funext q
  by_cases hEq : q = p
  · rw [hEq, clear_same, hFresh]
  · rw [clear_other hEq, set_other hEq]

theorem change_set (h : Heap P E) (p : P) (e : E) (f : E → E) :
    (h.set p e).change (some p) f = h.set p (f e) := by
  funext q
  by_cases hEq : q = p
  · rw [hEq, change_same, set_same, set_same, Option.map_some]
  · rw [change_other fun hSame => hEq (Option.some.inj hSame).symm, set_other hEq, set_other hEq]

theorem modify_eq (hSome : (h p).isSome = true) (f : E → E) :
    h.modify p f = .ok (h.change (some p) f) := if_pos hSome

theorem modify_set (h : Heap P E) (p : P) (e : E) (f : E → E) :
    (h.set p e).modify p f = .ok (h.set p (f e)) := by
  rw [modify_eq (by rw [set_same]; rfl), change_set]

theorem modify_change {o : Option P} (hSome : (h p).isSome = true) (g f : E → E) :
    (h.change o g).modify p f = .ok ((h.change o g).change (some p) f) :=
  modify_eq (by rw [isSome_change]; exact hSome) f

theorem modifyIf_eq {p : Option P} (hSome : ∀ q, p = some q → (h q).isSome = true) (f : E → E) :
    h.modifyIf p f = .ok (h.change p f) := by
  cases p with
  | none => rw [change_none, modifyIf]
  | some q => exact modify_eq (hSome q rfl) f

theorem free_eq (hSome : (h p).isSome = true) : h.free p = .ok (h.clear p) := if_pos hSome

/-- Exactly `n` objects are allocated. -/
def Allocated (h : Heap P E) (n : Nat) : Prop :=
  ∃ ps : List P, ps.Nodup ∧ ps.length = n ∧ ∀ p, (h p).isSome = true ↔ p ∈ ps

omit [DecidableEq P] in
theorem allocated_empty : (empty : Heap P E).Allocated 0 := ⟨[], List.nodup_nil, rfl, by simp [empty]⟩

theorem allocated_single (p : P) (e : E) : ((empty : Heap P E).set p e).Allocated 1 := by
  refine ⟨[p], List.nodup_cons.mpr ⟨List.not_mem_nil, List.nodup_nil⟩, rfl, fun q => ?_⟩
  by_cases hEq : q = p
  · simp [hEq]
  · simp [set_other hEq, hEq, empty]

section Parts

variable {γ : Type w} (part : E → γ) {g : γ → γ}

/-- A write, as it is seen by a part of the objects on which it acts by `g`. -/
theorem map_change (hActs : ∀ e, part (f e) = g (part e)) (h : Heap P E) (p : Option P) (q : P) :
    (h.change p f q).map part = if p = some q then ((h q).map part).map g else (h q).map part := by
  unfold change
  split
  · rw [Option.map_map, Option.map_map]
    exact congrArg (fun k => (h q).map k) (funext hActs)
  · rfl

/-- A write keeps every part of the objects that it does not touch. -/
theorem map_change_of_keeps (f : E → E) (hKeeps : ∀ e, part (f e) = part e) (h : Heap P E)
    (p : Option P) (q : P) : (h.change p f q).map part = (h q).map part := by
  unfold change
  split
  · rw [Option.map_map]
    exact congrArg (fun k => (h q).map k) (funext hKeeps)
  · rfl

end Parts

end Heap

end CMeshApi.Heaps
