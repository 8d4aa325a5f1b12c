import Mathlib.Data.List.Basic
import Mathlib.Order.Basic

/-!
# Programs that may not return

A program over a state is followed until it returns or, if it is still in a loop by
then, for as many rounds as it was given; either way it leaves a state. What it
returns is described by its graph `Returns`, which takes a sequence of statements
apart; what it does to the state, returned or not, by a relation that each of its
statements keeps.
-/

namespace CMeshApi.Programs

universe u v w

variable {σ : Type v} {α β : Type u}

/-- `none` says that the program has not returned yet. -/
def Program (σ : Type v) (α : Type u) := σ → Option α × σ

namespace Program

instance : Monad (Program σ) where
  pure a s := (some a, s)
  bind p f s :=
    match p s with
    | (some a, t) => f a t
    | (none, t) => (none, t)

/-- Still in a loop after the rounds it was followed for. -/
def unfinished : Program σ α := fun s => (none, s)

def read (f : σ → α) : Program σ α := fun s => (some (f s), s)

def change (f : σ → σ) : Program σ Unit := fun s => (some (), f s)

end Program

open Program

/-- The program, started in `s`, returns `a` and leaves `t`. -/
def Returns (p : Program σ α) (s : σ) (a : α) (t : σ) : Prop := p s = (some a, t)

instance [DecidableEq α] [DecidableEq σ] (p : Program σ α) (s : σ) (a : α) (t : σ) :
    Decidable (Returns p s a t) := inferInstanceAs (Decidable (p s = (some a, t)))

theorem returns_of_fst {p : Program σ α} {s : σ} {a : α} (h : (p s).1 = some a) :
    Returns p s a (p s).2 := Prod.ext h rfl

theorem Returns.leaves {p : Program σ α} {s t : σ} {a : α} (h : Returns p s a t) : (p s).2 = t :=
  congrArg Prod.snd h

theorem Returns.unique {p : Program σ α} {s t u : σ} {a b : α} (h : Returns p s a t)
    (h' : Returns p s b u) : a = b ∧ t = u := by
  have hEq : (some a, t) = (some b, u) := Eq.trans (Eq.symm h) h'
  rw [Prod.mk.injEq, Option.some.injEq] at hEq
  exact hEq

theorem Returns.iff {p : Program σ α} {s t : σ} {a : α} (h : Returns p s a t) {b : α} {u : σ} :
    Returns p s b u ↔ b = a ∧ u = t := by
  constructor
  · exact fun h' => h'.unique h
  · rintro ⟨rfl, rfl⟩
    exact h

@[simp] theorem returns_pure {a b : α} {s t : σ} :
    Returns (pure a : Program σ α) s b t ↔ b = a ∧ t = s := by
  change (some a, s) = (some b, t) ↔ _
  rw [Prod.mk.injEq, Option.some.injEq]
  exact and_congr eq_comm eq_comm

@[simp] theorem returns_bind {p : Program σ α} {f : α → Program σ β} {s u : σ} {b : β} :
    Returns (p >>= f) s b u ↔ ∃ a t, Returns p s a t ∧ Returns (f a) t b u := by
  change (match p s with
    | (some a, t) => f a t
    | (none, t) => (none, t)) = (some b, u) ↔ _
  unfold Returns
  cases hFirst : p s with
  | mk result t =>
    cases result with
    | none =>
      simp only [Prod.mk.injEq, reduceCtorEq, false_and, exists_false]
    | some a =>
      simp only [Prod.mk.injEq, Option.some.injEq]
      constructor
      · intro h
        exact ⟨a, t, ⟨rfl, rfl⟩, h⟩
      · rintro ⟨a', t', ⟨rfl, rfl⟩, h⟩
        exact h

@[simp] theorem not_returns_unfinished {s t : σ} {a : α} :
    ¬ Returns (unfinished : Program σ α) s a t := nofun

@[simp] theorem returns_read {f : σ → α} {s t : σ} {a : α} :
    Returns (Program.read f) s a t ↔ a = f s ∧ t = s := by
  change (some (f s), s) = (some a, t) ↔ _
  rw [Prod.mk.injEq, Option.some.injEq]
  exact and_congr eq_comm eq_comm

@[simp] theorem returns_change {f : σ → σ} {s t : σ} {a : Unit} :
    Returns (change f) s a t ↔ t = f s := by
  change (some (), f s) = (some a, t) ↔ _
  rw [Prod.mk.injEq]
  exact ⟨fun h => h.2.symm, fun h => ⟨rfl, h.symm⟩⟩

theorem returns_ite {c : Prop} [Decidable c] {p q : Program σ α} {s t : σ} {a : α} :
    Returns (if c then p else q) s a t ↔
      (c ∧ Returns p s a t) ∨ (¬ c ∧ Returns q s a t) := by
  split
  · next h => simp [h]
  · next h => simp [h]

theorem bind_of_returns {p : Program σ α} {f : α → Program σ β} {s t : σ} {a : α} (h : Returns p s a t) :
    (p >>= f) s = f a t := by
  change (match p s with
    | (some a, t) => f a t
    | (none, t) => (none, t)) = _
  rw [show p s = (some a, t) from h]

theorem bind_of_unfinished {p : Program σ α} {f : α → Program σ β} {s t : σ} (h : p s = (none, t)) :
    (p >>= f) s = (none, t) := by
  change (match p s with
    | (some a, t) => f a t
    | (none, t) => (none, t)) = _
  rw [h]

theorem bind_congr_at {p q : Program σ α} {f : α → Program σ β} {s : σ} (h : p s = q s) :
    (p >>= f) s = (q >>= f) s := by
  change (match p s with
    | (some a, t) => f a t
    | (none, t) => (none, t)) = _
  rw [h]
  rfl

instance : LawfulMonad (Program σ) := by
  refine LawfulMonad.mk' _ ?_ ?_ ?_
  · intro α p
    funext s
    change (match p s with
      | (some a, t) => (some a, t)
      | (none, t) => (none, t)) = p s
    split
    · next h => exact h.symm
    · next h => exact h.symm
  · exact fun _ _ => rfl
  · intro α β γ p f g
    funext s
    cases hFirst : p s with
    | mk answer t =>
      cases answer with
      | none =>
        rw [bind_of_unfinished hFirst]
        exact bind_of_unfinished (bind_of_unfinished hFirst)
      | some a =>
        have hFirst : Returns p s a t := hFirst
        change (match (p >>= f) s with
          | (some b, u) => g b u
          | (none, u) => (none, u)) = _
        rw [bind_of_returns hFirst, bind_of_returns hFirst]
        rfl

/-- A property of the state that a sequence of statements leaves, wherever it is stopped. -/
theorem bind_leaves {p : Program σ α} {f : α → Program σ β} {s : σ} {prop : σ → Prop}
    (hp : ∀ t, p s = (none, t) → prop t) (hf : ∀ a t, Returns p s a t → prop (f a t).2) :
    prop ((p >>= f) s).2 := by
  change prop (match p s with
    | (some a, t) => f a t
    | (none, t) => (none, t)).2
  cases hFirst : p s with
  | mk result t =>
    cases result with
    | none => exact hp t hFirst
    | some a => exact hf a t hFirst

/-- The state that a program leaves when it returns. -/
def finish (p : Program σ α) (s : σ) : Option σ := (p s).1.map fun _ => (p s).2

theorem finish_eq_some {p : Program σ α} {s t : σ} : finish p s = some t ↔ ∃ a, Returns p s a t := by
  unfold finish
  rw [Option.map_eq_some_iff]
  exact exists_congr fun a => (Prod.ext_iff (x := p s) (y := (some a, t))).symm

/-- Wherever it is started, the program returns only what has the property. -/
def Yields (p : Program σ α) (post : α → Prop) : Prop := ∀ s a t, Returns p s a t → post a

namespace Yields

variable {p q : Program σ α} {post : α → Prop}

theorem pure {a : α} (h : post a) : Yields (pure a : Program σ α) post := by
  intro s b t hReturns
  obtain ⟨rfl, -⟩ := returns_pure.mp hReturns
  exact h

theorem bind {f : α → Program σ β} {post' : β → Prop} (hp : Yields p post)
    (hf : ∀ a, post a → Yields (f a) post') : Yields (p >>= f) post' := by
  intro s b u hReturns
  obtain ⟨a, t, hFirst, hRest⟩ := returns_bind.mp hReturns
  exact hf a (hp s a t hFirst) t b u hRest

theorem last {f : α → Program σ β} {post' : β → Prop} (hf : ∀ a, Yields (f a) post') :
    Yields (p >>= f) post' := by
  intro s b u hReturns
  obtain ⟨a, t, -, hRest⟩ := returns_bind.mp hReturns
  exact hf a t b u hRest

theorem ite {c : Prop} [Decidable c] (hp : Yields p post) (hq : Yields q post) :
    Yields (if c then p else q) post := by
  split
  · exact hp
  · exact hq

end Yields

/-- Wherever it is started, the program returns. -/
def Completes (p : Program σ α) : Prop := ∀ s, ∃ a t, Returns p s a t

namespace Completes

variable {p q : Program σ α}

theorem pure (a : α) : Completes (pure a : Program σ α) :=
  fun s => ⟨a, s, returns_pure.mpr ⟨rfl, rfl⟩⟩

theorem read (f : σ → α) : Completes (Program.read f) :=
  fun s => ⟨f s, s, returns_read.mpr ⟨rfl, rfl⟩⟩

theorem change (f : σ → σ) : Completes (Program.change f) :=
  fun s => ⟨(), f s, returns_change.mpr rfl⟩

theorem bind {f : α → Program σ β} (hp : Completes p) (hf : ∀ a, Completes (f a)) :
    Completes (p >>= f) := by
  intro s
  obtain ⟨a, t, hFirst⟩ := hp s
  obtain ⟨b, u, hRest⟩ := hf a t
  exact ⟨b, u, returns_bind.mpr ⟨a, t, hFirst, hRest⟩⟩

theorem ite {c : Prop} [Decidable c] (hp : Completes p) (hq : Completes q) :
    Completes (if c then p else q) := by
  split
  · exact hp
  · exact hq

end Completes

/-- Returned or not, the program takes the state along the relation. -/
def Moves (r : σ → σ → Prop) (p : Program σ α) : Prop := ∀ s, r s (p s).2

/-- A relation that holds along a sequence of statements if it holds along each. -/
structure Composes (r : σ → σ → Prop) : Prop where
  refl : ∀ s, r s s
  trans : ∀ {s t u}, r s t → r t u → r s u

theorem composes_eq {δ : Type w} (f : σ → δ) : Composes fun s t => f t = f s :=
  ⟨fun _ => rfl, fun h h' => h'.trans h⟩

theorem composes_invariant (inv : σ → Prop) : Composes fun s t => inv s → inv t :=
  ⟨fun _ => id, fun h h' => h' ∘ h⟩

namespace Moves

variable {r : σ → σ → Prop} {p q : Program σ α}

theorem returns (h : Moves r p) {s t : σ} {a : α} (hp : Returns p s a t) : r s t := by
  have hMoved := h s
  rwa [show p s = (some a, t) from hp] at hMoved

theorem mono {r' : σ → σ → Prop} (h : Moves r p) (hSub : ∀ s t, r s t → r' s t) : Moves r' p :=
  fun s => hSub s _ (h s)

theorem pure (hr : Composes r) (a : α) : Moves r (pure a : Program σ α) := hr.refl

theorem unfinished (hr : Composes r) : Moves r (unfinished : Program σ α) := hr.refl

theorem read (hr : Composes r) (f : σ → α) : Moves r (Program.read f) := hr.refl

theorem change {f : σ → σ} (h : ∀ s, r s (f s)) : Moves r (Program.change f) := h

theorem bind {f : α → Program σ β} (hr : Composes r) (hp : Moves r p) (hf : ∀ a, Moves r (f a)) :
    Moves r (p >>= f) := by
  intro s
  have hFirst := hp s
  change r s (match p s with
    | (some a, t) => f a t
    | (none, t) => (none, t)).2
  cases hStep : p s with
  | mk result t =>
    rw [hStep] at hFirst
    cases result with
    | none => exact hFirst
    | some a => exact hr.trans hFirst (hf a t)

theorem ite {c : Prop} [Decidable c] (hp : Moves r p) (hq : Moves r q) :
    Moves r (if c then p else q) := by
  split
  · exact hp
  · exact hq

end Moves

end CMeshApi.Programs
