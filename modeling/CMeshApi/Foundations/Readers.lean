import Mathlib.Data.Option.Basic

/-!
# Readers

A reader is asked for one item at a time and keeps a state between the requests; it may
have to wait. One reader refines another when related states give the same items and stay
related. A consumer that takes items until it has what it wants is again a reader, and
cannot tell the two apart.
-/

namespace CMeshApi.Readers

universe u v w x

variable {σ τ : Type u} {ι : Type v} {ω κ ρ : Type w}

/-- `none` while it waits. -/
abbrev Reader (σ : Type u) (ι : Type v) (ω : Type w) := ι → σ → Option (ω × σ)

/-- For an admitted request related states give the same item, in related states, or both have to
wait. -/
def Refines (admits : ι → Prop) (f : Reader σ ι ω) (g : Reader τ ι ω) (r : σ → τ → Prop) : Prop :=
  ∀ i s t, admits i → r s t → Option.Rel (fun x y => x.1 = y.1 ∧ r x.2 y.2) (f i s) (g i t)

/-- A reader that has all its items from the start. -/
def pull : Reader (List ω) ι ω := fun _ line =>
  match line with
  | [] => none
  | a :: line => some (a, line)

/-- Takes items until the consumer has what it wants, for a number of rounds at most. -/
def consume (f : Reader σ ι ω) (i : ι) (round : κ → ω → κ ⊕ ρ) : Nat → κ → σ → Option (ρ × σ)
  | 0, _, _ => none
  | n + 1, k, s => (f i s).bind fun (a, s) =>
    match round k a with
    | .inl k => consume f i round n k s
    | .inr got => some (got, s)

theorem rel_some_left {α β : Type w} {r : α → β → Prop} {a : α} {y : Option β}
    (h : Option.Rel r (some a) y) : ∃ b, y = some b ∧ r a b := by
  cases h with
  | some h => exact ⟨_, rfl, h⟩

theorem rel_some_right {α β : Type w} {r : α → β → Prop} {x : Option α} {b : β}
    (h : Option.Rel r x (some b)) : ∃ a, x = some a ∧ r a b := by
  cases h with
  | some h => exact ⟨_, rfl, h⟩

theorem rel_none_right {α β : Type w} {r : α → β → Prop} {x : Option α}
    (h : Option.Rel r x (none : Option β)) : x = none := by
  cases h with
  | none => rfl

theorem rel_map_left {α α' β : Type w} {r : α → β → Prop} {r' : α' → β → Prop} {f : α → α'}
    {x : Option α} {y : Option β} (h : Option.Rel r x y) (hMap : ∀ a b, r a b → r' (f a) b) :
    Option.Rel r' (x.map f) y := by
  cases h with
  | none => exact .none
  | some h => exact .some (hMap _ _ h)

theorem rel_bind {α α' β β' : Type w} {r : α → β → Prop} {r' : α' → β' → Prop} {f : α → Option α'}
    {g : β → Option β'} {x : Option α} {y : Option β} (h : Option.Rel r x y)
    (hBind : ∀ a b, r a b → Option.Rel r' (f a) (g b)) : Option.Rel r' (x.bind f) (y.bind g) := by
  cases h with
  | none => exact .none
  | some h => exact hBind _ _ h

theorem Refines.consume {admits : ι → Prop} {f : Reader σ ι ω} {g : Reader τ ι ω} {r : σ → τ → Prop}
    (h : Refines admits f g r) {i : ι} (hi : admits i) (round : κ → ω → κ ⊕ ρ) (n : Nat) (k : κ)
    {s : σ} {t : τ} (hr : r s t) :
    Option.Rel (fun x y => x.1 = y.1 ∧ r x.2 y.2) (consume f i round n k s)
      (Readers.consume g i round n k t) := by
  induction n generalizing k s t with
  | zero => exact .none
  | succ n ih =>
    refine rel_bind (h i s t hi hr) ?_
    rintro ⟨a, s'⟩ ⟨b, t'⟩ ⟨rfl, hr'⟩
    dsimp only
    cases round k a with
    | inl k => exact ih k hr'
    | inr got => exact .some ⟨rfl, hr'⟩

/-- More rounds change nothing once the consumer has what it wants. -/
theorem consume_mono {f : Reader σ ι ω} {i : ι} {round : κ → ω → κ ⊕ ρ} {n m : Nat} {k : κ} {s : σ}
    {got : ρ × σ} (h : consume f i round n k s = some got) (hLe : n ≤ m) :
    consume f i round m k s = some got := by
  induction n generalizing m k s with
  | zero => cases h
  | succ n ih =>
    obtain ⟨m, rfl⟩ : ∃ j, m = j + 1 := ⟨m - 1, by omega⟩
    rw [consume] at h ⊢
    obtain ⟨⟨a, s'⟩, hItem, hRest⟩ := Option.bind_eq_some_iff.mp h
    rw [hItem, Option.bind_some]
    dsimp only at hRest ⊢
    cases hRound : round k a with
    | inl k =>
      rw [hRound] at hRest
      exact ih hRest (Nat.le_of_succ_le_succ hLe)
    | inr got =>
      rw [hRound] at hRest
      exact hRest

end CMeshApi.Readers
