import Mathlib.Data.List.Basic
import Mathlib.Algebra.BigOperators.Group.List.Basic

/-!
# Byte stuffing

A stuffing replaces each reserved symbol by an escape symbol and a substitute, so
that the encoded text is free of the reserved symbols other than the escape.
-/

namespace CMeshApi

universe u

structure Stuffing (α : Type u) [DecidableEq α] where
  esc : α
  /-- The substitute of a reserved symbol, `none` for an ordinary one. -/
  subst : α → Option α
  unsubst : α → α
  esc_reserved : subst esc ≠ none
  unsubst_subst : ∀ a b, subst a = some b → unsubst b = a

namespace Stuffing

variable {α : Type u} [DecidableEq α] (S : Stuffing α)

def stuffSymbol (a : α) : List α :=
  match S.subst a with
  | some b => [S.esc, b]
  | none => [a]

def stuff (xs : List α) : List α := xs.flatMap S.stuffSymbol

@[simp] theorem stuff_nil : S.stuff [] = [] := rfl

@[simp] theorem stuff_cons (x : α) (xs : List α) :
    S.stuff (x :: xs) = S.stuffSymbol x ++ S.stuff xs := rfl

theorem stuff_append (xs ys : List α) : S.stuff (xs ++ ys) = S.stuff xs ++ S.stuff ys :=
  List.flatMap_append

theorem stuffSymbol_reserved {a b : α} (h : S.subst a = some b) : S.stuffSymbol a = [S.esc, b] := by
  rw [stuffSymbol, h]

theorem stuffSymbol_ordinary {a : α} (h : S.subst a = none) : S.stuffSymbol a = [a] := by
  rw [stuffSymbol, h]

theorem ne_esc_of_ordinary {a : α} (h : S.subst a = none) : a ≠ S.esc :=
  fun hEsc => S.esc_reserved (hEsc ▸ h)

theorem length_stuffSymbol_le (a : α) : (S.stuffSymbol a).length ≤ 2 := by
  cases h : S.subst a with
  | none => rw [S.stuffSymbol_ordinary h]; exact Nat.le_succ 1
  | some b => rw [S.stuffSymbol_reserved h]; exact Nat.le_refl 2

theorem length_stuff_le (xs : List α) : (S.stuff xs).length ≤ 2 * xs.length := by
  induction xs with
  | nil => exact Nat.le_refl 0
  | cons x xs ih =>
    have hHead := S.length_stuffSymbol_le x
    rw [stuff_cons, List.length_append, List.length_cons]
    omega

/-- A reserved symbol that is neither the escape nor a substitute never shows in the encoded text. -/
theorem not_mem_stuff {c : α} (hReserved : S.subst c ≠ none) (hEsc : c ≠ S.esc)
    (hSubst : ∀ a, S.subst a ≠ some c) (xs : List α) : c ∉ S.stuff xs := by
  induction xs with
  | nil => exact List.not_mem_nil
  | cons x xs ih =>
    rw [stuff_cons, List.mem_append, not_or]
    refine ⟨?_, ih⟩
    cases h : S.subst x with
    | none =>
      rw [S.stuffSymbol_ordinary h, List.mem_singleton]
      rintro rfl
      exact hReserved h
    | some b =>
      rw [S.stuffSymbol_reserved h, List.mem_cons, List.mem_singleton, not_or]
      refine ⟨hEsc, ?_⟩
      rintro rfl
      exact hSubst x h

/-- What a decoder makes of a text that is followed by `next`. -/
def unstuff (next : α) : List α → List α
  | [] => []
  | [a] => [if a = S.esc then S.unsubst next else a]
  | a :: b :: xs => if a = S.esc then S.unsubst b :: unstuff next xs else a :: unstuff next (b :: xs)

/-- Each escape is followed by a symbol of the text. -/
def Paired : List α → Prop
  | [] => True
  | [a] => a ≠ S.esc
  | a :: b :: xs => if a = S.esc then Paired xs else Paired (b :: xs)

instance decidablePaired : (xs : List α) → Decidable (S.Paired xs)
  | [] => inferInstanceAs (Decidable True)
  | [a] => inferInstanceAs (Decidable (a ≠ S.esc))
  | a :: b :: xs =>
    have := decidablePaired xs
    have := decidablePaired (b :: xs)
    inferInstanceAs (Decidable (if a = S.esc then S.Paired xs else S.Paired (b :: xs)))

/-- Each escape is followed by the substitute of a symbol, and no other reserved symbol is left. -/
def Stuffed : List α → Prop
  | [] => True
  | [a] => S.subst a = none
  | a :: b :: xs =>
    if a = S.esc then S.subst (S.unsubst b) = some b ∧ Stuffed xs
    else S.subst a = none ∧ Stuffed (b :: xs)

variable {S} {next : α}

@[simp] theorem unstuff_nil : S.unstuff next [] = [] := rfl

theorem unstuff_ordinary {a : α} (h : a ≠ S.esc) (xs : List α) :
    S.unstuff next (a :: xs) = a :: S.unstuff next xs := by
  cases xs with
  | nil => rw [unstuff_nil, unstuff, if_neg h]
  | cons b xs => rw [unstuff, if_neg h]

theorem unstuff_esc (b : α) (xs : List α) :
    S.unstuff next (S.esc :: b :: xs) = S.unsubst b :: S.unstuff next xs := by
  rw [unstuff, if_pos rfl]

theorem unstuff_stuffSymbol (a : α) (xs : List α) :
    S.unstuff next (S.stuffSymbol a ++ xs) = a :: S.unstuff next xs := by
  cases h : S.subst a with
  | none =>
    rw [S.stuffSymbol_ordinary h, List.singleton_append]
    exact unstuff_ordinary (S.ne_esc_of_ordinary h) xs
  | some b =>
    rw [S.stuffSymbol_reserved h, List.cons_append, List.singleton_append, unstuff_esc,
      S.unsubst_subst a b h]

theorem unstuff_stuff (xs : List α) : S.unstuff next (S.stuff xs) = xs := by
  induction xs with
  | nil => rfl
  | cons x xs ih => rw [stuff_cons, unstuff_stuffSymbol, ih]

theorem length_unstuff (next next' : α) (xs : List α) :
    (S.unstuff next xs).length = (S.unstuff next' xs).length := by
  fun_induction S.unstuff next xs with
  | case1 => rfl
  | case2 => rfl
  | case3 b xs ih => rw [unstuff_esc, List.length_cons, List.length_cons, ih]
  | case4 a b xs hOrdinary ih =>
    rw [unstuff_ordinary hOrdinary, List.length_cons, List.length_cons, ih]

theorem length_unstuff_le (next : α) (xs : List α) : (S.unstuff next xs).length ≤ xs.length := by
  fun_induction S.unstuff next xs with
  | case1 => exact Nat.le_refl 0
  | case2 => exact Nat.le_refl 1
  | case3 b xs ih =>
    simp only [List.length_cons]
    omega
  | case4 a b xs hOrdinary ih =>
    simp only [List.length_cons] at ih ⊢
    omega

theorem Paired.unstuff_eq {xs : List α} (h : S.Paired xs) (next next' : α) :
    S.unstuff next xs = S.unstuff next' xs := by
  fun_induction S.unstuff next xs with
  | case1 => rfl
  | case2 a =>
    have hOrdinary : a ≠ S.esc := h
    rw [if_neg hOrdinary, unstuff_ordinary hOrdinary, unstuff_nil]
  | case3 b xs ih =>
    rw [Paired, if_pos rfl] at h
    rw [unstuff_esc, ih h]
  | case4 a b xs hOrdinary ih =>
    rw [Paired, if_neg hOrdinary] at h
    rw [unstuff_ordinary hOrdinary, ih h]

/-- What an escape at the end stands for depends on the symbol behind the text. -/
theorem paired_of_unstuff_eq {xs : List α} {next next' : α} (hApart : S.unsubst next ≠ S.unsubst next')
    (h : S.unstuff next xs = S.unstuff next' xs) : S.Paired xs := by
  fun_induction S.unstuff next xs with
  | case1 => trivial
  | case2 a =>
    rintro rfl
    rw [unstuff, if_pos rfl, if_pos rfl] at h
    exact hApart (List.singleton_inj.mp h)
  | case3 b xs ih =>
    rw [Paired, if_pos rfl]
    rw [unstuff_esc] at h
    exact ih (List.cons.inj h).2
  | case4 a b xs hOrdinary ih =>
    rw [Paired, if_neg hOrdinary]
    rw [unstuff_ordinary hOrdinary] at h
    exact ih (List.cons.inj h).2

theorem stuffSymbol_append_eq_iff {a c : α} {xs ys : List α} (hOrdinary : a ≠ S.esc) :
    S.stuffSymbol c ++ xs = a :: ys ↔ c = a ∧ S.subst a = none ∧ xs = ys := by
  cases h : S.subst c with
  | none =>
    rw [S.stuffSymbol_ordinary h, List.singleton_append, List.cons.injEq]
    constructor
    · rintro ⟨rfl, rfl⟩
      exact ⟨rfl, h, rfl⟩
    · rintro ⟨rfl, -, rfl⟩
      exact ⟨rfl, rfl⟩
  | some b =>
    rw [S.stuffSymbol_reserved h, List.cons_append, List.cons.injEq]
    constructor
    · rintro ⟨hEsc, -⟩
      exact absurd hEsc.symm hOrdinary
    · rintro ⟨rfl, hNone, -⟩
      rw [hNone] at h
      cases h

theorem stuffSymbol_append_eq_esc_iff {b c : α} {xs ys : List α} :
    S.stuffSymbol c ++ xs = S.esc :: b :: ys ↔ S.subst c = some b ∧ xs = ys := by
  cases h : S.subst c with
  | none =>
    rw [S.stuffSymbol_ordinary h, List.singleton_append, List.cons.injEq]
    constructor
    · rintro ⟨rfl, -⟩
      exact absurd h S.esc_reserved
    · rintro ⟨hSome, -⟩
      cases hSome
  | some b' =>
    rw [S.stuffSymbol_reserved h, List.cons_append, List.singleton_append, List.cons.injEq,
      List.cons.injEq, Option.some.injEq]
    exact and_iff_right rfl

/-- What is decoded gives the text back if it is stuffed, and only then. -/
theorem stuff_unstuff_iff (next : α) (xs : List α) : S.stuff (S.unstuff next xs) = xs ↔ S.Stuffed xs := by
  fun_induction S.unstuff next xs with
  | case1 => exact iff_of_true rfl trivial
  | case2 a =>
    rw [stuff_cons, stuff_nil]
    by_cases hEsc : a = S.esc
    · subst hEsc
      rw [if_pos rfl, Stuffed]
      refine iff_of_false ?_ S.esc_reserved
      cases h : S.subst (S.unsubst next) with
      | none =>
        rw [S.stuffSymbol_ordinary h]
        exact fun hEq => S.ne_esc_of_ordinary h (List.cons.inj hEq).1
      | some b =>
        rw [S.stuffSymbol_reserved h]
        exact fun hEq => List.cons_ne_nil _ _ (List.cons.inj hEq).2
    · rw [if_neg hEsc, stuffSymbol_append_eq_iff hEsc, Stuffed]
      exact ⟨fun h => h.2.1, fun h => ⟨rfl, h, rfl⟩⟩
  | case3 b xs ih =>
    rw [stuff_cons, stuffSymbol_append_eq_esc_iff, Stuffed, if_pos rfl, ih]
  | case4 a b xs hOrdinary ih =>
    rw [stuff_cons, stuffSymbol_append_eq_iff hOrdinary, Stuffed, if_neg hOrdinary, ih]
    exact and_iff_right rfl

end Stuffing

end CMeshApi
