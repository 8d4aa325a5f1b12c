import CMeshApi.Foundations.Machine
import Mathlib.Logic.Function.Basic

/-!
# Threads that share a state under a lock

Any number of threads run over a state that they share, in any interleaving of their steps.
A thread enters its section by taking the lock and leaves it by giving the lock back, and it
touches the shared state in the section only. So one section follows the other, and a machine
that simulates the sections simulates the threads.
-/

namespace CMeshApi.Guarded

open Machine

variable {ι σ τ ε η α β : Type}

/-- What each thread runs, with the state `τ` that it keeps for itself. -/
structure Code (ι σ τ ε : Type) where
  inside : τ → Bool
  step : ι → σ → τ → ε → Option (σ × τ)
  /-- The steps outside of the section, and those that enter and leave it, touch nothing. -/
  untouched : ∀ {i s t e s' t'}, step i s t e = some (s', t') → (inside t && inside t') = false → s' = s

structure State (ι σ τ : Type) where
  shared : σ
  owner : Option ι
  threads : ι → τ

inductive Event (ι ε η : Type) where
  | thread (i : ι) (e : ε)
  /-- The shared state also changes by itself. -/
  | other (e : η)

/-- The thread in its section, if there is one. -/
def State.current (s : State ι σ τ) : Option (ι × τ) := s.owner.map fun i => (i, s.threads i)

variable (code : Code ι σ τ ε) (other : Step σ η)

/-- The lock is looked at where the section is entered, and nowhere else. -/
def step [DecidableEq ι] : Step (State ι σ τ) (Event ι ε η)
  | s, .thread i e =>
    (code.step i s.shared (s.threads i) e).bind fun (shared, t) =>
      match code.inside (s.threads i), code.inside t with
      | false, true =>
        if s.owner.isNone then some ⟨shared, some i, Function.update s.threads i t⟩ else none
      | true, false => some ⟨shared, none, Function.update s.threads i t⟩
      | _, _ => some ⟨shared, s.owner, Function.update s.threads i t⟩
  | s, .other e => (other s.shared e).map fun shared => { s with shared }

def Exclusive (s : State ι σ τ) : Prop := ∀ i, code.inside (s.threads i) = true ↔ s.owner = some i

/-- The machine follows the section that some thread is in, and what a thread knows outside of it
lasts while the others go on. -/
structure Simulates (machine : Step α β) (sim : Option (ι × τ) → σ → α → Prop)
    (knows : ι → τ → σ → Prop) : Prop where
  enter : ∀ {i s t e t' a}, code.inside t = false → code.inside t' = true →
    code.step i s t e = some (s, t') → sim none s a → knows i t s → sim (some (i, t')) s a
  work : ∀ {i s t e s' t' a}, code.inside t = true → code.inside t' = true →
    code.step i s t e = some (s', t') → sim (some (i, t)) s a →
      ∃ as a', run machine a as = some a' ∧ sim (some (i, t')) s' a'
  leave : ∀ {i s t e t' a}, code.inside t = true → code.inside t' = false →
    code.step i s t e = some (s, t') → sim (some (i, t)) s a → sim none s a ∧ knows i t' s
  wait : ∀ {i s t e t'}, code.inside t = false → code.inside t' = false →
    code.step i s t e = some (s, t') → knows i t s → knows i t' s
  change : ∀ {c s e s' a}, other s e = some s' → sim c s a →
    ∃ as a', run machine a as = some a' ∧ sim c s' a'
  lasts : ∀ {i s t e s' t'}, code.step i s t e = some (s', t') → ∀ {j u}, knows j u s → knows j u s'
  lastsChange : ∀ {s e s'}, other s e = some s' → ∀ {j u}, knows j u s → knows j u s'

/-- What a run keeps, for the state that the machine is in. -/
structure Keeps (sim : Option (ι × τ) → σ → α → Prop) (knows : ι → τ → σ → Prop)
    (s : State ι σ τ) (a : α) : Prop where
  exclusive : Exclusive code s
  sim : sim s.current s.shared a
  knows : ∀ i, code.inside (s.threads i) = false → knows i (s.threads i) s.shared

variable {code} {other} {s s' : State ι σ τ}

theorem current_of_free (h : s.owner = none) : s.current = none := by
  rw [State.current, h, Option.map_none]

theorem current_of_owner {i : ι} (h : s.owner = some i) : s.current = some (i, s.threads i) := by
  rw [State.current, h, Option.map_some]

/-- Two threads are never in their sections at once. -/
theorem Exclusive.unique {i j : ι} (h : Exclusive code s) (hi : code.inside (s.threads i) = true)
    (hj : code.inside (s.threads j) = true) : i = j :=
  Option.some.inj (((h i).mp hi).symm.trans ((h j).mp hj))

theorem Exclusive.outside {i j : ι} (h : Exclusive code s) (hOwner : s.owner = some i) (hNe : j ≠ i) :
    code.inside (s.threads j) = false := by
  cases hInside : code.inside (s.threads j) with
  | false => rfl
  | true => exact absurd (h.unique hInside ((h i).mpr hOwner)) hNe

variable [DecidableEq ι]

theorem step_thread {i : ι} {e : ε} (h : step code other s (.thread i e) = some s') :
    ∃ t, code.step i s.shared (s.threads i) e = some (s'.shared, t) ∧
      s'.threads = Function.update s.threads i t ∧
      (code.inside (s.threads i) = false ∧ code.inside t = true ∧ s.owner = none ∧ s'.owner = some i ∨
        code.inside (s.threads i) = true ∧ code.inside t = false ∧ s'.owner = none ∨
        code.inside (s.threads i) = code.inside t ∧ s'.owner = s.owner) := by
  obtain ⟨⟨shared, t⟩, hStep, hRest⟩ := Option.bind_eq_some_iff.mp h
  dsimp only at hRest
  cases hBefore : code.inside (s.threads i) <;> cases hAfter : code.inside t <;>
    rw [hBefore, hAfter] at hRest
  · cases hRest
    exact ⟨t, hStep, rfl, .inr (.inr ⟨hAfter.symm, rfl⟩)⟩
  · obtain ⟨hFree, hSame⟩ := Option.ite_none_right_eq_some.mp hRest
    cases hSame
    exact ⟨t, hStep, rfl, .inl ⟨rfl, hAfter, Option.isNone_iff_eq_none.mp hFree, rfl⟩⟩
  · cases hRest
    exact ⟨t, hStep, rfl, .inr (.inl ⟨rfl, hAfter, rfl⟩)⟩
  · cases hRest
    exact ⟨t, hStep, rfl, .inr (.inr ⟨hAfter.symm, rfl⟩)⟩

theorem step_other {e : η} (h : step code other s (.other e : Event ι ε η) = some s') :
    other s.shared e = some s'.shared ∧ s'.owner = s.owner ∧ s'.threads = s.threads := by
  obtain ⟨shared, hChange, rfl⟩ := Option.map_eq_some_iff.mp h
  exact ⟨hChange, rfl, rfl⟩

section Simulation

variable {machine : Step α β} {sim : Option (ι × τ) → σ → α → Prop} {knows : ι → τ → σ → Prop} {a : α}

theorem Exclusive.step_thread {i : ι} {t : τ} (h : Exclusive code s)
    (hThreads : s'.threads = Function.update s.threads i t)
    (hOwner : code.inside (s.threads i) = false ∧ code.inside t = true ∧ s.owner = none ∧ s'.owner = some i ∨
      code.inside (s.threads i) = true ∧ code.inside t = false ∧ s'.owner = none ∨
      code.inside (s.threads i) = code.inside t ∧ s'.owner = s.owner) : Exclusive code s' := by
  intro j
  have hOf := h j
  rw [hThreads]
  obtain rfl | hNe := eq_or_ne j i
  · rw [Function.update_self]
    obtain ⟨-, hIn, -, hNew⟩ | ⟨-, hOut, hNew⟩ | ⟨hSame, hNew⟩ := hOwner
    · simp [hIn, hNew]
    · simp [hOut, hNew]
    · rw [← hSame, hNew]
      exact hOf
  · rw [Function.update_of_ne hNe]
    obtain ⟨-, -, hFree, hNew⟩ | ⟨hIn, -, hNew⟩ | ⟨-, hNew⟩ := hOwner
    · rw [hOf, hFree, hNew]
      simp [Ne.symm hNe]
    · rw [hOf, (h i).mp hIn, hNew]
      simp [Ne.symm hNe]
    · rw [hNew]
      exact hOf

/-- The other threads know what they knew. -/
theorem Simulates.knows_thread {i : ι} {t : τ} {e : ε} (h : Simulates code other machine sim knows)
    (hKnows : ∀ j, code.inside (s.threads j) = false → knows j (s.threads j) s.shared)
    (hStep : code.step i s.shared (s.threads i) e = some (s'.shared, t))
    (hThreads : s'.threads = Function.update s.threads i t)
    (hOwn : code.inside t = false → knows i t s'.shared) (j : ι)
    (hOutside : code.inside (s'.threads j) = false) : knows j (s'.threads j) s'.shared := by
  rw [hThreads] at hOutside ⊢
  obtain rfl | hNe := eq_or_ne j i
  · rw [Function.update_self] at hOutside ⊢
    exact hOwn hOutside
  · rw [Function.update_of_ne hNe] at hOutside ⊢
    exact h.lasts hStep (hKnows j hOutside)

theorem Simulates.step_thread {i : ι} {e : ε} (h : Simulates code other machine sim knows)
    (hKeeps : Keeps code sim knows s a) (hStep : step code other s (.thread i e) = some s') :
    ∃ as a', run machine a as = some a' ∧ Keeps code sim knows s' a' := by
  obtain ⟨t, hCode, hThreads, hOwner⟩ := Guarded.step_thread hStep
  have hExclusive := hKeeps.exclusive.step_thread hThreads hOwner
  have hSelf : s'.threads i = t := by rw [hThreads, Function.update_self]
  have hOthers := fun hOwn => h.knows_thread hKeeps.knows hCode hThreads hOwn
  have hSim := hKeeps.sim
  obtain ⟨hOut, hIn, hFree, hNew⟩ | ⟨hIn, hOut, hNew⟩ | ⟨hSame, hNew⟩ := hOwner
  · have hShared := code.untouched hCode (by rw [hOut, Bool.false_and])
    rw [current_of_free hFree] at hSim
    rw [hShared] at hCode
    refine ⟨[], a, rfl, hExclusive, ?_, hOthers fun hOut' => absurd hIn (by simp [hOut'])⟩
    rw [current_of_owner hNew, hSelf, hShared]
    exact h.enter hOut hIn hCode hSim (hKeeps.knows i hOut)
  · have hShared := code.untouched hCode (by rw [hOut, Bool.and_false])
    rw [current_of_owner ((hKeeps.exclusive i).mp hIn)] at hSim
    have hLeft := h.leave hIn hOut (hShared ▸ hCode) hSim
    refine ⟨[], a, rfl, hExclusive, ?_, hOthers fun _ => hShared ▸ hLeft.2⟩
    rw [current_of_free hNew, hShared]
    exact hLeft.1
  · cases hIn : code.inside t with
    | true =>
      rw [hIn] at hSame
      have hOwned := (hKeeps.exclusive i).mp hSame
      rw [current_of_owner hOwned] at hSim
      obtain ⟨as, a', hRun, hSim'⟩ := h.work hSame hIn hCode hSim
      refine ⟨as, a', hRun, hExclusive, ?_, hOthers fun hOut => absurd hIn (by simp [hOut])⟩
      rw [current_of_owner (hNew.trans hOwned), hSelf]
      exact hSim'
    | false =>
      rw [hIn] at hSame
      have hShared := code.untouched hCode (by rw [hIn, Bool.and_false])
      have hNot : s.owner ≠ some i := fun hOwned => absurd ((hKeeps.exclusive i).mpr hOwned) (by simp [hSame])
      refine ⟨[], a, rfl, hExclusive, ?_,
        hOthers fun _ => hShared ▸ h.wait hSame hIn (hShared ▸ hCode) (hKeeps.knows i hSame)⟩
      have hCurrent : s'.current = s.current := by
        rw [State.current, State.current, hNew]
        refine Option.map_congr fun j hj => ?_
        rw [hThreads, Function.update_of_ne]
        rintro rfl
        exact hNot hj
      rw [hCurrent, hShared]
      exact hSim

theorem Simulates.step_other {e : η} (h : Simulates code other machine sim knows)
    (hKeeps : Keeps code sim knows s a)
    (hStep : step code other s (.other e : Event ι ε η) = some s') :
    ∃ as a', run machine a as = some a' ∧ Keeps code sim knows s' a' := by
  obtain ⟨hChange, hOwner, hThreads⟩ := Guarded.step_other hStep
  obtain ⟨as, a', hRun, hSim⟩ := h.change hChange hKeeps.sim
  refine ⟨as, a', hRun, ?_, ?_, ?_⟩
  · intro i
    rw [hOwner, hThreads]
    exact hKeeps.exclusive i
  · rw [State.current, hOwner, hThreads]
    exact hSim
  · intro i hOutside
    rw [hThreads] at hOutside ⊢
    exact h.lastsChange hChange (hKeeps.knows i hOutside)

/-- Whatever the interleaving, the threads do what the machine can do. -/
theorem Simulates.run (h : Simulates code other machine sim knows) (hKeeps : Keeps code sim knows s a)
    {es : List (Event ι ε η)} (hRun : Machine.run (step code other) s es = some s') :
    ∃ as a', Machine.run machine a as = some a' ∧ Keeps code sim knows s' a' := by
  induction es generalizing s a with
  | nil =>
    obtain rfl := Option.some.inj hRun
    exact ⟨[], a, rfl, hKeeps⟩
  | cons e es ih =>
    obtain ⟨t, hStep, hRest⟩ := run_cons_eq_some.mp hRun
    obtain ⟨as, b, hFirst, hKeeps'⟩ : ∃ as a', Machine.run machine a as = some a' ∧
        Keeps code sim knows t a' := by
      cases e with
      | thread i e => exact h.step_thread hKeeps hStep
      | other e => exact h.step_other hKeeps hStep
    obtain ⟨as', a', hLater, hLast⟩ := ih hKeeps' hRest
    exact ⟨as ++ as', a', run_append_eq_some.mpr ⟨b, hFirst, hLater⟩, hLast⟩

end Simulation

end CMeshApi.Guarded
