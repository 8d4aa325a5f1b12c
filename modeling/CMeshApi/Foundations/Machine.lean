import Mathlib.Data.List.Basic
import Mathlib.Order.Basic

/-!
# Machines driven by events

A machine reads one event at a time and either moves or refuses the event.
Whatever is nondeterministic (a scheduler, a peer, a clock) is part of the event,
so that a run is a list of events and can be evaluated. The rules below carry a
fact about one step to a fact about whole runs, and build runs out of pieces.
-/

namespace CMeshApi.Machine

universe u v w

variable {σ : Type u} {ε : Type v} {ω : Type w}

/-- `none` says that the event cannot happen in the state. -/
abbrev Step (σ : Type u) (ε : Type v) := σ → ε → Option σ

def run (step : Step σ ε) : σ → List ε → Option σ
  | s, [] => some s
  | s, e :: es => (step s e).bind fun t => run step t es

@[simp] theorem run_nil (step : Step σ ε) (s : σ) : run step s [] = some s := rfl

theorem run_cons (step : Step σ ε) (s : σ) (e : ε) (es : List ε) :
    run step s (e :: es) = (step s e).bind fun t => run step t es := rfl

theorem run_cons_eq_some {step : Step σ ε} {s u : σ} {e : ε} {es : List ε} :
    run step s (e :: es) = some u ↔ ∃ t, step s e = some t ∧ run step t es = some u := by
  rw [run_cons, Option.bind_eq_some_iff]

theorem run_append (step : Step σ ε) (s : σ) (es fs : List ε) :
    run step s (es ++ fs) = (run step s es).bind fun t => run step t fs := by
  induction es generalizing s with
  | nil => rfl
  | cons e es ih =>
    rw [List.cons_append, run_cons, run_cons, Option.bind_assoc]
    exact congrArg (Option.bind (step s e)) (funext fun t => ih t)

theorem run_append_eq_some {step : Step σ ε} {s u : σ} {es fs : List ε} :
    run step s (es ++ fs) = some u ↔ ∃ t, run step s es = some t ∧ run step t fs = some u := by
  rw [run_append, Option.bind_eq_some_iff]

/-- Every step of the run meets a condition on the event and the state before it. -/
def Meets (step : Step σ ε) (cond : σ → ε → Prop) : σ → List ε → Prop
  | _, [] => True
  | s, e :: es => cond s e ∧
    match step s e with
    | some t => Meets step cond t es
    | none => True

theorem meets_cons {step : Step σ ε} {cond : σ → ε → Prop} {s t : σ} {e : ε} {es : List ε}
    (hStep : step s e = some t) :
    Meets step cond s (e :: es) ↔ cond s e ∧ Meets step cond t es := by
  rw [Meets, hStep]

instance (step : Step σ ε) (cond : σ → ε → Prop) [∀ s e, Decidable (cond s e)] :
    (s : σ) → (es : List ε) → Decidable (Meets step cond s es)
  | _, [] => isTrue trivial
  | s, e :: es =>
    have : Decidable (match step s e with
        | some t => Meets step cond t es
        | none => True) :=
      match step s e with
      | some t => instDecidableMeets step cond t es
      | none => isTrue trivial
    inferInstanceAs (Decidable (_ ∧ _))

theorem Meets.append {step : Step σ ε} {cond : σ → ε → Prop} {s t : σ} {es fs : List ε}
    (h : Meets step cond s (es ++ fs)) (hRun : run step s es = some t) :
    Meets step cond s es ∧ Meets step cond t fs := by
  induction es generalizing s with
  | nil =>
    obtain rfl : s = t := Option.some.inj hRun
    exact ⟨trivial, h⟩
  | cons e es ih =>
    obtain ⟨u, hStep, hRest⟩ := run_cons_eq_some.mp hRun
    rw [List.cons_append, meets_cons hStep] at h
    obtain ⟨hEs, hFs⟩ := ih h.2 hRest
    exact ⟨(meets_cons hStep).mpr ⟨h.1, hEs⟩, hFs⟩

/-- What every conditioned step preserves, every conditioned run preserves. -/
theorem run_invariant {step : Step σ ε} {cond : σ → ε → Prop} {inv : σ → Prop}
    (hStep : ∀ s e t, inv s → cond s e → step s e = some t → inv t)
    {s t : σ} {es : List ε} (hInv : inv s) (hCond : Meets step cond s es)
    (hRun : run step s es = some t) : inv t := by
  induction es generalizing s with
  | nil => exact Option.some.inj hRun ▸ hInv
  | cons e es ih =>
    obtain ⟨u, hu, hRest⟩ := run_cons_eq_some.mp hRun
    rw [meets_cons hu] at hCond
    exact ih (hStep s e u hInv hCond.1 hu) hCond.2 hRest

theorem run_invariant' {step : Step σ ε} {inv : σ → Prop}
    (hStep : ∀ s e t, inv s → step s e = some t → inv t)
    {s t : σ} {es : List ε} (hInv : inv s) (hRun : run step s es = some t) : inv t := by
  induction es generalizing s with
  | nil => exact Option.some.inj hRun ▸ hInv
  | cons e es ih =>
    obtain ⟨u, hu, hRest⟩ := run_cons_eq_some.mp hRun
    exact ih (hStep s e u hInv hu) hRest

/-- A run is no longer than what each of its steps lowers. -/
theorem run_length_le {step : Step σ ε} {inv : σ → Prop} (measure : σ → Nat)
    (hStep : ∀ s e t, inv s → step s e = some t → inv t)
    (hLower : ∀ s e t, inv s → step s e = some t → measure t < measure s)
    {s t : σ} {es : List ε} (hInv : inv s) (hRun : run step s es = some t) :
    es.length + measure t ≤ measure s := by
  induction es generalizing s with
  | nil =>
    obtain rfl : s = t := Option.some.inj hRun
    exact Nat.le_of_eq (Nat.zero_add _)
  | cons e es ih =>
    obtain ⟨u, hu, hRest⟩ := run_cons_eq_some.mp hRun
    have hTail := ih (hStep s e u hInv hu) hRest
    have hHead := hLower s e u hInv hu
    rw [List.length_cons]
    omega

/-- In the run of `es` from `s`, the event `e` is taken in the state `t`. -/
def Takes (step : Step σ ε) (s : σ) (es : List ε) (t : σ) (e : ε) : Prop :=
  ∃ before after, es = before ++ e :: after ∧ run step s before = some t

theorem Takes.mem {step : Step σ ε} {s t : σ} {e : ε} {es : List ε} (h : Takes step s es t e) :
    e ∈ es := by
  obtain ⟨before, after, rfl, -⟩ := h
  exact List.mem_append_right before List.mem_cons_self

theorem Takes.accepted {step : Step σ ε} {s t u : σ} {e : ε} {es : List ε}
    (h : Takes step s es t e) (hRun : run step s es = some u) : ∃ v, step t e = some v := by
  obtain ⟨before, after, rfl, hBefore⟩ := h
  obtain ⟨t', ht', hRest⟩ := run_append_eq_some.mp hRun
  obtain rfl : t = t' := Option.some.inj (hBefore.symm.trans ht')
  obtain ⟨v, hStep, -⟩ := run_cons_eq_some.mp hRest
  exact ⟨v, hStep⟩

theorem takes_cons {step : Step σ ε} {s t u : σ} {e f : ε} {es : List ε} (hStep : step s e = some u)
    (h : Takes step u es t f) : Takes step s (e :: es) t f := by
  obtain ⟨before, after, rfl, hRun⟩ := h
  exact ⟨e :: before, after, rfl, run_cons_eq_some.mpr ⟨u, hStep, hRun⟩⟩

theorem meets_iff_takes {step : Step σ ε} {cond : σ → ε → Prop} {s : σ} {es : List ε} :
    Meets step cond s es ↔ ∀ t e, Takes step s es t e → cond t e := by
  constructor
  · rintro h t e ⟨before, after, rfl, hRun⟩
    exact (h.append hRun).2.1
  · intro h
    induction es generalizing s with
    | nil => trivial
    | cons e es ih =>
      refine ⟨h s e ⟨[], es, rfl, rfl⟩, ?_⟩
      cases hStep : step s e with
      | none => trivial
      | some u => exact ih fun t f hTakes => h t f (takes_cons hStep hTakes)

/-- A step taken in a conditioned run is taken in a state that keeps the invariant,
and it meets the condition there. -/
theorem Takes.invariant {step : Step σ ε} {cond : σ → ε → Prop} {inv : σ → Prop}
    (hStep : ∀ s e t, inv s → cond s e → step s e = some t → inv t)
    {s t : σ} {es : List ε} {e : ε} (hTakes : Takes step s es t e) (hInv : inv s)
    (hCond : Meets step cond s es) : inv t ∧ cond t e := by
  obtain ⟨before, after, rfl, hRun⟩ := hTakes
  obtain ⟨hBefore, hAfter⟩ := hCond.append hRun
  exact ⟨run_invariant hStep hInv hBefore hRun, hAfter.1⟩

theorem Takes.invariant' {step : Step σ ε} {inv : σ → Prop}
    (hStep : ∀ s e t, inv s → step s e = some t → inv t)
    {s t : σ} {es : List ε} {e : ε} (hTakes : Takes step s es t e) (hInv : inv s) : inv t := by
  obtain ⟨before, after, rfl, hRun⟩ := hTakes
  exact run_invariant' hStep hInv hRun

/-- Some continuation from the state ends in a state with the property. -/
def CanReach (step : Step σ ε) (goal : σ → Prop) (s : σ) : Prop :=
  ∃ es t, run step s es = some t ∧ goal t

theorem CanReach.here {step : Step σ ε} {goal : σ → Prop} {s : σ} (h : goal s) :
    CanReach step goal s := ⟨[], s, rfl, h⟩

theorem CanReach.run {step : Step σ ε} {goal : σ → Prop} {s t : σ} {es : List ε}
    (hRun : run step s es = some t) (h : CanReach step goal t) : CanReach step goal s := by
  obtain ⟨fs, u, hu, hGoal⟩ := h
  exact ⟨es ++ fs, u, run_append_eq_some.mpr ⟨t, hRun, hu⟩, hGoal⟩

theorem CanReach.step {step : Step σ ε} {goal : σ → Prop} {s t : σ} {e : ε}
    (hStep : step s e = some t) (h : CanReach step goal t) : CanReach step goal s :=
  CanReach.run (show Machine.run step s [e] = some t from run_cons_eq_some.mpr ⟨t, hStep, rfl⟩) h

theorem CanReach.trans {step : Step σ ε} {mid goal : σ → Prop} {s : σ}
    (h : CanReach step mid s) (hMid : ∀ t, mid t → CanReach step goal t) :
    CanReach step goal s := by
  obtain ⟨es, t, hRun, ht⟩ := h
  exact CanReach.run hRun (hMid t ht)

theorem CanReach.mono {step : Step σ ε} {goal goal' : σ → Prop} {s : σ}
    (h : CanReach step goal s) (hGoal : ∀ t, goal t → goal' t) : CanReach step goal' s :=
  h.trans fun t ht => .here (hGoal t ht)

/-- A measure that some continuation always lowers, short of the goal, reaches the goal. -/
theorem canReach_of_measure {step : Step σ ε} {goal inv : σ → Prop} (measure : σ → Nat)
    (hDown : ∀ s, inv s → ¬ goal s →
      CanReach step (fun t => goal t ∨ (inv t ∧ measure t < measure s)) s)
    (s : σ) (hInv : inv s) : CanReach step goal s := by
  by_cases hGoal : goal s
  · exact .here hGoal
  · refine (hDown s hInv hGoal).trans fun t ht => ?_
    rcases ht with hThere | ⟨hNext, hLess⟩
    · exact .here hThere
    · exact canReach_of_measure measure hDown t hNext
termination_by measure s

/-- A property that every step keeps, and that excludes the goal, keeps it out of reach. -/
theorem not_canReach_of_trap {step : Step σ ε} {goal trap : σ → Prop}
    (hStep : ∀ s e t, trap s → step s e = some t → trap t)
    (hApart : ∀ s, trap s → ¬ goal s) {s : σ} (hTrap : trap s) : ¬ CanReach step goal s := by
  rintro ⟨es, t, hRun, hGoal⟩
  exact hApart t (run_invariant' hStep hTrap hRun) hGoal

/-- What is noted of the steps of a run, in order. -/
def journal (step : Step σ ε) (note : σ → ε → List ω) : σ → List ε → List ω
  | _, [] => []
  | s, e :: es =>
    match step s e with
    | some t => note s e ++ journal step note t es
    | none => []

theorem journal_append {step : Step σ ε} {note : σ → ε → List ω} {s t : σ} {es : List ε}
    (fs : List ε) (hRun : run step s es = some t) :
    journal step note s (es ++ fs) = journal step note s es ++ journal step note t fs := by
  induction es generalizing s with
  | nil =>
    obtain rfl : s = t := Option.some.inj hRun
    rfl
  | cons e es ih =>
    obtain ⟨u, hu, hRest⟩ := run_cons_eq_some.mp hRun
    rw [List.cons_append, journal, journal, hu]
    exact (congrArg (note s e ++ ·) (ih hRest)).trans (List.append_assoc _ _ _).symm

/-- The journal of a run that goes one step further. -/
theorem journal_concat {step : Step σ ε} {note : σ → ε → List ω} {s t u : σ} {es : List ε} {e : ε}
    (hRun : run step s es = some t) (hStep : step t e = some u) :
    journal step note s (es ++ [e]) = journal step note s es ++ note t e := by
  rw [journal_append [e] hRun, journal, hStep]
  exact congrArg (journal step note s es ++ ·) (List.append_nil _)

theorem forall_mem_journal {step : Step σ ε} {note : σ → ε → List ω} {prop : ω → Prop} {s : σ} {es : List ε}
    (h : ∀ t, ∀ e ∈ es, ∀ x ∈ note t e, prop x) : ∀ x ∈ journal step note s es, prop x := by
  induction es generalizing s with
  | nil => rintro x ⟨⟩
  | cons e es ih =>
    rw [journal]
    cases step s e with
    | none => rintro x ⟨⟩
    | some t =>
      simp only [List.mem_append]
      rintro x (hx | hx)
      · exact h s e List.mem_cons_self x hx
      · exact ih (fun u f hf => h u f (List.mem_cons_of_mem e hf)) x hx

theorem run_concat_eq_some {step : Step σ ε} {s u : σ} {es : List ε} {e : ε} :
    run step s (es ++ [e]) = some u ↔ ∃ t, run step s es = some t ∧ step t e = some u := by
  rw [run_append_eq_some]
  refine exists_congr fun t => and_congr_right fun _ => ?_
  rw [run_cons, Option.bind_eq_some_iff]
  exact ⟨fun ⟨v, hv, hEnd⟩ => (Option.some.inj hEnd) ▸ hv, fun h => ⟨u, h, rfl⟩⟩

/-- The answers that a total machine gives to those inputs that ask for one. -/
def answersTo (respond : σ → ε → σ × ω) (asks : ε → Bool) : σ → List ε → List ω
  | _, [] => []
  | s, e :: es =>
    if asks e then (respond s e).2 :: answersTo respond asks (respond s e).1 es
    else answersTo respond asks (respond s e).1 es

/-- Every answer is one to an input, in some state. -/
theorem mem_answersTo {respond : σ → ε → σ × ω} {asks : ε → Bool} {s : σ} {es : List ε} {x : ω}
    (h : x ∈ answersTo respond asks s es) : ∃ e ∈ es, ∃ t, asks e = true ∧ (respond t e).2 = x := by
  induction es generalizing s with
  | nil => cases h
  | cons e es ih =>
    rw [answersTo] at h
    split at h
    · next hAsks =>
      rcases List.mem_cons.mp h with rfl | hRest
      · exact ⟨e, List.mem_cons_self, s, hAsks, rfl⟩
      · obtain ⟨f, hf, found⟩ := ih hRest
        exact ⟨f, List.mem_cons_of_mem e hf, found⟩
    · obtain ⟨f, hf, found⟩ := ih h
      exact ⟨f, List.mem_cons_of_mem e hf, found⟩

end CMeshApi.Machine
