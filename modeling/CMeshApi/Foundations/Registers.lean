import CMeshApi.Foundations.Machine
import CMeshApi.Foundations.Programs
import Mathlib.Data.List.Basic
import Mathlib.Logic.Function.Basic

/-!
# Registers over cells

Values of different types are kept in cells as strings of symbols, and a register reads its
value from its cell. The cells that are owned change by stores only; any others may change at
any time. What is told of a register in a sequence of calls is then what was stored last.
-/

namespace CMeshApi.Registers

open Machine Programs

variable {ρ κ β : Type} {Value : ρ → Type}

abbrev Cells (κ β : Type) := κ → Option (List β)

structure Layout (ρ κ β : Type) (Value : ρ → Type) where
  cell : ρ → κ
  read : (r : ρ) → List β → Option (Value r)

def Layout.view (l : Layout ρ κ β Value) (cells : Cells κ β) (r : ρ) : Option (Value r) :=
  (cells (l.cell r)).bind (l.read r)

theorem view_congr {l : Layout ρ κ β Value} {cells cells' : Cells κ β} {r : ρ}
    (h : cells' (l.cell r) = cells (l.cell r)) : l.view cells' r = l.view cells r :=
  congrArg (fun cell => cell.bind (l.read r)) h

/-- What a call has done. It is not sure to have stored anything when its answer was lost. -/
inductive Entry (Value : ρ → Type) where
  | stored (r : ρ) (v : Value r)
  | told (r : ρ) (v : Value r)
  | unsure (r : ρ)
  | nothing

def Entry.Touches (l : Layout ρ κ β Value) (k : κ) : Entry Value → Prop
  | .stored r _ | .unsure r => l.cell r = k
  | .told _ _ | .nothing => False

def SameOn (owned : κ → Prop) (cells cells' : Cells κ β) : Prop := ∀ k, owned k → cells' k = cells k

theorem SameOn.refl (owned : κ → Prop) (cells : Cells κ β) : SameOn owned cells cells := fun _ _ => rfl

theorem composes_sameOn {σ : Type} (owned : κ → Prop) (cells : σ → Cells κ β) :
    Composes fun s t => SameOn owned (cells s) (cells t) where
  refl s := SameOn.refl owned (cells s)
  trans h h' := fun k hk => (h' k hk).trans (h k hk)

variable [DecidableEq κ]

/-- A call between two contents of the cells. -/
inductive Logs (l : Layout ρ κ β Value) (owned : κ → Prop) (cells : Cells κ β) :
    Entry Value → Cells κ β → Prop where
  | stored {r : ρ} {v : Value r} {symbols : List β} {cells' : Cells κ β} (hRead : l.read r symbols = some v)
      (hSame : SameOn owned (Function.update cells (l.cell r) (some symbols)) cells') :
      Logs l owned cells (.stored r v) cells'
  | told {r : ρ} {v : Value r} {cells' : Cells κ β} (hView : l.view cells r = some v)
      (hSame : SameOn owned cells cells') : Logs l owned cells (.told r v) cells'
  | unsure {r : ρ} {cells' : Cells κ β} (hSame : ∀ k, owned k → k ≠ l.cell r → cells' k = cells k) :
      Logs l owned cells (.unsure r) cells'
  | nothing {cells' : Cells κ β} (hSame : SameOn owned cells cells') : Logs l owned cells .nothing cells'

/-- A sequence of calls. -/
inductive Trace (l : Layout ρ κ β Value) (owned : κ → Prop) :
    Cells κ β → List (Entry Value) → Cells κ β → Prop where
  | nil {cells : Cells κ β} : Trace l owned cells [] cells
  | cons {cells cells' cells'' : Cells κ β} {e : Entry Value} {es : List (Entry Value)}
      (hHead : Logs l owned cells e cells') (hTail : Trace l owned cells' es cells'') :
      Trace l owned cells (e :: es) cells''

section Traces

variable {l : Layout ρ κ β Value} {owned : κ → Prop} {cells cells' cells'' : Cells κ β}
  {e : Entry Value} {es es' : List (Entry Value)} {k : κ} {r : ρ} {v v' : Value r}

theorem trace_cons : Trace l owned cells (e :: es) cells'' ↔
    ∃ cells', Logs l owned cells e cells' ∧ Trace l owned cells' es cells'' := by
  constructor
  · rintro (_ | ⟨hHead, hTail⟩)
    exact ⟨_, hHead, hTail⟩
  · rintro ⟨cells', hHead, hTail⟩
    exact .cons hHead hTail

theorem trace_append : Trace l owned cells (es ++ es') cells'' ↔
    ∃ cells', Trace l owned cells es cells' ∧ Trace l owned cells' es' cells'' := by
  induction es generalizing cells with
  | nil =>
    constructor
    · exact fun h => ⟨cells, .nil, h⟩
    · rintro ⟨cells', ⟨⟩, h⟩
      exact h
  | cons e es ih =>
    simp only [List.cons_append, trace_cons, ih]
    constructor
    · rintro ⟨cells₁, hHead, cells₂, hTail, hRest⟩
      exact ⟨cells₂, ⟨cells₁, hHead, hTail⟩, hRest⟩
    · rintro ⟨cells₂, ⟨cells₁, hHead, hTail⟩, hRest⟩
      exact ⟨cells₁, hHead, cells₂, hTail, hRest⟩

theorem Logs.untouched (h : Logs l owned cells e cells') (hOwned : owned k) (hNot : ¬ e.Touches l k) :
    cells' k = cells k := by
  cases h with
  | stored hRead hSame =>
    rw [hSame k hOwned, Function.update_of_ne]
    rintro rfl
    exact hNot rfl
  | told hView hSame => exact hSame k hOwned
  | unsure hSame =>
    apply hSame k hOwned
    rintro rfl
    exact hNot rfl
  | nothing hSame => exact hSame k hOwned

/-- A cell changes by the calls for its registers only. -/
theorem Trace.untouched (h : Trace l owned cells es cells') (hOwned : owned k)
    (hNone : ∀ e ∈ es, ¬ e.Touches l k) : cells' k = cells k := by
  induction h with
  | nil => rfl
  | cons hHead hTail ih =>
    obtain ⟨hFirst, hRest⟩ := List.forall_mem_cons.mp hNone
    exact (ih hRest).trans (hHead.untouched hOwned hFirst)

/-- Before the first store it is what the register held at the start. -/
theorem told_first (h : Trace l owned cells (es ++ .told r v :: es') cells'') (hOwned : owned (l.cell r))
    (hNone : ∀ e ∈ es, ¬ e.Touches l (l.cell r)) : l.view cells r = some v := by
  obtain ⟨cells', hBefore, hRest⟩ := trace_append.mp h
  obtain ⟨_, hTold, -⟩ := trace_cons.mp hRest
  cases hTold with
  | told hView hSame =>
    rw [← hView]
    exact (view_congr (hBefore.untouched hOwned hNone)).symm

theorem told_last_stored {before mid after : List (Entry Value)}
    (h : Trace l owned cells (before ++ .stored r v :: (mid ++ .told r v' :: after)) cells'')
    (hOwned : owned (l.cell r)) (hNone : ∀ e ∈ mid, ¬ e.Touches l (l.cell r)) : v' = v := by
  obtain ⟨_, -, hRest⟩ := trace_append.mp h
  obtain ⟨cells', hStored, hRest⟩ := trace_cons.mp hRest
  have hTold := told_first hRest hOwned hNone
  cases hStored with
  | stored hRead hSame =>
    rw [Layout.view, hSame _ hOwned, Function.update_self, Option.bind_some, hRead] at hTold
    exact (Option.some.inj hTold).symm

/-- What is told of a register is what was stored last, or what it held at the start. -/
theorem Trace.read_back (h : Trace l owned cells es cells'') (hOwned : owned (l.cell r)) :
    (∀ before mid after v v', es = before ++ .stored r v :: (mid ++ .told r v' :: after) →
      (∀ e ∈ mid, ¬ e.Touches l (l.cell r)) → v' = v) ∧
    (∀ before after v, es = before ++ .told r v :: after →
      (∀ e ∈ before, ¬ e.Touches l (l.cell r)) → l.view cells r = some v) := by
  constructor
  · rintro before mid after v v' rfl hNone
    exact told_last_stored h hOwned hNone
  · rintro before after v rfl hNone
    exact told_first h hOwned hNone

end Traces

section Calls

variable {σ ι : Type} {perform : ι → Program σ (Entry Value)} {l : Layout ρ κ β Value} {owned : κ → Prop}
  {cells : σ → Cells κ β} {s t : σ} {calls : List ι}

/-- A run of calls that return what they have done. -/
theorem trace_journal
    (hLogs : ∀ call s e t, Returns (perform call) s e t → Logs l owned (cells s) e (cells t))
    (hRun : run (fun s call => finish (perform call) s) s calls = some t) :
    Trace l owned (cells s)
      (journal (fun s call => finish (perform call) s) (fun s call => (perform call s).1.toList) s calls)
      (cells t) := by
  induction calls generalizing s with
  | nil =>
    obtain rfl : s = t := Option.some.inj hRun
    exact .nil
  | cons call calls ih =>
    obtain ⟨u, hStep, hRest⟩ := run_cons_eq_some.mp hRun
    obtain ⟨e, hReturns⟩ := finish_eq_some.mp hStep
    have hEntry : (perform call s).1 = some e := congrArg Prod.fst hReturns
    rw [journal, hStep, hEntry]
    exact .cons (hLogs call s e u hReturns) (ih hRest)

end Calls

end CMeshApi.Registers
