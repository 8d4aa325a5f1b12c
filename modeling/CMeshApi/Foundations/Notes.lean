import CMeshApi.Foundations.Programs

/-!
# Programs that note what they do

Beside the state of a program grows a list of notes. The notes decide nothing: without
them it is the program that they are taken of.
-/

namespace CMeshApi.Programs

universe u v w

variable {σ : Type v} {ε : Type w} {α β : Type u}

/-- The latest note is the last. -/
abbrev Noting (σ : Type v) (ε : Type w) (α : Type u) := Program (σ × List ε) α

namespace Noting

def silently (p : Program σ α) : Noting σ ε α := fun s => ((p s.1).1, (p s.1).2, s.2)

/-- What does not return is not noted. -/
def noting (note : α → ε) (p : Program σ α) : Noting σ ε α := fun s =>
  ((p s.1).1, (p s.1).2, s.2 ++ (p s.1).1.toList.map note)

def note (e : ε) : Noting σ ε PUnit := fun s => (some ⟨⟩, s.1, s.2 ++ [e])

/-- The notes that are taken from a state on. -/
def notes (q : Noting σ ε α) (s : σ) : List ε := (q (s, [])).2.2

theorem notes_of_returns {q : Noting σ ε α} {s t : σ} {a : α} {taken : List ε}
    (h : Returns q (s, []) a (t, taken)) : notes q s = taken := congrArg Prod.snd h.leaves

@[simp] theorem returns_silently {p : Program σ α} {s : σ × List ε} {a : α} {t : σ × List ε} :
    Returns (silently p) s a t ↔ Returns p s.1 a t.1 ∧ t.2 = s.2 := by
  unfold silently Returns
  rw [Prod.mk.injEq, Prod.ext_iff, Prod.ext_iff, ← and_assoc]
  exact and_congr_right fun _ => eq_comm

@[simp] theorem returns_noting {note : α → ε} {p : Program σ α} {s : σ × List ε} {a : α}
    {t : σ × List ε} :
    Returns (noting note p) s a t ↔ Returns p s.1 a t.1 ∧ t.2 = s.2 ++ [note a] := by
  unfold noting Returns
  constructor
  · intro h
    obtain ⟨hAnswer, hState⟩ := Prod.mk.inj h
    rw [hAnswer] at hState
    exact ⟨Prod.ext hAnswer (congrArg Prod.fst hState), (congrArg Prod.snd hState).symm⟩
  · rintro ⟨hReturns, hNotes⟩
    have hAnswer : (p s.1).1 = some a := congrArg Prod.fst hReturns
    have hState : (p s.1).2 = t.1 := congrArg Prod.snd hReturns
    dsimp only
    rw [hAnswer, hState]
    exact Prod.ext rfl (Prod.ext rfl hNotes.symm)

@[simp] theorem returns_note {e : ε} {s : σ × List ε} {a : PUnit} {t : σ × List ε} :
    Returns (note e) s a t ↔ t = (s.1, s.2 ++ [e]) := by
  unfold note Returns
  rw [Prod.mk.injEq]
  exact ⟨fun h => h.2.symm, fun h => ⟨rfl, h.symm⟩⟩

section Moves

variable {r : σ → σ → Prop}

theorem composes_noting (hr : Composes r) : Composes fun s t : σ × List ε => r s.1 t.1 :=
  ⟨fun s => hr.refl s.1, hr.trans⟩

theorem moves_silently {p : Program σ α} (h : Moves r p) :
    Moves (fun s t : σ × List ε => r s.1 t.1) (silently p) := fun s => h s.1

theorem moves_noting {note : α → ε} {p : Program σ α} (h : Moves r p) :
    Moves (fun s t : σ × List ε => r s.1 t.1) (noting note p) := fun s => h s.1

theorem moves_note (hr : Composes r) (e : ε) :
    Moves (fun s t : σ × List ε => r s.1 t.1) (note e) := fun s => hr.refl s.1

end Moves

end Noting

/-- Without its notes, the one program is the other. -/
def Erases (q : Noting σ ε α) (p : Program σ α) : Prop :=
  ∀ s, (q s).1 = (p s.1).1 ∧ (q s).2.1 = (p s.1).2

namespace Erases

open Noting

variable {q : Noting σ ε α} {p : Program σ α}

theorem silently (p : Program σ α) : Erases (silently p : Noting σ ε α) p := fun _ => ⟨rfl, rfl⟩

theorem noting (note : α → ε) (p : Program σ α) : Erases (noting note p) p := fun _ => ⟨rfl, rfl⟩

theorem pure (a : α) : Erases (pure a : Noting σ ε α) (pure a) := fun _ => ⟨rfl, rfl⟩

theorem bind {f : α → Noting σ ε β} {g : α → Program σ β} (h : Erases q p)
    (hRest : ∀ a, Erases (f a) (g a)) : Erases (q >>= f) (p >>= g) := by
  intro s
  obtain ⟨hAnswer, hState⟩ := h s
  cases hq : q s with
  | mk answer t =>
    rw [hq] at hAnswer hState
    have hp : p s.1 = (answer, t.1) := Prod.ext hAnswer.symm hState.symm
    cases answer with
    | none =>
      rw [bind_of_unfinished hq, bind_of_unfinished hp]
      exact ⟨rfl, rfl⟩
    | some a =>
      rw [bind_of_returns hq, bind_of_returns hp]
      exact hRest a t

theorem note_then {e : ε} {f : PUnit → Noting σ ε α} (h : Erases (f ⟨⟩) p) :
    Erases (note e >>= f) p := fun s => h (s.1, s.2 ++ [e])

theorem read_then {f : σ → β} {g : β → Noting σ ε α} (h : ∀ b, Erases (g b) p) :
    Erases (Noting.silently (Program.read f) >>= g) p := fun s => h (f s.1) s

theorem ite {c : Prop} [Decidable c] {q' : Noting σ ε α} {p' : Program σ α} (h : Erases q p)
    (h' : Erases q' p') : Erases (if c then q else q') (if c then p else p') := by
  split
  · exact h
  · exact h'

/-- What the program returns is returned with the notes, from any notes on. -/
theorem returns (h : Erases q p) {s t : σ} {a : α} (hp : Returns p s a t) (before : List ε) :
    ∃ after, Returns q (s, before) a (t, after) := by
  obtain ⟨hAnswer, hState⟩ := h (s, before)
  rw [show p (s, before).1 = (some a, t) from hp] at hAnswer hState
  exact ⟨(q (s, before)).2.2, Prod.ext hAnswer (Prod.ext hState rfl)⟩

theorem moves (h : Erases q p) {r : σ → σ → Prop} (hp : Moves r p) :
    Moves (fun s t : σ × List ε => r s.1 t.1) q := by
  intro s
  rw [(h s).2]
  exact hp s.1

end Erases

end CMeshApi.Programs
