import Mathlib.Data.List.Basic

/-!
# Linked lists over pointers

A linked list is described by the function that reads the links of an element and by
the list of its elements. A doubly linked segment has both its ends as arguments, so
that a list can be cut anywhere; what an insertion or a removal does to the links of
two neighbours is then one lemma for each end.
-/

namespace CMeshApi.Chains

universe u

variable {P : Type u}

/-- The pointers of an element to its two neighbours. -/
structure Links (P : Type u) where
  prev : Option P
  next : Option P
deriving DecidableEq, Repr

/-- The elements `ps`, doubly linked from `first` to `last`; `before` precedes the first of them
and `after` follows the last. -/
def Double (links : P → Option (Links P)) :
    Option P → Option P → List P → Option P → Option P → Prop
  | before, first, [], last, after => first = after ∧ last = before
  | before, first, p :: ps, last, after =>
    first = some p ∧ ∃ next, links p = some ⟨before, next⟩ ∧ Double links (some p) next ps last after

/-- The elements `ps`, linked in one direction from `first`. -/
def Single (next : P → Option (Option P)) : Option P → List P → Prop
  | first, [] => first = none
  | first, p :: ps => first = some p ∧ ∃ n, next p = some n ∧ Single next n ps

section Double

variable {links links' : P → Option (Links P)} {before before' first last last' after after' : Option P}
  {ps qs : List P} {p : P}

theorem double_append :
    Double links before first (ps ++ qs) last after ↔
      ∃ mid midLast, Double links before first ps midLast mid ∧
        Double links midLast mid qs last after := by
  induction ps generalizing before first with
  | nil =>
    constructor
    · intro h
      exact ⟨first, before, ⟨rfl, rfl⟩, h⟩
    · rintro ⟨mid, midLast, ⟨rfl, rfl⟩, h⟩
      exact h
  | cons p ps ih =>
    constructor
    · rintro ⟨hFirst, next, hLinks, hRest⟩
      obtain ⟨mid, midLast, hFront, hBack⟩ := ih.mp hRest
      exact ⟨mid, midLast, ⟨hFirst, next, hLinks, hFront⟩, hBack⟩
    · rintro ⟨mid, midLast, ⟨hFirst, next, hLinks, hFront⟩, hBack⟩
      exact ⟨hFirst, next, hLinks, ih.mpr ⟨mid, midLast, hFront, hBack⟩⟩

/-- Only the links of the elements themselves matter. -/
theorem Double.congr (h : Double links before first ps last after)
    (hSame : ∀ p ∈ ps, links' p = links p) : Double links' before first ps last after := by
  induction ps generalizing before first with
  | nil => exact h
  | cons p ps ih =>
    obtain ⟨hFirst, next, hLinks, hRest⟩ := h
    refine ⟨hFirst, next, (hSame p List.mem_cons_self).trans hLinks, ih hRest fun q hq => ?_⟩
    exact hSame q (List.mem_cons_of_mem _ hq)

theorem Double.first_mem (h : Double links before first ps last none) (hFirst : first = some p) :
    p ∈ ps := by
  cases ps with
  | nil =>
    rw [h.1] at hFirst
    cases hFirst
  | cons q ps =>
    rw [h.1] at hFirst
    cases hFirst
    exact List.mem_cons_self

theorem Double.last_mem (h : Double links before first ps last after) (hSome : ps ≠ []) :
    ∃ p ∈ ps, last = some p := by
  induction ps generalizing before first with
  | nil => exact absurd rfl hSome
  | cons p ps ih =>
    obtain ⟨-, next, -, hRest⟩ := h
    cases ps with
    | nil => exact ⟨p, List.mem_cons_self, hRest.2⟩
    | cons q ps =>
      obtain ⟨r, hr, hLast⟩ := ih hRest (List.cons_ne_nil q ps)
      exact ⟨r, List.mem_cons_of_mem _ hr, hLast⟩

theorem Double.allocated (h : Double links before first ps last after) (hMem : p ∈ ps) :
    ∃ k, links p = some k := by
  induction ps generalizing before first with
  | nil => cases hMem
  | cons q ps ih =>
    obtain ⟨-, next, hLinks, hRest⟩ := h
    rcases List.mem_cons.mp hMem with rfl | hMem
    · exact ⟨_, hLinks⟩
    · exact ih hRest hMem

theorem Double.first_eq (h : Double links before first ps last none) : first = ps.head? := by
  cases ps with
  | nil => exact h.1
  | cons p ps => exact h.1

/-- What follows an element in the list. -/
theorem Double.next_eq {prev next : Option P} (h : Double links before first (ps ++ p :: qs) last none)
    (hLinks : links p = some ⟨prev, next⟩) : next = qs.head? := by
  obtain ⟨mid, midLast, -, -, next', hSelf, hBack⟩ := double_append.mp h
  rw [hLinks] at hSelf
  cases hSelf
  exact hBack.first_eq

theorem Double.first_eq_none (h : Double links before first ps last none) : first = none ↔ ps = [] := by
  cases ps with
  | nil => simp [h.1]
  | cons p ps => simp [h.1]

/-- The next-pointer of the last element is changed. -/
theorem Double.relinkNext (h : Double links before first ps last after) (hNodup : ps.Nodup)
    (hLast : ∀ q k, last = some q → q ∈ ps → links q = some k →
      links' q = some { k with next := after' })
    (hOther : ∀ q ∈ ps, last ≠ some q → links' q = links q) :
    Double links' before (if ps = [] then after' else first) ps last after' := by
  induction ps generalizing before first with
  | nil => exact ⟨if_pos rfl, h.2⟩
  | cons p ps ih =>
    obtain ⟨hFirst, next, hLinks, hRest⟩ := h
    rw [List.nodup_cons] at hNodup
    rw [if_neg (List.cons_ne_nil p ps)]
    refine ⟨hFirst, if ps = [] then after' else next, ?_, ih hRest hNodup.2
      (fun q k hq hMem => hLast q k hq (List.mem_cons_of_mem _ hMem))
      (fun q hq => hOther q (List.mem_cons_of_mem _ hq))⟩
    by_cases hEnd : ps = []
    · subst hEnd
      exact hLast p _ hRest.2 List.mem_cons_self hLinks
    · obtain ⟨q, hq, hEq⟩ := hRest.last_mem hEnd
      rw [if_neg hEnd, hOther p List.mem_cons_self ?_, hLinks]
      rw [hEq]
      intro hSame
      cases hSame
      exact hNodup.1 hq

/-- The prev-pointer of the first element is changed. -/
theorem Double.relinkPrev (h : Double links before first ps last after) (hNodup : ps.Nodup)
    (hFirst : ∀ q k, first = some q → q ∈ ps → links q = some k →
      links' q = some { k with prev := before' })
    (hOther : ∀ q ∈ ps, first ≠ some q → links' q = links q) :
    Double links' before' first ps (if ps = [] then before' else last) after := by
  cases ps with
  | nil => exact ⟨h.1, if_pos rfl⟩
  | cons p ps =>
    obtain ⟨hHead, next, hLinks, hRest⟩ := h
    rw [List.nodup_cons] at hNodup
    rw [if_neg (List.cons_ne_nil p ps)]
    refine ⟨hHead, next, hFirst p _ hHead List.mem_cons_self hLinks, hRest.congr fun q hq => ?_⟩
    apply hOther q (List.mem_cons_of_mem _ hq)
    rw [hHead]
    intro hSame
    cases hSame
    exact hNodup.1 hq

theorem Double.pushFront (h : Double links none first ps last none) (hNodup : ps.Nodup)
    (hNew : links' p = some ⟨none, first⟩)
    (hFirst : ∀ q k, first = some q → links q = some k → links' q = some { k with prev := some p })
    (hOther : ∀ q ∈ ps, first ≠ some q → links' q = links q) :
    Double links' none (some p) (p :: ps) (if ps = [] then some p else last) none :=
  ⟨rfl, first, hNew, h.relinkPrev hNodup (fun q k hq _ => hFirst q k hq) hOther⟩

theorem Double.pushBack (h : Double links none first ps last none) (hNodup : ps.Nodup)
    (hNew : links' p = some ⟨last, none⟩)
    (hLast : ∀ q k, last = some q → q ∈ ps → links q = some k →
      links' q = some { k with next := some p })
    (hOther : ∀ q ∈ ps, last ≠ some q → links' q = links q) :
    Double links' none (if ps = [] then some p else first) (ps ++ [p]) (some p) none :=
  double_append.mpr ⟨some p, last, h.relinkNext hNodup hLast hOther, rfl, none, hNew, rfl, rfl⟩

theorem Double.single (h : Double links before first ps last none) :
    Single (fun p => (links p).map Links.next) first ps := by
  induction ps generalizing before first with
  | nil => exact h.1
  | cons p ps ih =>
    obtain ⟨hFirst, next, hLinks, hRest⟩ := h
    exact ⟨hFirst, next, by simp [hLinks], ih hRest⟩

/-- Where the neighbours of an element are. -/
structure Neighbours (first last : Option P) (ps : List P) (p : P) (qs : List P) (prev next : Option P) :
    Prop where
  prev_none : prev = none ↔ ps = []
  prev_mem : ∀ q, prev = some q → q ∈ ps
  next_none : next = none ↔ qs = []
  next_mem : ∀ q, next = some q → q ∈ qs
  first_iff : first = some p ↔ prev = none
  last_iff : last = some p ↔ next = none

theorem Double.neighbours {prev next : Option P}
    (h : Double links none first (ps ++ p :: qs) last none) (hNodup : (ps ++ p :: qs).Nodup)
    (hLinks : links p = some ⟨prev, next⟩) : Neighbours first last ps p qs prev next := by
  obtain ⟨mid, midLast, hFront, rfl, next', hSelf, hBack⟩ := double_append.mp h
  rw [hLinks] at hSelf
  cases hSelf
  rw [List.nodup_append, List.nodup_cons] at hNodup
  obtain ⟨-, ⟨hNotBack, -⟩, hApart⟩ := hNodup
  have hPrevNone : prev = none ↔ ps = [] := by
    constructor
    · intro hNone
      by_contra hSome
      obtain ⟨r, -, hEq⟩ := hFront.last_mem hSome
      rw [hNone] at hEq
      cases hEq
    · rintro rfl
      exact hFront.2
  have hNextNone : next = none ↔ qs = [] := hBack.first_eq_none
  refine ⟨hPrevNone, fun q hq => ?_, hNextNone, fun q hq => hBack.first_mem hq, ?_, ?_⟩
  · by_cases hEmpty : ps = []
    · rw [hPrevNone.mpr hEmpty] at hq
      cases hq
    · obtain ⟨r, hr, hEq⟩ := hFront.last_mem hEmpty
      rw [hq] at hEq
      cases hEq
      exact hr
  · rw [hPrevNone]
    constructor
    · intro hFirst
      cases ps with
      | nil => rfl
      | cons q ps =>
        rw [hFront.1] at hFirst
        cases hFirst
        exact (hApart p List.mem_cons_self p List.mem_cons_self rfl).elim
    · rintro rfl
      exact hFront.1
  · rw [hNextNone]
    constructor
    · intro hLast
      by_contra hSome
      obtain ⟨r, hr, hEq⟩ := hBack.last_mem hSome
      rw [hLast] at hEq
      cases hEq
      exact hNotBack hr
    · rintro rfl
      exact hBack.2

variable [DecidableEq P]

/-- The links after the neighbours `prev` and `next` of an element were linked to each other. -/
def unlinked (links : P → Option (Links P)) (prev next : Option P) (q : P) : Option (Links P) :=
  let k := if prev = some q then (links q).map fun k => { k with next } else links q
  if next = some q then k.map fun k => { k with prev } else k

/-- The element `p` is taken out of the list; its own links do not matter any more. -/
theorem Double.unlink {prev next : Option P}
    (h : Double links none first (ps ++ p :: qs) last none) (hNodup : (ps ++ p :: qs).Nodup)
    (hLinks : links p = some ⟨prev, next⟩) :
    Double (unlinked links prev next) none (if first = some p then next else first) (ps ++ qs)
      (if last = some p then prev else last) none := by
  have hAt := h.neighbours hNodup hLinks
  obtain ⟨mid, midLast, hFront, rfl, next', hSelf, hBack⟩ := double_append.mp h
  rw [hLinks] at hSelf
  cases hSelf
  rw [List.nodup_append, List.nodup_cons] at hNodup
  obtain ⟨hFrontNodup, ⟨-, hBackNodup⟩, hApart⟩ := hNodup
  have hNotNext : ∀ q ∈ ps, next ≠ some q := fun q hq hEq =>
    hApart q hq q (List.mem_cons_of_mem _ (hAt.next_mem q hEq)) rfl
  have hNotPrev : ∀ q ∈ qs, prev ≠ some q := fun q hq hEq =>
    hApart q (hAt.prev_mem q hEq) q (List.mem_cons_of_mem _ hq) rfl
  simp only [hAt.first_iff, hAt.last_iff, hAt.prev_none, hAt.next_none]
  refine double_append.mpr ⟨next, prev, hFront.relinkNext hFrontNodup ?_ ?_,
    hBack.relinkPrev hBackNodup ?_ ?_⟩
  · exact fun q k hq hMem hk => by simp [unlinked, hq, hk, hNotNext q hMem]
  · exact fun q hq hNe => by simp [unlinked, hNe, hNotNext q hq]
  · exact fun q k hq hMem hk => by simp [unlinked, hq, hk, hNotPrev q hMem]
  · exact fun q hq hNe => by simp [unlinked, hNe, hNotPrev q hq]

theorem Double.erase {xs : List P} {prev next : Option P} (h : Double links none first xs last none)
    (hNodup : xs.Nodup) (hMem : p ∈ xs) (hLinks : links p = some ⟨prev, next⟩) :
    Double (unlinked links prev next) none (if first = some p then next else first) (xs.erase p)
      (if last = some p then prev else last) none := by
  obtain ⟨ps, qs, rfl⟩ := List.append_of_mem hMem
  have hNot : p ∉ ps := fun hp => (List.nodup_append.mp hNodup).2.2 p hp p List.mem_cons_self rfl
  rw [List.erase_append_right _ hNot, List.erase_cons_head]
  exact h.unlink hNodup hLinks

/-- The neighbours of an element are elements, and it has none only if it is alone. -/
theorem Double.alone {xs : List P} {prev next : Option P} (h : Double links none first xs last none)
    (hNodup : xs.Nodup) (hMem : p ∈ xs) (hLinks : links p = some ⟨prev, next⟩) :
    (prev = none ∧ next = none ↔ xs.erase p = []) ∧ (∀ q, prev = some q → q ∈ xs) ∧
      (∀ q, next = some q → q ∈ xs) ∧ (first = some p ↔ prev = none) := by
  obtain ⟨ps, qs, rfl⟩ := List.append_of_mem hMem
  have hAt := h.neighbours hNodup hLinks
  have hNot : p ∉ ps := fun hp => (List.nodup_append.mp hNodup).2.2 p hp p List.mem_cons_self rfl
  rw [List.erase_append_right _ hNot, List.erase_cons_head, hAt.prev_none, hAt.next_none,
    List.append_eq_nil_iff, hAt.first_iff, hAt.prev_none]
  exact ⟨Iff.rfl, fun q hq => List.mem_append_left _ (hAt.prev_mem q hq),
    fun q hq => List.mem_append_right _ (List.mem_cons_of_mem _ (hAt.next_mem q hq)), Iff.rfl⟩

end Double

section Single

variable {next next' : P → Option (Option P)} {first : Option P} {ps : List P} {p : P}

theorem Single.congr (h : Single next first ps) (hSame : ∀ p ∈ ps, next' p = next p) :
    Single next' first ps := by
  induction ps generalizing first with
  | nil => exact h
  | cons p ps ih =>
    obtain ⟨hFirst, n, hNext, hRest⟩ := h
    exact ⟨hFirst, n, (hSame p List.mem_cons_self).trans hNext,
      ih hRest fun q hq => hSame q (List.mem_cons_of_mem _ hq)⟩

theorem Single.pushFront (h : Single next first ps) (hNew : next' p = some first)
    (hOther : ∀ q ∈ ps, next' q = next q) : Single next' (some p) (p :: ps) :=
  ⟨rfl, first, hNew, h.congr hOther⟩

end Single

end CMeshApi.Chains
