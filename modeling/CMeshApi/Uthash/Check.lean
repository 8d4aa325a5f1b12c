import CMeshApi.Uthash.Update
import Mathlib.Data.List.Find

/-!
# Runs of the hash

A run adds elements that its caller has just allocated, looks keys up, and deletes
elements that its caller then frees. As long as the caller adds no key twice and deletes
only what it added, the hash answers like a list of its elements in the order in which
they were added, and the integrity check of `HASH_DEBUG`, made after each addition and
deletion, finds nothing.
-/

namespace CMeshApi.Uthash

open Chains Heaps

variable {P κ ν : Type} [DecidableEq P]

section Fsck

variable {hash : κ → UInt32} {s : Hash P κ ν} {xs : List P} {fuel : Nat}

omit [DecidableEq P] in
theorem length_flatMap_chains {elems : Heap P (Element P κ ν)} {t : HashTable P}
    {chains : Nat → List P} (h : Distributed elems t xs chains) (hNodup : xs.Nodup) :
    ((List.range' 0 t.buckets.length).flatMap chains).length = xs.length :=
  ((List.perm_ext_iff_of_nodup (h.bucketed.nodup_flatMap 0 t.buckets.length) hNodup).mpr
    h.mem_flatMap).length_eq

theorem fsckWalk_eq (links : Element P κ ν → Links P) {elems : Heap P (Element P κ ν)}
    {before first last : Option P} {ps : List P}
    (h : Double (fun p => (elems p).map links) before first ps last none) (hFuel : ps.length ≤ fuel)
    (count : Nat) : fsckWalk links elems fuel before first count = .ok (count + ps.length) := by
  induction ps generalizing before first fuel count with
  | nil =>
    obtain rfl : first = none := h.1
    cases fuel <;> rfl
  | cons p ps ih =>
    obtain ⟨rfl, next, hLinks, hRest⟩ := h
    obtain ⟨fuel, rfl⟩ : ∃ n, fuel = n + 1 := ⟨fuel - 1, by simp at hFuel; omega⟩
    obtain ⟨e, he, hEq⟩ := Option.map_eq_some_iff.mp hLinks
    rw [fsckWalk, Heap.load_eq he, ok_bind, hEq, if_pos rfl, ih hRest (by simpa using hFuel),
      List.length_cons]
    congr 1
    omega

theorem fsckBuckets_eq {n i : Nat} {elems : Heap P (Element P κ ν)} {buckets bs : List (HashBucket P)}
    {chains : Nat → List P} (h : Bucketed n elems buckets chains)
    (hBuckets : ∀ j b, bs[j]? = some b → buckets[i + j]? = some b)
    (hFuel : ∀ j, (chains j).length ≤ fuel) (count : Nat) :
    fsckBuckets elems fuel bs count =
      .ok (count + ((List.range' i bs.length).flatMap chains).length) := by
  induction bs generalizing i count with
  | nil => rfl
  | cons b bs ih =>
    have hb : buckets[i]? = some b := hBuckets 0 b rfl
    obtain ⟨last, hChain⟩ := h.linked i b hb
    have hRest : ∀ j c, bs[j]? = some c → buckets[i + 1 + j]? = some c := by
      intro j c hc
      have hLater := hBuckets (j + 1) c (by rw [List.getElem?_cons_succ]; exact hc)
      rw [show i + (j + 1) = i + 1 + j by omega] at hLater
      exact hLater
    have hWalk := fsckWalk_eq Element.bktLinks hChain (hFuel i) 0
    rw [Nat.zero_add] at hWalk
    rw [fsckBuckets, hWalk, ok_bind, if_pos (h.count i b hb), ih hRest, List.length_cons,
      List.range'_succ, List.flatMap_cons, List.length_append, Nat.add_assoc]

/-- The check finds nothing wrong with a hash that represents a list of elements. -/
theorem hashFsck_eq (h : Represents hash s xs) (hFuel : xs.length ≤ fuel) :
    hashFsck fuel s = .ok () := by
  rcases h with ⟨-, hHead, -⟩ | ⟨hSome, tp, t, chains, hOrdered, hDistributed, hItems⟩
  · rw [hashFsck, hHead]
  · obtain ⟨p, hp, hHead⟩ := hOrdered.head_mem hSome
    have hBuckets := fsckBuckets_eq hDistributed.bucketed
      (show ∀ j b, t.buckets[j]? = some b → t.buckets[0 + j]? = some b from fun j b hb => by
        rw [Nat.zero_add]
        exact hb)
      (fun j => Nat.le_trans (hDistributed.chain_length j) hFuel) 0
    have hApp := fsckWalk_eq Element.appLinks hOrdered.app hFuel 0
    rw [Nat.zero_add, length_flatMap_chains hDistributed hOrdered.nodup, ← hItems] at hBuckets
    rw [Nat.zero_add, ← hItems, hHead] at hApp
    rw [hashFsck, hHead]
    simp only [hOrdered.tableOf hSome, ok_bind, hDistributed.bucketsOf, hBuckets, if_true, hApp]
    rfl

end Fsck

/-- What a caller does. A new element is allocated at `p`, with whatever its handle holds then. -/
inductive HashOp (P κ ν : Type) where
  | add (p : P) (key : κ) (val : ν) (hh : HashHandle P) (allocs : HashAllocs P)
  | find (key : κ)
  | delete (p : P)

def HashOp.Refused : HashOp P κ ν → Prop
  | .add _ _ _ _ allocs => allocs.Refuses
  | .find _ => False
  | .delete _ => False

section Runs

variable [DecidableEq κ] (hash : κ → UInt32) (fuel : Nat)

/-- One operation with the check of the debug build, and the element that a lookup finds. -/
def hashStep (s : Hash P κ ν) : HashOp P κ ν → Run (Hash P κ ν × Option P)
  | .add p key val hh allocs => do
    let s ← hashAdd hash fuel { s with elems := s.elems.set p ⟨key, val, hh⟩ } p allocs
    hashFsck fuel s
    return (s, none)
  | .find key => do
    let out ← hashFind hash fuel s key
    return (s, out)
  | .delete p => do
    let s ← hashDelete s p
    hashFsck fuel s
    let elems ← s.elems.free p
    return ({ s with elems }, none)

def hashRun : Hash P κ ν → List (HashOp P κ ν) → Run (Hash P κ ν × List (Option P))
  | s, [] => .ok (s, [])
  | s, op :: ops => do
    let (s, out) ← hashStep hash fuel s op
    let (s, outs) ← hashRun s ops
    return (s, out :: outs)

def Hash.empty : Hash P κ ν := ⟨none, Heap.empty, Heap.empty⟩

/-- The same on a list of elements with their keys and values; `none` when the caller adds an
element or a key that is there already, or deletes an element that is not. -/
def listStep (l : List (P × κ × ν)) : HashOp P κ ν → Option (List (P × κ × ν) × Option P)
  | .add p key val _ _ =>
    if (l.all fun x => x.1 ≠ p ∧ x.2.1 ≠ key) then some (l ++ [(p, key, val)], none) else none
  | .find key => some (l, (l.find? fun x => x.2.1 = key).map Prod.fst)
  | .delete p =>
    if (l.any fun x => x.1 = p) then some (l.filter fun x => x.1 ≠ p, none) else none

def listRun : List (P × κ × ν) → List (HashOp P κ ν) → Option (List (P × κ × ν) × List (Option P))
  | l, [] => some (l, [])
  | l, op :: ops => do
    let (l, out) ← listStep l op
    let (l, outs) ← listRun l ops
    return (l, out :: outs)

/-- The hash holds the elements of the list and no others, and nothing else is allocated. -/
structure Holds (s : Hash P κ ν) (l : List (P × κ × ν)) : Prop where
  represents : Represents hash s (l.map Prod.fst)
  contents : ∀ x ∈ l, Uthash.contents s.elems x.1 = some x.2
  owned : ∀ p, (s.elems p).isSome = true → p ∈ l.map Prod.fst
  keys : (l.map fun x => x.2.1).Nodup

variable {hash fuel} {s : Hash P κ ν} {l l' : List (P × κ × ν)}

omit [DecidableEq κ] in
theorem holds_empty : Holds hash (Hash.empty : Hash P κ ν) [] where
  represents := Or.inl ⟨rfl, rfl, rfl⟩
  contents := by simp
  owned := by simp [Hash.empty, Heap.empty]
  keys := List.nodup_nil

omit [DecidableEq κ] in
theorem Holds.keyOf (h : Holds hash s l) {x : P × κ × ν} (hx : x ∈ l) :
    Uthash.keyOf s.elems x.1 = some x.2.1 := by
  obtain ⟨e, he, hEq⟩ := Option.map_eq_some_iff.mp (h.contents x hx)
  rw [Uthash.keyOf, he, Option.map_some, ← hEq]

omit [DecidableEq κ] in
theorem Holds.distinctKeys (h : Holds hash s l) : DistinctKeys s.elems (l.map Prod.fst) := by
  intro p hp q hq hEq
  obtain ⟨x, hx, rfl⟩ := List.mem_map.mp hp
  obtain ⟨y, hy, rfl⟩ := List.mem_map.mp hq
  rw [h.keyOf hx, h.keyOf hy, Option.some.injEq] at hEq
  exact congrArg Prod.fst (List.inj_on_of_nodup_map h.keys hx hy hEq)

theorem Holds.find (h : Holds hash s l) (key : κ) :
    (l.map Prod.fst).find? (fun p => Uthash.keyOf s.elems p = some key) =
      (l.find? fun x => x.2.1 = key).map Prod.fst := by
  rw [List.find?_map]
  congr 1
  refine List.find?_congr fun x hx => ?_
  simp only [Function.comp_apply, h.keyOf hx, Option.some.injEq]

omit [DecidableEq κ] in
theorem Holds.add (h : Holds hash s l) {p : P} {key : κ} {val : ν} (hh : HashHandle P)
    (allocs : HashAllocs P) (hPtr : ∀ x ∈ l, x.1 ≠ p) (hKey : ∀ x ∈ l, x.2.1 ≠ key)
    (hFuel : l.length + 1 ≤ fuel) :
    Ends allocs.Refuses
      (hashAdd hash fuel { s with elems := s.elems.set p ⟨key, val, hh⟩ } p allocs)
      fun s' => Holds hash s' (l ++ [(p, key, val)]) := by
  have hNew : p ∉ l.map Prod.fst := by
    intro hp
    obtain ⟨x, hx, rfl⟩ := List.mem_map.mp hp
    exact hPtr x hx rfl
  have hRepresents : Represents hash { s with elems := s.elems.set p ⟨key, val, hh⟩ }
      (l.map Prod.fst) := by
    refine h.represents.congr fun q hq => ?_
    have hNe : q ≠ p := fun hEq => hNew (hEq ▸ hq)
    rw [Heap.set_other hNe]
  have hAllocated : ((s.elems.set p ⟨key, val, hh⟩) p).isSome = true := by
    rw [Heap.set_same]
    rfl
  refine (hashAdd_ends hRepresents hNew hAllocated
    (by rw [List.length_map]; exact hFuel)).mono id ?_
  rintro s' ⟨hRepresents', hContents⟩
  have hOther : ∀ q, q ≠ p → Uthash.contents s'.elems q = Uthash.contents s.elems q := by
    intro q hq
    rw [hContents]
    exact congrArg (Option.map _) (Heap.set_other hq)
  refine ⟨by simpa using hRepresents', fun x hx => ?_, fun q hq => ?_, ?_⟩
  · rcases List.mem_append.mp hx with hx | hx
    · rw [hOther x.1 (hPtr x hx), h.contents x hx]
    · rw [List.mem_singleton.mp hx, hContents]
      exact congrArg (Option.map _) (Heap.set_same s.elems p ⟨key, val, hh⟩)
  · rw [List.map_append, List.mem_append]
    by_cases hEq : q = p
    · exact Or.inr (by simp [hEq])
    · refine Or.inl (h.owned q ?_)
      have hSome := congrArg Option.isSome (hOther q hEq)
      simpa only [Uthash.contents, Option.isSome_map, hq] using hSome.symm
  · rw [List.map_append, List.nodup_append]
    refine ⟨h.keys, List.nodup_singleton key, fun k hk k' hk' hEq => ?_⟩
    obtain ⟨x, hx, rfl⟩ := List.mem_map.mp hk
    exact hKey x hx (hEq.trans (List.mem_singleton.mp hk'))

omit [DecidableEq κ] in
theorem Holds.delete (h : Holds hash s l) {p : P} (hp : p ∈ l.map Prod.fst) :
    ∃ s', hashDelete s p = .ok s' ∧ (s'.elems p).isSome = true ∧
      Represents hash s' ((l.filter fun x => x.1 ≠ p).map Prod.fst) ∧
      Holds hash { s' with elems := s'.elems.clear p } (l.filter fun x => x.1 ≠ p) := by
  obtain ⟨s', hDelete, hRepresents, hContents⟩ := hashDelete_eq h.represents hp
  have hErase : (l.map Prod.fst).erase p = (l.filter fun x => x.1 ≠ p).map Prod.fst := by
    rw [h.represents.nodup.erase_eq_filter, List.filter_map]
    congr 1
    refine List.filter_congr fun x _ => ?_
    simp [bne, beq_eq_decide]
  rw [hErase] at hRepresents
  have hSome : ∀ q, (s'.elems q).isSome = (s.elems q).isSome := by
    intro q
    simpa only [Uthash.contents, Option.isSome_map] using congrArg Option.isSome (hContents q)
  have hNe : ∀ q ∈ (l.filter fun x => x.1 ≠ p).map Prod.fst, q ≠ p := by
    intro q hq
    obtain ⟨x, hx, rfl⟩ := List.mem_map.mp hq
    simpa using (List.mem_filter.mp hx).2
  refine ⟨s', hDelete, (hSome p).trans (h.represents.allocated hp), hRepresents, ?_, ?_, ?_, ?_⟩
  · exact hRepresents.congr fun q hq => by rw [Heap.clear_other (hNe q hq)]
  · intro x hx
    have hSame : Uthash.contents (s'.elems.clear p) x.1 = Uthash.contents s'.elems x.1 :=
      congrArg (Option.map _) (Heap.clear_other (hNe x.1 (List.mem_map_of_mem hx)))
    exact hSame.trans ((hContents x.1).trans (h.contents x (List.mem_filter.mp hx).1))
  · intro q hq
    change (s'.elems.clear p q).isSome = true at hq
    by_cases hEq : q = p
    · rw [hEq, Heap.clear_same] at hq
      cases hq
    · rw [Heap.clear_other hEq, hSome] at hq
      obtain ⟨x, hx, rfl⟩ := List.mem_map.mp (h.owned q hq)
      exact List.mem_map_of_mem (List.mem_filter.mpr ⟨hx, by simpa using hEq⟩)
  · exact h.keys.sublist (List.filter_sublist.map _)

omit [DecidableEq κ] in
/-- The caller changes the value of one of its elements. -/
theorem Holds.setVal {front back : List (P × κ × ν)} {p : P} {key : κ} {val val' : ν}
    {f : Element P κ ν → Element P κ ν} (h : Holds hash s (front ++ (p, key, val) :: back))
    (hf : ∀ e, (f e).key = e.key ∧ (f e).hh = e.hh) (hVal : ∀ e, e.val = val → (f e).val = val') :
    Holds hash { s with elems := s.elems.change (some p) f } (front ++ (p, key, val') :: back) := by
  have hPtrs : (front ++ (p, key, val') :: back).map Prod.fst =
      (front ++ (p, key, val) :: back).map Prod.fst := by simp
  have hNodup := h.represents.nodup
  rw [List.map_append, List.map_cons, List.nodup_append, List.nodup_cons] at hNodup
  obtain ⟨-, ⟨hBack, -⟩, hFront⟩ := hNodup
  have hMember : (p, key, val) ∈ front ++ (p, key, val) :: back :=
    List.mem_append_right _ List.mem_cons_self
  refine ⟨?_, fun x hx => ?_, fun q hq => ?_, by simpa using h.keys⟩
  · rw [hPtrs]
    exact h.represents.congr fun q _ =>
      Heap.map_change_of_keeps (fun e : Element P κ ν => (e.key, e.hh)) f
        (fun e => Prod.ext (hf e).1 (hf e).2) s.elems (some p) q
  · have hOther : ∀ y ∈ front ++ (p, key, val) :: back, y.1 ≠ p →
        Uthash.contents (s.elems.change (some p) f) y.1 = some y.2 := by
      intro y hy hNe
      rw [Uthash.contents, Heap.change_other fun hEq => hNe (Option.some.inj hEq).symm]
      exact h.contents y hy
    rcases List.mem_append.mp hx with hx | hx
    · refine hOther x (List.mem_append_left _ hx) fun hEq => ?_
      exact hFront x.1 (List.mem_map_of_mem hx) p List.mem_cons_self hEq
    · rcases List.mem_cons.mp hx with rfl | hx
      · obtain ⟨e, he, hEq⟩ := Option.map_eq_some_iff.mp (h.contents _ hMember)
        rw [Prod.mk.injEq] at hEq
        change Uthash.contents (s.elems.change (some p) f) p = some (key, val')
        rw [Uthash.contents, Heap.change_same, he, Option.map_some, Option.map_some, (hf e).1,
          hVal e hEq.2, hEq.1]
      · refine hOther x (List.mem_append_right _ (List.mem_cons_of_mem _ hx)) fun hEq => ?_
        have hMem : x.1 ∈ back.map Prod.fst := List.mem_map_of_mem hx
        rw [hEq] at hMem
        exact hBack hMem
  · rw [hPtrs]
    exact h.owned q ((Heap.isSome_change s.elems (some p) q f).symm.trans hq)

theorem hashStep_ends {op : HashOp P κ ν} {out : Option P} (h : Holds hash s l)
    (hFuel : l.length + 1 ≤ fuel) (hStep : listStep l op = some (l', out)) :
    Ends op.Refused (hashStep hash fuel s op) fun r =>
      r.2 = out ∧ Holds hash r.1 l' ∧ l'.length ≤ l.length + 1 := by
  cases op with
  | add p key val hh allocs =>
    rw [listStep, Option.ite_none_right_eq_some, Option.some.injEq, Prod.mk.injEq] at hStep
    obtain ⟨hNew, rfl, rfl⟩ := hStep
    have hFresh : ∀ x ∈ l, x.1 ≠ p ∧ x.2.1 ≠ key := by simpa using hNew
    refine (h.add hh allocs (fun x hx => (hFresh x hx).1) (fun x hx => (hFresh x hx).2) hFuel).bind ?_
    intro s' hHolds
    have hCheck : hashFsck fuel s' = .ok () := hashFsck_eq hHolds.represents (by simpa using hFuel)
    rw [hCheck]
    exact ⟨rfl, hHolds, by simp⟩
  | find key =>
    rw [listStep, Option.some.injEq, Prod.mk.injEq] at hStep
    obtain ⟨rfl, rfl⟩ := hStep
    rw [hashStep, hashFind_eq h.represents h.distinctKeys
      (by rw [List.length_map]; exact Nat.le_of_succ_le hFuel), h.find]
    exact ⟨rfl, h, Nat.le_succ _⟩
  | delete p =>
    rw [listStep, Option.ite_none_right_eq_some, Option.some.injEq, Prod.mk.injEq] at hStep
    obtain ⟨hMem, rfl, rfl⟩ := hStep
    have hp : p ∈ l.map Prod.fst := by simpa using hMem
    obtain ⟨s', hDelete, hSome, hRepresents, hHolds⟩ := h.delete hp
    have hLength := List.length_filter_le (fun x : P × κ × ν => x.1 ≠ p) l
    have hCheck : hashFsck fuel s' = .ok () := hashFsck_eq hRepresents (by
      rw [List.length_map]
      omega)
    simp only [hashStep, hDelete, ok_bind, hCheck, Heap.free_eq hSome]
    exact ⟨rfl, hHolds, Nat.le_succ_of_le hLength⟩

theorem hashRun_ends {ops : List (HashOp P κ ν)} {outs : List (Option P)} (h : Holds hash s l)
    (hFuel : l.length + ops.length ≤ fuel) (hRun : listRun l ops = some (l', outs)) :
    Ends (∃ op ∈ ops, op.Refused) (hashRun hash fuel s ops) fun r =>
      r.2 = outs ∧ Holds hash r.1 l' ∧ hashCount r.1 = .ok l'.length := by
  induction ops generalizing s l outs with
  | nil =>
    rw [listRun, Option.some.injEq, Prod.mk.injEq] at hRun
    obtain ⟨rfl, rfl⟩ := hRun
    exact ⟨rfl, h, by rw [hashCount_eq h.represents, List.length_map]⟩
  | cons op ops ih =>
    simp only [listRun, Option.bind_eq_bind, Option.bind_eq_some_iff] at hRun
    obtain ⟨⟨l₁, out⟩, hStep, ⟨l₂, outs'⟩, hRest, hEq⟩ := hRun
    cases hEq
    rw [List.length_cons] at hFuel
    refine ((hashStep_ends h (by omega) hStep).mono (fun hRefused =>
      ⟨op, List.mem_cons_self, hRefused⟩) fun _ h => h).bind ?_
    rintro ⟨s₁, out'⟩ ⟨rfl, hHolds, hLength⟩
    refine ((ih hHolds (by omega) hRest).mono (fun ⟨op', hMem, hRefused⟩ =>
      ⟨op', List.mem_cons_of_mem _ hMem, hRefused⟩) fun _ h => h).bind ?_
    rintro ⟨s₂, outs''⟩ ⟨rfl, hHolds', hCount⟩
    exact ⟨rfl, hHolds', hCount⟩

/-- Any run that keeps the contract of the caller ends without a fault, in a hash that holds what
the list holds, with the answers of the list; the process ends early only if memory is refused. -/
theorem hashRun_refines_list {ops : List (HashOp P κ ν)} {outs : List (Option P)}
    (hFuel : ops.length ≤ fuel) (hRun : listRun [] ops = some (l, outs)) :
    Ends (∃ op ∈ ops, op.Refused) (hashRun hash fuel Hash.empty ops) fun r =>
      r.2 = outs ∧ Holds hash r.1 l ∧ hashCount r.1 = .ok l.length :=
  hashRun_ends holds_empty (by rw [List.length_nil, Nat.zero_add]; exact hFuel) hRun

end Runs

/-- Two elements whose hash values select one bucket, and the first of them deleted. -/
def collision : List (HashOp Nat Nat Nat) :=
  let granted : HashAllocs Nat := ⟨some 9, true, true⟩
  [.add 1 5 50 ⟨none, none, none, none, none, 0⟩ granted,
    .add 2 37 370 ⟨none, none, none, none, none, 0⟩ granted, .find 5, .delete 1, .find 5, .find 37]

theorem hashRun_refines_list_collision :
    Ends (∃ op ∈ collision, op.Refused) (hashRun Nat.toUInt32 6 Hash.empty collision) fun r =>
      r.2 = [none, none, some 1, none, none, some 2] ∧ Holds Nat.toUInt32 r.1 [(2, 37, 370)] ∧
        hashCount r.1 = .ok 1 :=
  hashRun_refines_list (by decide) rfl

end CMeshApi.Uthash
