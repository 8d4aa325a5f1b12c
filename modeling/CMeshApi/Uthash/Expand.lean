import CMeshApi.Uthash.Represents

/-!
# Doubling the number of buckets

The loops of an expansion take the elements out of the old chains, whose back links
are already lost, and push each of them to the front of its chain in the new array.
-/

namespace CMeshApi.Uthash

open Chains Heaps

variable {P κ ν : Type} [DecidableEq P]

/-- The next-pointers of the chains that are not moved yet. -/
def bktNext (elems : Heap P (Element P κ ν)) (p : P) : Option (Option P) :=
  (bktLinks elems p).map Links.next

/-- The elements `ps` were moved to the new array. -/
structure Moved (n : Nat) (x x' : Expansion P κ ν) (chains chains' : Nat → List P) (ps : List P) :
    Prop where
  bucketed : Bucketed n x'.elems x'.newBuckets chains'
  size : x'.newBuckets.length = x.newBuckets.length
  members : ∀ q, (∃ j, q ∈ chains' j) ↔ q ∈ ps ∨ ∃ j, q ∈ chains j
  app : ∀ q, appLinks x'.elems q = appLinks x.elems q
  fixed : ∀ q, fixedOf x'.elems q = fixedOf x.elems q
  other : ∀ q, q ∉ ps → (∀ j, q ∉ chains j) → bktLinks x'.elems q = bktLinks x.elems q

section Moved

variable {n : Nat} {x x' x'' : Expansion P κ ν} {chains chains' chains'' : Nat → List P} {ps qs : List P}
  {p : P}

omit [DecidableEq P] in
theorem Moved.refl (h : Bucketed n x.elems x.newBuckets chains) : Moved n x x chains chains [] where
  bucketed := h
  size := rfl
  members := by simp
  app := fun _ => rfl
  fixed := fun _ => rfl
  other := fun _ _ _ => rfl

omit [DecidableEq P] in
theorem Moved.trans (h : Moved n x x' chains chains' ps) (h' : Moved n x' x'' chains' chains'' qs) :
    Moved n x x'' chains chains'' (ps ++ qs) where
  bucketed := h'.bucketed
  size := h'.size.trans h.size
  members := by
    intro q
    rw [h'.members, h.members, List.mem_append]
    tauto
  app := fun q => (h'.app q).trans (h.app q)
  fixed := fun q => (h'.fixed q).trans (h.fixed q)
  other := by
    intro q hq hFresh
    rw [List.mem_append, not_or] at hq
    have hNot : ¬ ∃ j, q ∈ chains' j := by
      rw [h.members]
      rintro (hps | ⟨j, hj⟩)
      · exact hq.1 hps
      · exact hFresh j hj
    exact (h'.other q hq.2 fun j hj => hNot ⟨j, hj⟩).trans (h.other q hq.1 hFresh)

theorem moveElement_moved {k : Nat} (h : Bucketed n x.elems x.newBuckets chains)
    (hSize : x.newBuckets.length = n) (hPow : n = 2 ^ k) (hAllocated : (x.elems p).isSome = true)
    (hFresh : ∀ j, p ∉ chains j) (ideal : Nat) :
    ∃ x' chains', moveElement ideal n p x = .ok x' ∧ Moved n x x' chains chains' [p] := by
  obtain ⟨e, he⟩ := Option.isSome_iff_exists.mp hAllocated
  have hLt : hashToBkt e.hh.hashv n < x.newBuckets.length := by
    rw [hSize, hPow]
    exact hashToBkt_lt e.hh.hashv k
  obtain ⟨b, hb⟩ : ∃ b, x.newBuckets[hashToBkt e.hh.hashv n]? = some b :=
    ⟨_, List.getElem?_eq_getElem hLt⟩
  obtain ⟨last, hChain⟩ := h.linked _ b hb
  have hHome : bktOf n x.elems p = some (hashToBkt e.hh.hashv n) := by rw [bktOf, he, Option.map_some]
  have hHead : b.hhHead ≠ some p := fun hEq => hFresh _ (hChain.first_mem hEq)
  have hHeadAllocated : ∀ q, b.hhHead = some q → (x.elems q).isSome = true := by
    intro q hq
    obtain ⟨links, hLinks⟩ := hChain.allocated (hChain.first_mem hq)
    rw [← isSome_bktLinks, hLinks]
    rfl
  have hPushed := (pushed hAllocated hHead).2
  rw [moveElement, Heap.load_eq he]
  simp only [ok_bind, bucketAt_eq hb, Heap.modify_eq hAllocated,
    Heap.modify_eq (h := x.elems.change (some p) (Element.setHhPrev none))
      (by rw [Heap.isSome_change]; exact hAllocated),
    Heap.modifyIf_eq (h := (x.elems.change (some p) (Element.setHhPrev none)).change (some p)
      (Element.setHhNext b.hhHead)) (fun q hq => by
        rw [Heap.isSome_change, Heap.isSome_change]
        exact hHeadAllocated q hq)]
  refine ⟨_, _, rfl, h.push hb hPushed hFresh hHome _, List.length_set, fun q => ?_, hPushed.app,
    hPushed.fixed, fun q hq hNot => hPushed.other q (by simpa using hq) fun hEq => ?_⟩
  · rw [mem_update_cons, List.mem_singleton]
  · exact hNot _ (hChain.first_mem hEq)

theorem moveChain_moved {k fuel : Nat} {first : Option P} (h : Bucketed n x.elems x.newBuckets chains)
    (hSize : x.newBuckets.length = n) (hPow : n = 2 ^ k) (hChain : Single (bktNext x.elems) first ps)
    (hNodup : ps.Nodup) (hFresh : ∀ p ∈ ps, ∀ j, p ∉ chains j) (hFuel : ps.length ≤ fuel)
    (ideal : Nat) :
    ∃ x' chains', moveChain ideal n fuel first x = .ok x' ∧ Moved n x x' chains chains' ps := by
  induction ps generalizing first fuel x chains with
  | nil =>
    obtain rfl : first = none := hChain
    refine ⟨x, chains, ?_, Moved.refl h⟩
    cases fuel <;> rfl
  | cons p ps ih =>
    obtain ⟨rfl, next, hNext, hRest⟩ := hChain
    obtain ⟨fuel, rfl⟩ : ∃ m, fuel = m + 1 := ⟨fuel - 1, by simp at hFuel; omega⟩
    rw [List.nodup_cons] at hNodup
    obtain ⟨e, he, hTail⟩ : ∃ e, x.elems p = some e ∧ e.hh.hhNext = next := by
      simpa [bktNext, bktLinks, Element.bktLinks] using hNext
    obtain ⟨x', chains', hMove, hMoved⟩ := moveElement_moved h hSize hPow
      (by rw [he]; rfl) (hFresh p List.mem_cons_self) ideal
    have hFresh' : ∀ q ∈ ps, ∀ j, q ∉ chains' j := by
      intro q hq j hj
      rcases (hMoved.members q).mp ⟨j, hj⟩ with hEq | ⟨i, hi⟩
      · rw [List.mem_singleton.mp hEq] at hq
        exact hNodup.1 hq
      · exact hFresh q (List.mem_cons_of_mem _ hq) i hi
    have hRest' : Single (bktNext x'.elems) next ps := by
      refine hRest.congr fun q hq => congrArg (Option.map Links.next) (hMoved.other q ?_ ?_)
      · rintro hEq
        rw [List.mem_singleton.mp hEq] at hq
        exact hNodup.1 hq
      · exact hFresh q (List.mem_cons_of_mem _ hq)
    obtain ⟨x'', chains'', hWalk, hMoved'⟩ := ih hMoved.bucketed (hMoved.size.trans hSize) hRest'
      hNodup.2 hFresh' (by simpa using hFuel)
    refine ⟨x'', chains'', ?_, hMoved.trans hMoved'⟩
    rw [moveChain, Heap.load_eq he]
    simp only [ok_bind, hMove, hTail, hWalk]

theorem moveBuckets_moved {k fuel i : Nat} {bs : List (HashBucket P)} {olds : Nat → List P}
    (h : Bucketed n x.elems x.newBuckets chains) (hSize : x.newBuckets.length = n) (hPow : n = 2 ^ k)
    (hChains : ∀ j b, bs[j]? = some b → Single (bktNext x.elems) b.hhHead (olds (i + j)))
    (hNodup : ((List.range' i bs.length).flatMap olds).Nodup)
    (hFresh : ∀ p ∈ (List.range' i bs.length).flatMap olds, ∀ j, p ∉ chains j)
    (hFuel : ∀ j, (olds j).length ≤ fuel) (ideal : Nat) :
    ∃ x' chains', moveBuckets ideal n fuel bs x = .ok x' ∧
      Moved n x x' chains chains' ((List.range' i bs.length).flatMap olds) := by
  induction bs generalizing i x chains with
  | nil => exact ⟨x, chains, rfl, Moved.refl h⟩
  | cons b bs ih =>
    have hSplit : (List.range' i (b :: bs).length).flatMap olds =
        olds i ++ (List.range' (i + 1) bs.length).flatMap olds := by
      rw [List.length_cons, List.range'_succ, List.flatMap_cons]
    rw [hSplit] at hNodup hFresh ⊢
    obtain ⟨hFirst, hLater, hApart⟩ := List.nodup_append.mp hNodup
    obtain ⟨x', chains', hMove, hMoved⟩ := moveChain_moved h hSize hPow
      (hChains 0 b rfl) hFirst (fun p hp => hFresh p (List.mem_append_left _ hp)) (hFuel i) ideal
    -- the chains that are still to come keep their next-pointers
    have hChains' : ∀ j c, bs[j]? = some c →
        Single (bktNext x'.elems) c.hhHead (olds (i + 1 + j)) := by
      intro j c hc
      have hLt : j < bs.length := (List.getElem?_eq_some_iff.mp hc).1
      have hOld := hChains (j + 1) c (by rw [List.getElem?_cons_succ]; exact hc)
      rw [show i + (j + 1) = i + 1 + j by omega] at hOld
      refine hOld.congr fun q hq => congrArg (Option.map Links.next) ?_
      have hLater : q ∈ (List.range' (i + 1) bs.length).flatMap olds :=
        List.mem_flatMap.mpr ⟨i + 1 + j, List.mem_range'_1.mpr (by omega), hq⟩
      exact hMoved.other q (fun hq' => hApart q hq' q hLater rfl)
        (hFresh q (List.mem_append_right _ hLater))
    have hFresh' : ∀ p ∈ (List.range' (i + 1) bs.length).flatMap olds, ∀ j, p ∉ chains' j := by
      intro p hp j hj
      rcases (hMoved.members p).mp ⟨j, hj⟩ with hIn | ⟨j', hj'⟩
      · exact hApart p hIn p hp rfl
      · exact hFresh p (List.mem_append_right _ hp) j' hj'
    obtain ⟨x'', chains'', hRest, hMoved'⟩ := ih hMoved.bucketed (hMoved.size.trans hSize) hChains'
      hLater hFresh'
    refine ⟨x'', chains'', ?_, hMoved.trans hMoved'⟩
    rw [moveBuckets, hMove, ok_bind, hRest]

end Moved

section Expand

variable {hash : κ → UInt32} {s : Hash P κ ν} {tp : P} {t : HashTable P} {xs : List P}
  {chains : Nat → List P}

omit [DecidableEq P] in
theorem Bucketed.nodup_flatMap {n : Nat} {elems : Heap P (Element P κ ν)}
    {buckets : List (HashBucket P)} (h : Bucketed n elems buckets chains) (i m : Nat) :
    ((List.range' i m).flatMap chains).Nodup := by
  refine List.nodup_flatMap.mpr ⟨fun j _ => h.nodup j, ?_⟩
  have hRange : (List.range' i m).Nodup := List.nodup_range' 1
  exact hRange.pairwise_of_forall_ne fun j _ j' _ hNe =>
    List.disjoint_left.mpr fun p hj hj' => hNe (h.unique hj hj')

omit [DecidableEq P] in
theorem Distributed.mem_flatMap {elems : Heap P (Element P κ ν)} (h : Distributed elems t xs chains)
    (p : P) : p ∈ (List.range' 0 t.buckets.length).flatMap chains ↔ p ∈ xs := by
  rw [h.members, List.mem_flatMap]
  constructor
  · rintro ⟨i, -, hi⟩
    exact ⟨i, hi⟩
  · rintro ⟨i, hi⟩
    refine ⟨i, List.mem_range'_1.mpr ⟨Nat.zero_le i, ?_⟩, hi⟩
    obtain ⟨e, -, rfl⟩ := Option.map_eq_some_iff.mp (h.bucketed.home i p hi)
    rw [Nat.zero_add, h.size, h.log2]
    exact hashToBkt_lt e.hh.hashv t.log2NumBuckets

omit [DecidableEq P] in
theorem bucketed_zero (n m : Nat) (elems : Heap P (Element P κ ν)) :
    Bucketed n elems (List.replicate m HashBucket.zero) fun _ => [] where
  linked := by
    intro i b hb
    obtain rfl : b = HashBucket.zero := List.eq_of_mem_replicate (List.mem_of_getElem? hb)
    exact ⟨none, rfl, rfl⟩
  count := by
    intro i b hb
    obtain rfl : b = HashBucket.zero := List.eq_of_mem_replicate (List.mem_of_getElem? hb)
    rfl
  nodup := fun _ => List.nodup_nil
  home := by simp

/-- An operation on the chains leaves the app order and the contents as they are. -/
structure Relinked (s s' : Hash P κ ν) : Prop where
  head : s'.head = s.head
  app : ∀ q, appLinks s'.elems q = appLinks s.elems q
  fixed : ∀ q, fixedOf s'.elems q = fixedOf s.elems q

/-- Only the elements of the hash matter, and of those only the links and what stays fixed. -/
theorem Ordered.congr {s' : Hash P κ ν} {t' : HashTable P} (h : Ordered hash s tp t xs)
    (hHead : s'.head = s.head) (hApp : ∀ q ∈ xs, appLinks s'.elems q = appLinks s.elems q)
    (hFixed : ∀ q ∈ xs, fixedOf s'.elems q = fixedOf s.elems q)
    (hTables : s'.tables = Heap.empty.set tp t') (hTail : t'.tail = t.tail) :
    Ordered hash s' tp t' xs where
  nodup := h.nodup
  app := by
    rw [hHead, hTail]
    exact h.app.congr hApp
  tables := hTables
  handles := by
    intro p hp
    rw [hFixed p hp]
    exact h.handles p hp

theorem Ordered.relinked {s' : Hash P κ ν} {t' : HashTable P} (h : Ordered hash s tp t xs)
    (hRelinked : Relinked s s') (hTables : s'.tables = Heap.empty.set tp t') (hTail : t'.tail = t.tail) :
    Ordered hash s' tp t' xs :=
  h.congr hRelinked.head (fun q _ => hRelinked.app q) (fun q _ => hRelinked.fixed q) hTables hTail

omit [DecidableEq P] in
theorem Distributed.congr {elems elems' : Heap P (Element P κ ν)} {t' : HashTable P}
    (h : Distributed elems t xs chains) (hLinks : ∀ q ∈ xs, bktLinks elems' q = bktLinks elems q)
    (hFixed : ∀ q ∈ xs, fixedOf elems' q = fixedOf elems q) (hBuckets : t'.buckets = t.buckets)
    (hNum : t'.numBuckets = t.numBuckets) (hLog2 : t'.log2NumBuckets = t.log2NumBuckets) :
    Distributed elems' t' xs chains where
  bucketed := by
    rw [hBuckets, hNum]
    exact h.bucketed.congr (fun i q hq => hLinks q ((h.members q).mpr ⟨i, hq⟩))
      (fun i q hq => hFixed q ((h.members q).mpr ⟨i, hq⟩))
  members := h.members
  size := by
    rw [hBuckets, hNum]
    exact h.size
  log2 := by
    rw [hNum, hLog2]
    exact h.log2

theorem Ordered.set_tables (h : Ordered hash s tp t xs) (t' : HashTable P) :
    s.tables.set tp t' = Heap.empty.set tp t' := by
  rw [h.tables]
  funext q
  by_cases hEq : q = tp
  · rw [hEq, Heap.set_same, Heap.set_same]
  · rw [Heap.set_other hEq, Heap.set_other hEq, Heap.set_other hEq]

theorem hashExpandBuckets_ends {fuel : Nat} (hOrdered : Ordered hash s tp t xs)
    (hDistributed : Distributed s.elems t xs chains) (hFuel : xs.length ≤ fuel) (alloc : Bool) :
    Ends (alloc = false) (hashExpandBuckets fuel s tp alloc) fun s' =>
      ∃ t' chains', Ordered hash s' tp t' xs ∧ Distributed s'.elems t' xs chains' ∧
        t'.numItems = t.numItems ∧ Relinked s s' := by
  have hTable : s.tables tp = some t := by rw [hOrdered.tables, Heap.set_same]
  rw [hashExpandBuckets, Heap.load_eq hTable]
  cases alloc with
  | false => exact rfl
  | true =>
    have hPow : t.numBuckets * 2 = 2 ^ (t.log2NumBuckets + 1) := by rw [hDistributed.log2, pow_succ]
    have hOld : ∀ j b, t.buckets[j]? = some b →
        Single (bktNext s.elems) b.hhHead (chains (0 + j)) := by
      intro j b hb
      obtain ⟨last, hDouble⟩ := hDistributed.bucketed.linked j b hb
      rw [Nat.zero_add]
      exact hDouble.single
    obtain ⟨x', chains', hMove, hMoved⟩ := moveBuckets_moved
      (x := ⟨s.elems, List.replicate (t.numBuckets * 2) HashBucket.zero, 0⟩)
      (bucketed_zero (t.numBuckets * 2) (t.numBuckets * 2) s.elems) List.length_replicate hPow hOld
      (hDistributed.bucketed.nodup_flatMap 0 t.buckets.length) (by simp)
      (fun j => Nat.le_trans (hDistributed.chain_length j) hFuel) (idealChainMaxlen t)
    simp only [ok_bind, hDistributed.bucketsOf, hMove, if_true]
    refine ⟨expanded t x', chains', ?_, ⟨hMoved.bucketed, fun p => ?_, ?_, hPow⟩, rfl, ?_⟩
    · exact hOrdered.relinked ⟨rfl, hMoved.app, hMoved.fixed⟩ (hOrdered.set_tables _) rfl
    · rw [hMoved.members, hDistributed.mem_flatMap]
      simp
    · exact hMoved.size.trans List.length_replicate
    · exact ⟨rfl, hMoved.app, hMoved.fixed⟩

end Expand

end CMeshApi.Uthash
