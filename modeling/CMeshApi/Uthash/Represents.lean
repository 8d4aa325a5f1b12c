import CMeshApi.Uthash.Table
import Mathlib.Data.List.Nodup
import Mathlib.Data.List.Perm.Subperm
import Mathlib.Logic.Function.Basic

/-!
# The elements of a hash

A hash represents the list of its elements in app order. They are linked twice: in
that order, and in the chain of the bucket that their hash value selects. The second
linkage is described by one chain for each bucket.
-/

namespace CMeshApi.Uthash

open Chains Heaps

variable {P κ ν : Type}

/-- What no change of a link touches. -/
structure Fixed (P κ ν : Type) where
  key : κ
  val : ν
  tbl : Option P
  hashv : UInt32

def Element.fixed (e : Element P κ ν) : Fixed P κ ν := ⟨e.key, e.val, e.hh.tbl, e.hh.hashv⟩

def bktLinks (elems : Heap P (Element P κ ν)) (p : P) : Option (Links P) :=
  (elems p).map Element.bktLinks

def appLinks (elems : Heap P (Element P κ ν)) (p : P) : Option (Links P) :=
  (elems p).map Element.appLinks

def fixedOf (elems : Heap P (Element P κ ν)) (p : P) : Option (Fixed P κ ν) :=
  (elems p).map Element.fixed

def keyOf (elems : Heap P (Element P κ ν)) (p : P) : Option κ := (elems p).map Element.key

/-- The key and the value at each pointer: what the caller sees of its elements. -/
def contents (elems : Heap P (Element P κ ν)) (p : P) : Option (κ × ν) :=
  (elems p).map fun e => (e.key, e.val)

/-- The bucket of an element in an array of `n` buckets. -/
def bktOf (n : Nat) (elems : Heap P (Element P κ ν)) (p : P) : Option Nat :=
  (elems p).map fun e => hashToBkt e.hh.hashv n

section Views

variable {elems elems' : Heap P (Element P κ ν)} {p : P}

theorem bktOf_eq_of_fixed (n : Nat) (h : fixedOf elems' p = fixedOf elems p) :
    bktOf n elems' p = bktOf n elems p := by
  have hMap : ∀ x : Heap P (Element P κ ν),
      bktOf n x p = (fixedOf x p).map fun f => hashToBkt f.hashv n := by
    intro x
    rw [bktOf, fixedOf, Option.map_map]
    rfl
  rw [hMap, hMap, h]

theorem contents_eq_of_fixed (h : fixedOf elems' p = fixedOf elems p) :
    contents elems' p = contents elems p := by
  have hMap : ∀ x : Heap P (Element P κ ν),
      contents x p = (fixedOf x p).map fun f => (f.key, f.val) := by
    intro x
    rw [contents, fixedOf, Option.map_map]
    rfl
  rw [hMap, hMap, h]

theorem isSome_fixedOf (elems : Heap P (Element P κ ν)) (p : P) :
    (fixedOf elems p).isSome = (elems p).isSome := Option.isSome_map

theorem isSome_bktLinks (elems : Heap P (Element P κ ν)) (p : P) :
    (bktLinks elems p).isSome = (elems p).isSome := Option.isSome_map

theorem isSome_appLinks (elems : Heap P (Element P κ ν)) (p : P) :
    (appLinks elems p).isSome = (elems p).isSome := Option.isSome_map

end Views

section Changes

variable [DecidableEq P] (elems : Heap P (Element P κ ν)) (o : Option P) (v : Option P) (q : P)

@[simp] theorem bktLinks_setHhNext : bktLinks (elems.change o (Element.setHhNext v)) q =
    if o = some q then (bktLinks elems q).map fun k => { k with next := v } else bktLinks elems q :=
  Heap.map_change Element.bktLinks (fun _ => rfl) elems o q

@[simp] theorem bktLinks_setHhPrev : bktLinks (elems.change o (Element.setHhPrev v)) q =
    if o = some q then (bktLinks elems q).map fun k => { k with prev := v } else bktLinks elems q :=
  Heap.map_change Element.bktLinks (fun _ => rfl) elems o q

@[simp] theorem bktLinks_setNext : bktLinks (elems.change o (Element.setNext v)) q = bktLinks elems q :=
  Heap.map_change_of_keeps Element.bktLinks (Element.setNext v) (fun _ => rfl) elems o q

@[simp] theorem bktLinks_setPrev : bktLinks (elems.change o (Element.setPrev v)) q = bktLinks elems q :=
  Heap.map_change_of_keeps Element.bktLinks (Element.setPrev v) (fun _ => rfl) elems o q

@[simp] theorem bktLinks_setTbl : bktLinks (elems.change o (Element.setTbl v)) q = bktLinks elems q :=
  Heap.map_change_of_keeps Element.bktLinks (Element.setTbl v) (fun _ => rfl) elems o q

@[simp] theorem bktLinks_setHashv (hashv : UInt32) :
    bktLinks (elems.change o (Element.setHashv hashv)) q = bktLinks elems q :=
  Heap.map_change_of_keeps Element.bktLinks (Element.setHashv hashv) (fun _ => rfl) elems o q

@[simp] theorem appLinks_setNext : appLinks (elems.change o (Element.setNext v)) q =
    if o = some q then (appLinks elems q).map fun k => { k with next := v } else appLinks elems q :=
  Heap.map_change Element.appLinks (fun _ => rfl) elems o q

@[simp] theorem appLinks_setPrev : appLinks (elems.change o (Element.setPrev v)) q =
    if o = some q then (appLinks elems q).map fun k => { k with prev := v } else appLinks elems q :=
  Heap.map_change Element.appLinks (fun _ => rfl) elems o q

@[simp] theorem appLinks_setHhNext :
    appLinks (elems.change o (Element.setHhNext v)) q = appLinks elems q :=
  Heap.map_change_of_keeps Element.appLinks (Element.setHhNext v) (fun _ => rfl) elems o q

@[simp] theorem appLinks_setHhPrev :
    appLinks (elems.change o (Element.setHhPrev v)) q = appLinks elems q :=
  Heap.map_change_of_keeps Element.appLinks (Element.setHhPrev v) (fun _ => rfl) elems o q

@[simp] theorem appLinks_setTbl : appLinks (elems.change o (Element.setTbl v)) q = appLinks elems q :=
  Heap.map_change_of_keeps Element.appLinks (Element.setTbl v) (fun _ => rfl) elems o q

@[simp] theorem appLinks_setHashv (hashv : UInt32) :
    appLinks (elems.change o (Element.setHashv hashv)) q = appLinks elems q :=
  Heap.map_change_of_keeps Element.appLinks (Element.setHashv hashv) (fun _ => rfl) elems o q

@[simp] theorem fixedOf_setNext : fixedOf (elems.change o (Element.setNext v)) q = fixedOf elems q :=
  Heap.map_change_of_keeps Element.fixed (Element.setNext v) (fun _ => rfl) elems o q

@[simp] theorem fixedOf_setPrev : fixedOf (elems.change o (Element.setPrev v)) q = fixedOf elems q :=
  Heap.map_change_of_keeps Element.fixed (Element.setPrev v) (fun _ => rfl) elems o q

@[simp] theorem fixedOf_setHhNext :
    fixedOf (elems.change o (Element.setHhNext v)) q = fixedOf elems q :=
  Heap.map_change_of_keeps Element.fixed (Element.setHhNext v) (fun _ => rfl) elems o q

@[simp] theorem fixedOf_setHhPrev :
    fixedOf (elems.change o (Element.setHhPrev v)) q = fixedOf elems q :=
  Heap.map_change_of_keeps Element.fixed (Element.setHhPrev v) (fun _ => rfl) elems o q

@[simp] theorem fixedOf_setTbl : fixedOf (elems.change o (Element.setTbl v)) q =
    if o = some q then (fixedOf elems q).map fun k => { k with tbl := v } else fixedOf elems q :=
  Heap.map_change Element.fixed (fun _ => rfl) elems o q

@[simp] theorem fixedOf_setHashv (hashv : UInt32) :
    fixedOf (elems.change o (Element.setHashv hashv)) q =
      if o = some q then (fixedOf elems q).map fun k => { k with hashv } else fixedOf elems q :=
  Heap.map_change Element.fixed (fun _ => rfl) elems o q

end Changes

/-- The chains of an array of buckets. An element is only in the chain of its own bucket. -/
structure Bucketed (n : Nat) (elems : Heap P (Element P κ ν)) (buckets : List (HashBucket P))
    (chains : Nat → List P) : Prop where
  linked : ∀ i b, buckets[i]? = some b →
    ∃ last, Double (bktLinks elems) none b.hhHead (chains i) last none
  count : ∀ i b, buckets[i]? = some b → b.count = (chains i).length
  nodup : ∀ i, (chains i).Nodup
  home : ∀ i p, p ∈ chains i → bktOf n elems p = some i

section Bucketed

variable {n : Nat} {elems elems' : Heap P (Element P κ ν)} {buckets : List (HashBucket P)}
  {chains : Nat → List P} {p : P} {b : HashBucket P} {i : Nat}

/-- Only the elements of the chains matter, and of those only the links and what stays fixed. -/
theorem Bucketed.congr (h : Bucketed n elems buckets chains)
    (hLinks : ∀ i, ∀ p ∈ chains i, bktLinks elems' p = bktLinks elems p)
    (hFixed : ∀ i, ∀ p ∈ chains i, fixedOf elems' p = fixedOf elems p) :
    Bucketed n elems' buckets chains where
  linked := by
    intro i b hb
    obtain ⟨last, hDouble⟩ := h.linked i b hb
    exact ⟨last, hDouble.congr fun p hp => hLinks i p hp⟩
  count := h.count
  nodup := h.nodup
  home := by
    intro i p hp
    rw [bktOf_eq_of_fixed n (hFixed i p hp)]
    exact h.home i p hp

theorem Bucketed.unique (h : Bucketed n elems buckets chains) {j : Nat} (hi : p ∈ chains i)
    (hj : p ∈ chains j) : i = j :=
  Option.some.inj ((h.home i p hi).symm.trans (h.home j p hj))

/-- The writes that put an element in front of the chain that begins with `first`. -/
structure Pushed (elems elems' : Heap P (Element P κ ν)) (p : P) (first : Option P) : Prop where
  new : bktLinks elems' p = some ⟨none, first⟩
  head : ∀ q k, first = some q → bktLinks elems q = some k →
    bktLinks elems' q = some { k with prev := some p }
  other : ∀ q, q ≠ p → first ≠ some q → bktLinks elems' q = bktLinks elems q
  app : ∀ q, appLinks elems' q = appLinks elems q
  fixed : ∀ q, fixedOf elems' q = fixedOf elems q

theorem mem_update_cons {q : P} :
    (∃ j, q ∈ Function.update chains i (p :: chains i) j) ↔ q = p ∨ ∃ j, q ∈ chains j := by
  constructor
  · rintro ⟨j, hj⟩
    by_cases hEq : j = i
    · subst hEq
      rw [Function.update_self, List.mem_cons] at hj
      exact hj.imp_right fun h => ⟨j, h⟩
    · rw [Function.update_of_ne hEq] at hj
      exact Or.inr ⟨j, hj⟩
  · rintro (rfl | ⟨j, hj⟩)
    · exact ⟨i, by simp⟩
    · by_cases hEq : j = i
      · subst hEq
        exact ⟨j, by simp [hj]⟩
      · exact ⟨j, by rw [Function.update_of_ne hEq]; exact hj⟩

/-- In which order the links of the element itself are written makes no difference. -/
theorem pushed [DecidableEq P] {first : Option P} (hAllocated : (elems p).isSome = true) (hFirst : first ≠ some p) :
    Pushed elems (((elems.change (some p) (Element.setHhNext first)).change (some p)
        (Element.setHhPrev none)).change first (Element.setHhPrev (some p))) p first ∧
      Pushed elems (((elems.change (some p) (Element.setHhPrev none)).change (some p)
        (Element.setHhNext first)).change first (Element.setHhPrev (some p))) p first := by
  rw [← isSome_bktLinks] at hAllocated
  obtain ⟨k, hk⟩ := Option.isSome_iff_exists.mp hAllocated
  have hOther : ∀ q, first = some q → p ≠ q := by
    rintro q hq rfl
    exact hFirst hq
  constructor
  · refine ⟨by simp [hFirst, hk], fun q k' hq hk' => by simp [hq, hOther q hq, hk'],
      fun q hq hNe => by simp [hNe, Ne.symm hq], by simp, by simp⟩
  · refine ⟨by simp [hFirst, hk], fun q k' hq hk' => by simp [hq, hOther q hq, hk'],
      fun q hq hNe => by simp [hNe, Ne.symm hq], by simp, by simp⟩

theorem Bucketed.push (h : Bucketed n elems buckets chains) (hb : buckets[i]? = some b)
    (hPushed : Pushed elems elems' p b.hhHead) (hFresh : ∀ j, p ∉ chains j)
    (hHome : bktOf n elems p = some i) (expandMult : Nat) :
    Bucketed n elems' (buckets.set i ⟨some p, b.count + 1, expandMult⟩)
      (Function.update chains i (p :: chains i)) where
  linked := by
    intro j c hc
    by_cases hEq : j = i
    · subst hEq
      rw [List.getElem?_set_self (List.getElem?_eq_some_iff.mp hb).1] at hc
      cases hc
      obtain ⟨last, hDouble⟩ := h.linked j b hb
      rw [Function.update_self]
      refine ⟨_, hDouble.pushFront (h.nodup j) hPushed.new hPushed.head fun q hq hNe => ?_⟩
      refine hPushed.other q (fun hSame => ?_) hNe
      rw [hSame] at hq
      exact hFresh j hq
    · rw [List.getElem?_set_ne (Ne.symm hEq)] at hc
      obtain ⟨last, hDouble⟩ := h.linked j c hc
      rw [Function.update_of_ne hEq]
      refine ⟨last, hDouble.congr fun q hq => hPushed.other q (fun hSame => ?_) fun hFirst => ?_⟩
      · rw [hSame] at hq
        exact hFresh j hq
      · obtain ⟨last', hHead⟩ := h.linked i b hb
        exact hEq (h.unique hq (hHead.first_mem hFirst))
  count := by
    intro j c hc
    by_cases hEq : j = i
    · subst hEq
      rw [List.getElem?_set_self (List.getElem?_eq_some_iff.mp hb).1] at hc
      cases hc
      rw [Function.update_self, List.length_cons, h.count j b hb]
    · rw [List.getElem?_set_ne (Ne.symm hEq)] at hc
      rw [Function.update_of_ne hEq, h.count j c hc]
  nodup := by
    intro j
    by_cases hEq : j = i
    · subst hEq
      rw [Function.update_self]
      exact List.nodup_cons.mpr ⟨hFresh j, h.nodup j⟩
    · rw [Function.update_of_ne hEq]
      exact h.nodup j
  home := by
    intro j q hq
    rw [bktOf_eq_of_fixed n (hPushed.fixed q)]
    by_cases hEq : j = i
    · subst hEq
      rw [Function.update_self, List.mem_cons] at hq
      rcases hq with rfl | hq
      · exact hHome
      · exact h.home j q hq
    · rw [Function.update_of_ne hEq] at hq
      exact h.home j q hq

end Bucketed

variable {hash : κ → UInt32} {s : Hash P κ ν} {elems : Heap P (Element P κ ν)} {tp : P}
  {t : HashTable P} {xs : List P} {chains : Nat → List P} {p : P}

theorem hashToBkt_lt (hashv : UInt32) (k : Nat) : hashToBkt hashv (2 ^ k) < 2 ^ k := by
  rw [hashToBkt, Nat.and_two_pow_sub_one_eq_mod]
  exact Nat.mod_lt _ (Nat.two_pow_pos k)

theorem bucketAt_eq {buckets : List (HashBucket P)} {i : Nat} {b : HashBucket P}
    (h : buckets[i]? = some b) : bucketAt buckets i = .ok b := by
  rw [bucketAt, h]

section Find

variable [DecidableEq κ]

/-- The walk along a chain ends at the first element with the key. -/
theorem findInBkt_eq {before first last : Option P}
    {ps : List P} {fuel : Nat} (key : κ) (h : Double (bktLinks elems) before first ps last none)
    (hHash : ∀ p ∈ ps, ∃ f, fixedOf elems p = some f ∧ f.hashv = hash f.key) (hFuel : ps.length ≤ fuel) :
    findInBkt elems key (hash key) fuel first =
      .ok (ps.find? fun p => keyOf elems p = some key) := by
  induction ps generalizing before first fuel with
  | nil =>
    rw [h.1, List.find?_nil]
    cases fuel <;> rfl
  | cons p ps ih =>
    obtain ⟨rfl, next, hLinks, hRest⟩ := h
    obtain ⟨fuel, rfl⟩ : ∃ n, fuel = n + 1 := ⟨fuel - 1, by simp at hFuel; omega⟩
    obtain ⟨f, hf, hHashv⟩ := hHash p List.mem_cons_self
    obtain ⟨e, he, rfl⟩ := Option.map_eq_some_iff.mp hf
    obtain ⟨e', he', hNext⟩ := Option.map_eq_some_iff.mp hLinks
    rw [he] at he'
    cases he'
    change e.hh.hashv = hash e.key at hHashv
    have hKey : keyOf elems p = some e.key := by rw [keyOf, he, Option.map_some]
    rw [findInBkt, Heap.load_eq he, ok_bind]
    by_cases hEq : e.key = key
    · subst hEq
      rw [if_pos ⟨hHashv, rfl⟩, List.find?_cons_of_pos (by simp [hKey])]
      rfl
    · rw [if_neg fun hBoth => hEq hBoth.2, List.find?_cons_of_neg (by simp [hKey, hEq])]
      have hTail : e.hh.hhNext = next := congrArg Links.next hNext
      rw [hTail]
      exact ih hRest (fun q hq => hHash q (List.mem_cons_of_mem _ hq)) (by simpa using hFuel)

/-- No two of the elements have the same key. -/
def DistinctKeys (elems : Heap P (Element P κ ν)) (xs : List P) : Prop :=
  ∀ p ∈ xs, ∀ q ∈ xs, keyOf elems p = keyOf elems q → p = q

theorem DistinctKeys.find?_eq_some (h : DistinctKeys elems xs)
    {key : κ} : xs.find? (fun p => keyOf elems p = some key) = some p ↔
      p ∈ xs ∧ keyOf elems p = some key := by
  constructor
  · intro hFind
    exact ⟨List.mem_of_find?_eq_some hFind, by simpa using List.find?_some hFind⟩
  · rintro ⟨hp, hKey⟩
    have hFound : (xs.find? fun p => keyOf elems p = some key).isSome = true :=
      List.find?_isSome.mpr ⟨p, hp, by simpa using hKey⟩
    obtain ⟨q, hq⟩ := Option.isSome_iff_exists.mp hFound
    have hqKey : keyOf elems q = some key := by simpa using List.find?_some hq
    rw [hq, h p hp q (List.mem_of_find?_eq_some hq) (hKey.trans hqKey.symm)]

end Find

/-- The linkage in bucket order, over the whole array. -/
structure Distributed (elems : Heap P (Element P κ ν)) (t : HashTable P) (xs : List P)
    (chains : Nat → List P) : Prop where
  bucketed : Bucketed t.numBuckets elems t.buckets chains
  members : ∀ p, p ∈ xs ↔ ∃ i, p ∈ chains i
  size : t.buckets.length = t.numBuckets
  log2 : t.numBuckets = 2 ^ t.log2NumBuckets

theorem Distributed.bucket (h : Distributed elems t xs chains)
    (hashv : UInt32) : ∃ b, t.buckets[hashToBkt hashv t.numBuckets]? = some b := by
  have hLt : hashToBkt hashv t.numBuckets < t.buckets.length := by
    rw [h.size, h.log2]
    exact hashToBkt_lt hashv t.log2NumBuckets
  exact ⟨_, List.getElem?_eq_getElem hLt⟩

theorem Distributed.bucketsOf (h : Distributed elems t xs chains) :
    bucketsOf t = .ok t.buckets := if_pos h.size

theorem Distributed.chain_length (h : Distributed elems t xs chains)
    (i : Nat) : (chains i).length ≤ xs.length :=
  (h.bucketed.nodup i).length_le_of_subset fun p hp => (h.members p).mpr ⟨i, hp⟩

variable [DecidableEq P]

/-- The linkage in app order, and what the handles say of their elements. -/
structure Ordered (hash : κ → UInt32) (s : Hash P κ ν) (tp : P) (t : HashTable P) (xs : List P) :
    Prop where
  nodup : xs.Nodup
  app : Double (appLinks s.elems) none s.head xs t.tail none
  tables : s.tables = Heap.empty.set tp t
  handles : ∀ p ∈ xs, ∃ f, fixedOf s.elems p = some f ∧ f.tbl = some tp ∧ f.hashv = hash f.key

/-- The elements `xs` are in the hash, in this order. An empty hash has no table. -/
def Represents (hash : κ → UInt32) (s : Hash P κ ν) (xs : List P) : Prop :=
  (xs = [] ∧ s.head = none ∧ s.tables = Heap.empty) ∨
    (xs ≠ [] ∧ ∃ tp t chains,
      Ordered hash s tp t xs ∧ Distributed s.elems t xs chains ∧ t.numItems = xs.length)

theorem Ordered.allocated (h : Ordered hash s tp t xs) (hp : p ∈ xs) : (s.elems p).isSome = true := by
  obtain ⟨f, hf, -⟩ := h.handles p hp
  rw [← isSome_fixedOf, hf]
  rfl

theorem Ordered.tblOf (h : Ordered hash s tp t xs) (hp : p ∈ xs) : Uthash.tblOf s p = .ok (tp, t) := by
  obtain ⟨f, hf, hTbl, -⟩ := h.handles p hp
  obtain ⟨e, he, rfl⟩ := Option.map_eq_some_iff.mp hf
  have hTable : s.tables tp = some t := by rw [h.tables, Heap.set_same]
  rw [Uthash.tblOf, Heap.load_eq he, ok_bind]
  change e.hh.tbl = some tp at hTbl
  rw [hTbl]
  simp only [Heap.load_eq hTable, ok_bind]
  rfl

theorem Ordered.head_mem (h : Ordered hash s tp t xs) (hSome : xs ≠ []) :
    ∃ p ∈ xs, s.head = some p := by
  cases xs with
  | nil => exact absurd rfl hSome
  | cons p ps => exact ⟨p, List.mem_cons_self, h.app.1⟩

theorem Ordered.tableOf (h : Ordered hash s tp t xs) (hSome : xs ≠ []) :
    Uthash.tableOf s = .ok (tp, t) := by
  obtain ⟨p, hp, hHead⟩ := h.head_mem hSome
  rw [Uthash.tableOf, hHead]
  exact h.tblOf hp

theorem Represents.nodup (h : Represents hash s xs) : xs.Nodup := by
  rcases h with ⟨rfl, -⟩ | ⟨-, tp, t, chains, hOrdered, -⟩
  · exact List.nodup_nil
  · exact hOrdered.nodup

theorem Represents.allocated (h : Represents hash s xs) (hp : p ∈ xs) :
    (s.elems p).isSome = true := by
  rcases h with ⟨rfl, -⟩ | ⟨-, tp, t, chains, hOrdered, -⟩
  · cases hp
  · exact hOrdered.allocated hp

/-- The caller may change the values of its elements, but neither keys nor handles. -/
theorem Represents.congr {elems' : Heap P (Element P κ ν)} (h : Represents hash s xs)
    (hSame : ∀ p ∈ xs, (elems' p).map (fun e => (e.key, e.hh)) =
      (s.elems p).map fun e => (e.key, e.hh)) :
    Represents hash { s with elems := elems' } xs := by
  rcases h with ⟨rfl, hHead, hTables⟩ | ⟨hSome, tp, t, chains, hOrdered, hDistributed, hItems⟩
  · exact Or.inl ⟨rfl, hHead, hTables⟩
  · have hParts : ∀ {γ : Type} (f : κ × HashHandle P → γ), ∀ p ∈ xs,
        (elems' p).map (fun e => f (e.key, e.hh)) =
          (s.elems p).map fun e => f (e.key, e.hh) := by
      intro γ f p hp
      have h := congrArg (fun x => x.map f) (hSame p hp)
      simpa only [Option.map_map, Function.comp_def] using h
    refine Or.inr ⟨hSome, tp, t, chains, ⟨hOrdered.nodup, ?_, hOrdered.tables, ?_⟩,
      ⟨⟨?_, hDistributed.bucketed.count, hDistributed.bucketed.nodup, ?_⟩, hDistributed.members,
        hDistributed.size, hDistributed.log2⟩, hItems⟩
    · exact hOrdered.app.congr (hParts fun x => (⟨x.2.prev, x.2.next⟩ : Links P))
    · intro p hp
      obtain ⟨f, hf, hTbl, hHash⟩ := hOrdered.handles p hp
      obtain ⟨e, he, rfl⟩ := Option.map_eq_some_iff.mp hf
      have hSame' := hSame p hp
      rw [he, Option.map_some] at hSame'
      obtain ⟨e', he', hEq⟩ := Option.map_eq_some_iff.mp hSame'
      rw [Prod.mk.injEq] at hEq
      refine ⟨e'.fixed, by simp [fixedOf, he'], ?_, ?_⟩
      · simpa [Element.fixed, hEq] using hTbl
      · simpa [Element.fixed, hEq] using hHash
    · intro i b hb
      obtain ⟨last, hDouble⟩ := hDistributed.bucketed.linked i b hb
      exact ⟨last, hDouble.congr fun p hp =>
        hParts (fun x => (⟨x.2.hhPrev, x.2.hhNext⟩ : Links P)) p
          ((hDistributed.members p).mpr ⟨i, hp⟩)⟩
    · intro i p hp
      have hEq := hParts (fun x => hashToBkt x.2.hashv t.numBuckets) p
        ((hDistributed.members p).mpr ⟨i, hp⟩)
      exact hEq.trans (hDistributed.bucketed.home i p hp)

theorem hashCount_eq (h : Represents hash s xs) : hashCount s = .ok xs.length := by
  rcases h with ⟨rfl, hHead, -⟩ | ⟨hSome, tp, t, chains, hOrdered, -, hItems⟩
  · rw [hashCount, hHead, List.length_nil]
  · obtain ⟨p, hp, hHead⟩ := hOrdered.head_mem hSome
    rw [hashCount, hHead]
    simp only [hOrdered.tableOf hSome, ok_bind, ← hItems]
    rfl

/-- The lookup finds what a search through the elements in app order finds. -/
theorem hashFind_eq [DecidableEq κ] {fuel : Nat} (h : Represents hash s xs) (hKeys : DistinctKeys s.elems xs)
    (hFuel : xs.length ≤ fuel) (key : κ) :
    hashFind hash fuel s key = .ok (xs.find? fun p => keyOf s.elems p = some key) := by
  rcases h with ⟨rfl, hHead, -⟩ | ⟨hSome, tp, t, chains, hOrdered, hDistributed, -⟩
  · rw [hashFind, hHead, List.find?_nil]
  obtain ⟨p, hp, hHead⟩ := hOrdered.head_mem hSome
  obtain ⟨b, hb⟩ := hDistributed.bucket (hash key)
  obtain ⟨last, hChain⟩ := hDistributed.bucketed.linked _ b hb
  have hIn : ∀ i, ∀ q ∈ chains i, q ∈ xs := fun i q hq => (hDistributed.members q).mpr ⟨i, hq⟩
  have hWalk := findInBkt_eq key hChain
    (fun q hq => by
      obtain ⟨f, hf, -, hHashv⟩ := hOrdered.handles q (hIn _ q hq)
      exact ⟨f, hf, hHashv⟩)
    (Nat.le_trans (hDistributed.chain_length _) hFuel)
  have hDistinct : DistinctKeys s.elems (chains (hashToBkt (hash key) t.numBuckets)) :=
    fun q hq r hr => hKeys q (hIn _ q hq) r (hIn _ r hr)
  rw [hashFind, hHead]
  simp only [hOrdered.tableOf hSome, ok_bind, bucketAt_eq hb, hWalk]
  congr 1
  apply Option.ext
  intro q
  rw [hDistinct.find?_eq_some, hKeys.find?_eq_some]
  -- an element with the key is in the chain that the key selects
  refine and_congr_left fun hKey => ⟨hIn _ q, fun hq => ?_⟩
  obtain ⟨i, hi⟩ := (hDistributed.members q).mp hq
  obtain ⟨f, hf, -, hHashv⟩ := hOrdered.handles q hq
  obtain ⟨e, he, rfl⟩ := Option.map_eq_some_iff.mp hf
  have hHome := hDistributed.bucketed.home i q hi
  rw [bktOf, he, Option.map_some, Option.some.injEq] at hHome
  rw [keyOf, he, Option.map_some, Option.some.injEq] at hKey
  change e.hh.hashv = hash e.key at hHashv
  rw [← hKey, ← hHashv, hHome]
  exact hi

end CMeshApi.Uthash
