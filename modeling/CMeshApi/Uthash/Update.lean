import CMeshApi.Uthash.Expand

/-!
# Adding and deleting elements

An addition appends the element to the app order and then pushes it to the front of
its chain; a deletion takes it out of both. Either way the elements that the hash
represents are those of the list operation, and no key and no value changes.
-/

namespace CMeshApi.Uthash

open Chains Heaps

variable {P κ ν : Type} [DecidableEq P] {hash : κ → UInt32} {s : Hash P κ ν} {tp : P}
  {t : HashTable P} {xs : List P} {chains : Nat → List P} {p : P} {fuel : Nat}

theorem Ordered.table (h : Ordered hash s tp t xs) : s.tables tp = some t := by
  rw [h.tables, Heap.set_same]

theorem hashAddToBkt_ends {f : Fixed P κ ν} (hOrdered : Ordered hash s tp t (xs ++ [p]))
    (hDistributed : Distributed s.elems t xs chains) (hNew : p ∉ xs)
    (hFixed : fixedOf s.elems p = some f) (hItems : t.numItems = xs.length + 1)
    (hFuel : xs.length + 1 ≤ fuel) (expansion : Bool) :
    Ends (expansion = false)
      (hashAddToBkt fuel s tp (hashToBkt f.hashv t.numBuckets) p expansion)
      fun s' => Represents hash s' (xs ++ [p]) ∧ Relinked s s' := by
  obtain ⟨b, hb⟩ := hDistributed.bucket f.hashv
  obtain ⟨last, hChain⟩ := hDistributed.bucketed.linked _ b hb
  have hFresh : ∀ j, p ∉ chains j := fun j hj => hNew ((hDistributed.members p).mpr ⟨j, hj⟩)
  have hIn : ∀ q, b.hhHead = some q → q ∈ xs := fun q hq =>
    (hDistributed.members q).mpr ⟨_, hChain.first_mem hq⟩
  have hAllocated : (s.elems p).isSome = true := hOrdered.allocated (List.mem_append_right _ (by simp))
  have hHome : bktOf t.numBuckets s.elems p = some (hashToBkt f.hashv t.numBuckets) := by
    obtain ⟨e, he, rfl⟩ := Option.map_eq_some_iff.mp hFixed
    rw [bktOf, he, Option.map_some]
    rfl
  have hPushed := (pushed hAllocated fun hEq => hNew (hIn p hEq)).1
  have hPush := hDistributed.bucketed.push hb hPushed hFresh hHome b.expandMult
  rw [hashAddToBkt, Heap.load_eq hOrdered.table]
  simp only [ok_bind, bucketAt_eq hb, Heap.modify_eq hAllocated,
    Heap.modify_eq (h := s.elems.change (some p) (Element.setHhNext b.hhHead))
      (by rw [Heap.isSome_change]; exact hAllocated),
    Heap.modifyIf_eq (h := (s.elems.change (some p) (Element.setHhNext b.hhHead)).change (some p)
      (Element.setHhPrev none)) (fun q hq => by
        rw [Heap.isSome_change, Heap.isSome_change]
        exact hOrdered.allocated (List.mem_append_left _ (hIn q hq)))]
  -- the state before a possible expansion
  let t' : HashTable P := { t with
    buckets := t.buckets.set (hashToBkt f.hashv t.numBuckets) ⟨some p, b.count + 1, b.expandMult⟩ }
  let elems' := ((s.elems.change (some p) (Element.setHhNext b.hhHead)).change (some p)
    (Element.setHhPrev none)).change b.hhHead (Element.setHhPrev (some p))
  have hRelinked : Relinked s { s with elems := elems', tables := s.tables.set tp t' } :=
    ⟨rfl, hPushed.app, hPushed.fixed⟩
  have hOrdered' : Ordered hash { s with elems := elems', tables := s.tables.set tp t' } tp t'
      (xs ++ [p]) := hOrdered.relinked hRelinked (hOrdered.set_tables t') rfl
  have hDistributed' : Distributed elems' t' (xs ++ [p]) (Function.update chains
      (hashToBkt f.hashv t.numBuckets) (p :: chains (hashToBkt f.hashv t.numBuckets))) := by
    refine ⟨hPush, fun q => ?_, List.length_set.trans hDistributed.size, hDistributed.log2⟩
    rw [mem_update_cons, List.mem_append, List.mem_singleton, or_comm, hDistributed.members]
  have hLength : (xs ++ [p]).length = xs.length + 1 := List.length_append
  have hSome : xs ++ [p] ≠ [] := List.append_ne_nil_of_right_ne_nil xs (List.cons_ne_nil p [])
  have hTbl := hOrdered'.tblOf (List.mem_append_right xs (List.mem_singleton_self p))
  dsimp only [elems', t'] at hTbl
  rw [hTbl, ok_bind]
  dsimp only
  split
  · refine (hashExpandBuckets_ends hOrdered' hDistributed' (hLength ▸ hFuel) expansion).mono id ?_
    rintro s' ⟨t'', chains'', hOrdered'', hDistributed'', hItems'', hRelinked'⟩
    refine ⟨Or.inr ⟨hSome, tp, t'', chains'', hOrdered'', hDistributed'', ?_⟩, ?_⟩
    · rw [hItems'', hLength]
      exact hItems
    · exact ⟨hRelinked'.head.trans hRelinked.head,
        fun q => (hRelinked'.app q).trans (hRelinked.app q),
        fun q => (hRelinked'.fixed q).trans (hRelinked.fixed q)⟩
  · exact ⟨Or.inr ⟨hSome, tp, t', _, hOrdered', hDistributed', hItems.trans hLength.symm⟩, hRelinked⟩

theorem hashAddToTable_ends {f : Fixed P κ ν} (hOrdered : Ordered hash s tp t (xs ++ [p]))
    (hDistributed : Distributed s.elems t xs chains) (hNew : p ∉ xs)
    (hFixed : fixedOf s.elems p = some f) (hItems : t.numItems = xs.length)
    (hFuel : xs.length + 1 ≤ fuel) (expansion : Bool) :
    Ends (expansion = false) (hashAddToTable fuel s f.hashv p expansion)
      fun s' => Represents hash s' (xs ++ [p]) ∧ Relinked s s' := by
  have hSome : xs ++ [p] ≠ [] := List.append_ne_nil_of_right_ne_nil xs (List.cons_ne_nil p [])
  let t' : HashTable P := { t with numItems := t.numItems + 1 }
  let s₁ : Hash P κ ν := { s with tables := s.tables.set tp t' }
  have hOrdered' : Ordered hash s₁ tp t' (xs ++ [p]) :=
    hOrdered.congr rfl (fun _ _ => rfl) (fun _ _ => rfl) (hOrdered.set_tables t') rfl
  have hDistributed' : Distributed s₁.elems t' xs chains :=
    hDistributed.congr (fun _ _ => rfl) (fun _ _ => rfl) rfl rfl rfl
  rw [hashAddToTable, hOrdered.tableOf hSome]
  refine (hashAddToBkt_ends hOrdered' hDistributed' hNew hFixed (congrArg (· + 1) hItems) hFuel
    expansion).mono id ?_
  rintro s' ⟨hRepresents, hRelinked⟩
  exact ⟨hRepresents, hRelinked.head, hRelinked.app, hRelinked.fixed⟩

theorem hashAppendList_eq {f : Fixed P κ ν} (hOrdered : Ordered hash s tp t xs) (hSome : xs ≠ [])
    (hNew : p ∉ xs) (hFixed : fixedOf s.elems p = some f) (hTbl : f.tbl = some tp)
    (hHash : f.hashv = hash f.key) :
    ∃ s', hashAppendList s p = .ok s' ∧
      Ordered hash s' tp { t with tail := some p } (xs ++ [p]) ∧
      (∀ q, bktLinks s'.elems q = bktLinks s.elems q) ∧ ∀ q, fixedOf s'.elems q = fixedOf s.elems q := by
  obtain ⟨tail, hTailMem, hTail⟩ := hOrdered.app.last_mem hSome
  have hNe : p ≠ tail := fun hEq => hNew (hEq ▸ hTailMem)
  have hAllocated : (s.elems p).isSome = true := by
    rw [← isSome_fixedOf, hFixed]
    rfl
  let elems' := ((s.elems.change (some p) (Element.setNext none)).change (some p)
    (Element.setPrev (some tail))).change (some tail) (Element.setNext (some p))
  have hTable : (s.tables tp).isSome = true := by rw [hOrdered.table]; rfl
  refine ⟨{ s with elems := elems', tables := Heap.empty.set tp { t with tail := some p } }, ?_, ?_,
    by simp [elems'], by simp [elems']⟩
  · rw [hashAppendList, hOrdered.tableOf hSome]
    simp only [ok_bind, hTail, Heap.modify_eq hAllocated,
      Heap.modify_eq (h := s.elems.change (some p) (Element.setNext none))
        (by rw [Heap.isSome_change]; exact hAllocated),
      Heap.modify_eq (h := (s.elems.change (some p) (Element.setNext none)).change (some p)
        (Element.setPrev (some tail))) (p := tail) (by
          rw [Heap.isSome_change, Heap.isSome_change]
          exact hOrdered.allocated hTailMem),
      Heap.modify_eq hTable]
    rw [hOrdered.tables, Heap.change_set]
    rfl
  · obtain ⟨k, hk⟩ := Option.isSome_iff_exists.mp ((isSome_appLinks s.elems p).trans hAllocated)
    have hApp : Double (appLinks elems') none _ (xs ++ [p]) (some p) none := hOrdered.app.pushBack
      hOrdered.nodup
      (by simp [elems', hTail, hk, hNe.symm])
      (fun q k' hq hMem hk' => by
        have hqp : p ≠ q := fun hEq => hNew (hEq ▸ hMem)
        rw [hTail] at hq
        cases hq
        simp [elems', hk', hqp])
      (fun q hq hOther => by
        have hqp : p ≠ q := fun hEq => hNew (hEq ▸ hq)
        rw [hTail] at hOther
        have hqt : tail ≠ q := fun hEq => hOther (congrArg some hEq)
        simp [elems', hqp, hqt])
    rw [if_neg hSome] at hApp
    refine ⟨List.nodup_append.mpr ⟨hOrdered.nodup, List.nodup_singleton p, fun q hq r hr hEq => ?_⟩,
      hApp, rfl, fun q hq => ?_⟩
    · rw [hEq, List.mem_singleton.mp hr] at hq
      exact hNew hq
    · rw [show fixedOf elems' q = fixedOf s.elems q by simp [elems']]
      rcases List.mem_append.mp hq with hq | hq
      · exact hOrdered.handles q hq
      · rw [List.mem_singleton.mp hq]
        exact ⟨f, hFixed, hTbl, hHash⟩

/-- The allocations that an addition may ask for are not all granted. -/
def HashAllocs.Refuses (allocs : HashAllocs P) : Prop :=
  allocs.table = none ∨ allocs.buckets = false ∨ allocs.expansion = false

theorem hashMakeTable_ends {f : Fixed P κ ν} (allocs : HashAllocs P)
    (hLinks : appLinks s.elems p = some ⟨none, none⟩) (hFixed : fixedOf s.elems p = some f)
    (hHash : f.hashv = hash f.key) (hTables : s.tables = Heap.empty) :
    Ends (allocs.table = none ∨ allocs.buckets = false) (hashMakeTable s p allocs) fun s' =>
      ∃ tp t, Ordered hash { s' with head := some p } tp t ([] ++ [p]) ∧
        Distributed s'.elems t [] (fun _ => []) ∧ t.numItems = 0 ∧
        (∀ q, contents s'.elems q = contents s.elems q) ∧
        fixedOf s'.elems p = some { f with tbl := some tp } := by
  unfold hashMakeTable
  cases hTable : allocs.table with
  | none => exact Or.inl rfl
  | some tp =>
    have hAllocated : (s.elems p).isSome = true := by
      rw [← isSome_fixedOf, hFixed]
      rfl
    simp only [Heap.modify_eq hAllocated, ok_bind]
    cases hBuckets : allocs.buckets with
    | false => exact Or.inr rfl
    | true =>
      have hNewFixed : fixedOf (s.elems.change (some p) (Element.setTbl (some tp))) p =
          some { f with tbl := some tp } := by simp [hFixed]
      refine ⟨tp, HashTable.initial p, ⟨List.nodup_singleton p, ⟨rfl, none, ?_, rfl, rfl⟩, ?_, ?_⟩,
        ⟨bucketed_zero _ _ _, by simp, List.length_replicate, rfl⟩, rfl, ?_, hNewFixed⟩
      · rw [appLinks_setTbl]
        exact hLinks
      · change s.tables.set tp _ = _
        rw [hTables]
      · intro q hq
        rw [List.mem_singleton.mp hq]
        exact ⟨_, hNewFixed, rfl, hHash⟩
      · exact Heap.map_change_of_keeps (fun e : Element P κ ν => (e.key, e.val))
          (Element.setTbl (some tp)) (fun _ => rfl) s.elems (some p)

theorem contents_setHashv (elems : Heap P (Element P κ ν)) (o : Option P) (hashv : UInt32) (q : P) :
    contents (elems.change o (Element.setHashv hashv)) q = contents elems q :=
  Heap.map_change_of_keeps (fun e : Element P κ ν => (e.key, e.val)) (Element.setHashv hashv)
    (fun _ => rfl) elems o q

theorem contents_setTbl (elems : Heap P (Element P κ ν)) (o : Option P) (tbl : Option P) (q : P) :
    contents (elems.change o (Element.setTbl tbl)) q = contents elems q :=
  Heap.map_change_of_keeps (fun e : Element P κ ν => (e.key, e.val)) (Element.setTbl tbl)
    (fun _ => rfl) elems o q

/-- The element is appended to those that the hash represents. -/
theorem hashAdd_ends {allocs : HashAllocs P} (h : Represents hash s xs) (hNew : p ∉ xs)
    (hAllocated : (s.elems p).isSome = true) (hFuel : xs.length + 1 ≤ fuel) :
    Ends allocs.Refuses (hashAdd hash fuel s p allocs) fun s' =>
      Represents hash s' (xs ++ [p]) ∧ ∀ q, contents s'.elems q = contents s.elems q := by
  obtain ⟨e, he⟩ := Option.isSome_iff_exists.mp hAllocated
  obtain ⟨elems₁, hElems₁⟩ : ∃ x, x = s.elems.change (some p) (Element.setHashv (hash e.key)) :=
    ⟨_, rfl⟩
  have hAllocated₁ : (elems₁ p).isSome = true := by
    rw [hElems₁, Heap.isSome_change]
    exact hAllocated
  have hFixed₁ : fixedOf elems₁ p = some { e.fixed with hashv := hash e.key } := by
    simp [hElems₁, fixedOf, Heap.change_same, he, Element.fixed, Element.setHashv]
  have hContents₁ : ∀ q, contents elems₁ q = contents s.elems q := by
    rw [hElems₁]
    exact contents_setHashv s.elems (some p) (hash e.key)
  rw [hashAdd, Heap.load_eq he]
  simp only [ok_bind, Heap.modify_eq hAllocated, ← hElems₁]
  rcases h with ⟨rfl, hHead, hTables⟩ | ⟨hSome, tp, t, chains, hOrdered, hDistributed, hItems⟩
  · -- the first element brings its table with it
    obtain ⟨elems₂, hElems₂⟩ : ∃ x, x = elems₁.change (some p) (Element.setNext none) := ⟨_, rfl⟩
    obtain ⟨elems₃, hElems₃⟩ : ∃ x, x = elems₂.change (some p) (Element.setPrev none) := ⟨_, rfl⟩
    have hAllocated₂ : (elems₂ p).isSome = true := by
      rw [hElems₂, Heap.isSome_change]
      exact hAllocated₁
    obtain ⟨k, hk⟩ := Option.isSome_iff_exists.mp ((isSome_appLinks elems₁ p).trans hAllocated₁)
    have hLinks : appLinks elems₃ p = some ⟨none, none⟩ := by simp [hElems₃, hElems₂, hk]
    have hSame : ∀ q, fixedOf elems₃ q = fixedOf elems₁ q := by simp [hElems₃, hElems₂]
    simp only [hHead, Heap.modify_eq hAllocated₁, ok_bind, ← hElems₂, Heap.modify_eq hAllocated₂,
      ← hElems₃]
    have hMade := hashMakeTable_ends (s := { s with elems := elems₃ }) allocs hLinks
      ((hSame p).trans hFixed₁) (show _ = hash e.key from rfl) hTables
    rw [hHead] at hMade
    refine (hMade.mono (fun hOr => ?_) fun _ h => h).bind ?_
    · rcases hOr with hOr | hOr
      · exact Or.inl hOr
      · exact Or.inr (Or.inl hOr)
    rintro s₁ ⟨tp, t, hOrdered, hDistributed, hItems, hContents, hFixed⟩
    refine (hashAddToTable_ends hOrdered hDistributed List.not_mem_nil hFixed hItems hFuel
      allocs.expansion).mono (fun h => Or.inr (Or.inr h)) ?_
    rintro s' ⟨hRepresents, hRelinked⟩
    refine ⟨hRepresents, fun q => (contents_eq_of_fixed (hRelinked.fixed q)).trans ?_⟩
    exact (hContents q).trans ((contents_eq_of_fixed (hSame q)).trans (hContents₁ q))
  · obtain ⟨q, hq, hHead⟩ := hOrdered.head_mem hSome
    have hOther : ∀ q ∈ xs, p ≠ q := fun q hq hEq => hNew (hEq ▸ hq)
    have hOrdered₁ : Ordered hash { s with elems := elems₁ } tp t xs :=
      hOrdered.congr rfl (fun q _ => by simp [hElems₁])
        (fun q hq => by simp [hElems₁, hOther q hq]) hOrdered.tables rfl
    obtain ⟨elems₂, hElems₂⟩ : ∃ x, x = elems₁.change (some p) (Element.setTbl (some tp)) := ⟨_, rfl⟩
    have hOrdered₂ : Ordered hash { s with elems := elems₂ } tp t xs :=
      hOrdered₁.congr rfl (fun q _ => by simp [hElems₂])
        (fun q hq => by simp [hElems₂, hOther q hq]) hOrdered.tables rfl
    have hFixed₂ : fixedOf elems₂ p = some ⟨e.key, e.val, some tp, hash e.key⟩ := by
      simp [hElems₂, hFixed₁, Element.fixed]
    obtain ⟨s', hAppend, hOrdered', hBkt, hFixed'⟩ :=
      hashAppendList_eq hOrdered₂ hSome hNew hFixed₂ rfl rfl
    have hDistributed' : Distributed s'.elems { t with tail := some p } xs chains := by
      refine hDistributed.congr (fun q _ => ?_) (fun q hq => ?_) rfl rfl rfl
      · rw [hBkt]
        simp [hElems₂, hElems₁]
      · rw [hFixed']
        simp [hElems₂, hElems₁, hOther q hq]
    have hTable := hOrdered₁.tableOf hSome
    rw [hHead] at hTable hAppend
    simp only [hHead, hTable, ok_bind, Heap.modify_eq hAllocated₁, ← hElems₂, hAppend]
    refine (hashAddToTable_ends hOrdered' hDistributed' hNew ((hFixed' p).trans hFixed₂) hItems hFuel
      allocs.expansion).mono (fun h => Or.inr (Or.inr h)) ?_
    rintro s'' ⟨hRepresents, hRelinked⟩
    refine ⟨hRepresents, fun q => (contents_eq_of_fixed (hRelinked.fixed q)).trans ?_⟩
    refine (contents_eq_of_fixed (hFixed' q)).trans ?_
    rw [hElems₂]
    exact (contents_setTbl elems₁ (some p) _ q).trans (hContents₁ q)

theorem Bucketed.erase {n i : Nat} {elems elems' : Heap P (Element P κ ν)}
    {buckets : List (HashBucket P)} {b : HashBucket P} {prev next : Option P}
    (h : Bucketed n elems buckets chains) (hb : buckets[i]? = some b) (hp : p ∈ chains i)
    (hLinks : bktLinks elems p = some ⟨prev, next⟩)
    (hUnlinked : ∀ q, bktLinks elems' q = unlinked (bktLinks elems) prev next q)
    (hFixed : ∀ q, fixedOf elems' q = fixedOf elems q) (expandMult : Nat) :
    Bucketed n elems' (buckets.set i ⟨if b.hhHead = some p then next else b.hhHead, b.count - 1,
      expandMult⟩) fun j => (chains j).erase p where
  linked := by
    obtain ⟨last, hChain⟩ := h.linked i b hb
    obtain ⟨-, hPrev, hNext, -⟩ := hChain.alone (h.nodup i) hp hLinks
    intro j c hc
    by_cases hEq : j = i
    · subst hEq
      rw [List.getElem?_set_self (List.getElem?_eq_some_iff.mp hb).1] at hc
      cases hc
      exact ⟨_, (hChain.erase (h.nodup j) hp hLinks).congr fun q _ => hUnlinked q⟩
    · rw [List.getElem?_set_ne (Ne.symm hEq)] at hc
      obtain ⟨last', hOther⟩ := h.linked j c hc
      rw [List.erase_of_not_mem fun hp' => hEq (h.unique hp' hp)]
      refine ⟨last', hOther.congr fun q hq => ?_⟩
      have hNotPrev : prev ≠ some q := fun hEq' => hEq (h.unique hq (hPrev q hEq'))
      have hNotNext : next ≠ some q := fun hEq' => hEq (h.unique hq (hNext q hEq'))
      rw [hUnlinked]
      simp [unlinked, hNotPrev, hNotNext]
  count := by
    intro j c hc
    by_cases hEq : j = i
    · subst hEq
      rw [List.getElem?_set_self (List.getElem?_eq_some_iff.mp hb).1] at hc
      cases hc
      rw [List.length_erase_of_mem hp, h.count j b hb]
    · rw [List.getElem?_set_ne (Ne.symm hEq)] at hc
      rw [List.erase_of_not_mem fun hp' => hEq (h.unique hp' hp), h.count j c hc]
  nodup := fun j => (h.nodup j).erase p
  home := by
    intro j q hq
    rw [bktOf_eq_of_fixed n (hFixed q)]
    exact h.home j q (List.mem_of_mem_erase hq)

theorem hashDelInBkt_eq {f : Fixed P κ ν} (hTable : s.tables tp = some t)
    (hDistributed : Distributed s.elems t xs chains) (hNodup : xs.Nodup) (hp : p ∈ xs)
    (hFixed : fixedOf s.elems p = some f) :
    ∃ elems' t', hashDelInBkt s tp (hashToBkt f.hashv t.numBuckets) p =
        .ok { s with elems := elems', tables := s.tables.set tp t' } ∧
      (∃ chains', Distributed elems' t' (xs.erase p) chains') ∧ t'.tail = t.tail ∧
      t'.numItems = t.numItems ∧ (∀ q, appLinks elems' q = appLinks s.elems q) ∧
      ∀ q, fixedOf elems' q = fixedOf s.elems q := by
  obtain ⟨b, hb⟩ := hDistributed.bucket f.hashv
  obtain ⟨last, hChain⟩ := hDistributed.bucketed.linked _ b hb
  obtain ⟨d, hd, rfl⟩ := Option.map_eq_some_iff.mp hFixed
  have hHashv : d.fixed.hashv = d.hh.hashv := rfl
  rw [hHashv] at hb hChain ⊢
  obtain ⟨i, hi⟩ := (hDistributed.members p).mp hp
  have hHome := hDistributed.bucketed.home i p hi
  rw [bktOf, hd, Option.map_some, Option.some.injEq] at hHome
  subst hHome
  have hLinks : bktLinks s.elems p = some ⟨d.hh.hhPrev, d.hh.hhNext⟩ := by
    rw [bktLinks, hd]
    rfl
  have hAllocated : ∀ q ∈ chains (hashToBkt d.hh.hashv t.numBuckets),
      (s.elems q).isSome = true := by
    intro q hq
    obtain ⟨k, hk⟩ := hChain.allocated hq
    rw [← isSome_bktLinks, hk]
    rfl
  obtain ⟨-, hPrev, hNext, -⟩ := hChain.alone (hDistributed.bucketed.nodup _) hi hLinks
  let elems' := (s.elems.change d.hh.hhPrev (Element.setHhNext d.hh.hhNext)).change d.hh.hhNext
    (Element.setHhPrev d.hh.hhPrev)
  have hUnlinked : ∀ q, bktLinks elems' q = unlinked (bktLinks s.elems) d.hh.hhPrev d.hh.hhNext q :=
    fun q => by simp [elems', unlinked]
  have hErase := hDistributed.bucketed.erase hb hi hLinks hUnlinked (fun q => by simp [elems'])
    b.expandMult
  let t' : HashTable P := { t with
    buckets := t.buckets.set (hashToBkt d.hh.hashv t.numBuckets)
      ⟨if b.hhHead = some p then d.hh.hhNext else b.hhHead, b.count - 1, b.expandMult⟩ }
  refine ⟨elems', t', ?_, ⟨_, ⟨hErase, fun q => ?_, ?_, ?_⟩⟩, ?_, ?_, by simp [elems'],
    by simp [elems']⟩
  · rw [hashDelInBkt, Heap.load_eq hTable]
    simp only [bucketAt_eq hb, ok_bind, Heap.load_eq hd,
      Heap.modifyIf_eq (fun q hq => hAllocated q (hPrev q hq)),
      Heap.modifyIf_eq (h := s.elems.change d.hh.hhPrev (Element.setHhNext d.hh.hhNext))
        (fun q hq => by
          rw [Heap.isSome_change]
          exact hAllocated q (hNext q hq))]
    rfl
  · rw [hNodup.mem_erase_iff, hDistributed.members]
    simp only [(hDistributed.bucketed.nodup _).mem_erase_iff]
    exact exists_and_left.symm
  · exact List.length_set.trans hDistributed.size
  · exact hDistributed.log2
  · rfl
  · rfl

/-- The element is taken out of those that the hash represents. -/
theorem hashDelete_eq (h : Represents hash s xs) (hp : p ∈ xs) :
    ∃ s', hashDelete s p = .ok s' ∧ Represents hash s' (xs.erase p) ∧
      ∀ q, contents s'.elems q = contents s.elems q := by
  rcases h with ⟨rfl, -⟩ | ⟨hSome, tp, t, chains, hOrdered, hDistributed, hItems⟩
  · cases hp
  obtain ⟨d, hd⟩ := Option.isSome_iff_exists.mp (hOrdered.allocated hp)
  have hFixed : fixedOf s.elems p = some d.fixed := by rw [fixedOf, hd, Option.map_some]
  have hLinks : appLinks s.elems p = some ⟨d.hh.prev, d.hh.next⟩ := by
    rw [appLinks, hd]
    rfl
  obtain ⟨hAlone, hPrev, hNext, hFirst⟩ := hOrdered.app.alone hOrdered.nodup hp hLinks
  rw [hashDelete, Heap.load_eq hd]
  simp only [ok_bind, hOrdered.tableOf hSome]
  by_cases hEmpty : xs.erase p = []
  · rw [if_pos (hAlone.mpr hEmpty), hDistributed.bucketsOf]
    have hTable : (s.tables tp).isSome = true := by rw [hOrdered.table]; rfl
    simp only [ok_bind, Heap.free_eq hTable]
    refine ⟨_, rfl, Or.inl ⟨hEmpty, rfl, ?_⟩, fun q => rfl⟩
    change s.tables.clear tp = _
    rw [hOrdered.tables, Heap.clear_set rfl]
  · rw [if_neg fun hBoth => hEmpty (hAlone.mp hBoth)]
    obtain ⟨elems₁, hElems₁⟩ : ∃ x, x = (s.elems.change d.hh.prev (Element.setNext d.hh.next)).change
      d.hh.next (Element.setPrev d.hh.prev) := ⟨_, rfl⟩
    let t₁ : HashTable P := { t with tail := if t.tail = some p then d.hh.prev else t.tail }
    let s₁ : Hash P κ ν := {
      head := if d.hh.prev = none then d.hh.next else s.head
      elems := elems₁
      tables := s.tables.set tp t₁ }
    have hFixed₁ : ∀ q, fixedOf elems₁ q = fixedOf s.elems q := by simp [hElems₁]
    have hOrdered₁ : Ordered hash s₁ tp t₁ (xs.erase p) := by
      refine ⟨hOrdered.nodup.erase p, ?_, hOrdered.set_tables t₁, fun q hq => ?_⟩
      · have hErase := hOrdered.app.erase hOrdered.nodup hp hLinks
        simp only [hFirst] at hErase
        exact hErase.congr fun q _ => by simp [s₁, hElems₁, unlinked]
      · rw [show fixedOf s₁.elems q = fixedOf s.elems q from hFixed₁ q]
        exact hOrdered.handles q (List.mem_of_mem_erase hq)
    have hDistributed₁ : Distributed s₁.elems t₁ xs chains :=
      hDistributed.congr (fun q _ => by simp [s₁, hElems₁]) (fun q _ => hFixed₁ q) rfl rfl rfl
    obtain ⟨elems₂, t₂, hDel, ⟨chains', hDistributed₂⟩, hTail, hItems₂, hApp₂, hFixed₂⟩ :=
      hashDelInBkt_eq (s := s₁) (Heap.set_same s.tables tp t₁) hDistributed₁ hOrdered.nodup hp
        ((hFixed₁ p).trans hFixed)
    have hOrdered₂ : Ordered hash { s₁ with elems := elems₂, tables := s₁.tables.set tp t₂ } tp t₂
        (xs.erase p) :=
      hOrdered₁.congr rfl (fun q _ => hApp₂ q) (fun q _ => hFixed₂ q) (hOrdered₁.set_tables t₂) hTail
    have hTable₁ := hOrdered₁.tableOf hEmpty
    have hTable₂ := hOrdered₂.tableOf hEmpty
    dsimp only [s₁, t₁] at hTable₁ hTable₂ hDel
    change hashDelInBkt _ tp (hashToBkt d.hh.hashv t.numBuckets) p = _ at hDel
    simp only [Heap.modifyIf_eq (fun q hq => hOrdered.allocated (hPrev q hq)), ok_bind,
      Heap.modifyIf_eq (h := s.elems.change d.hh.prev (Element.setNext d.hh.next)) (fun q hq => by
        rw [Heap.isSome_change]
        exact hOrdered.allocated (hNext q hq)), ← hElems₁, hTable₁, hDel, hTable₂]
    let t₃ : HashTable P := { t₂ with numItems := t₂.numItems - 1 }
    refine ⟨_, rfl, Or.inr ⟨hEmpty, tp, t₃, chains', ?_, ?_, ?_⟩, fun q => ?_⟩
    · exact hOrdered₂.congr rfl (fun _ _ => rfl) (fun _ _ => rfl) (hOrdered₂.set_tables t₃) rfl
    · exact hDistributed₂.congr (fun _ _ => rfl) (fun _ _ => rfl) rfl rfl rfl
    · change t₂.numItems - 1 = (xs.erase p).length
      rw [hItems₂, List.length_erase_of_mem hp, ← hItems]
    · exact (contents_eq_of_fixed (hFixed₂ q)).trans (contents_eq_of_fixed (hFixed₁ q))

end CMeshApi.Uthash
