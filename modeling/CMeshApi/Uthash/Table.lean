import CMeshApi.Foundations.Chains
import CMeshApi.Foundations.Heaps
import Mathlib.Algebra.Group.Nat.Defs

/-!
# The hash table

`uthash.h`, for elements with one hash handle and keys of one length. A handle is
identified with the element it is part of, so that the pointers between handles and
the pointers between elements are pointers to elements. The array of buckets belongs
to the table. An allocation that fails ends the process.
-/

namespace CMeshApi.Uthash

open Chains Heaps

variable {P κ ν : Type}

structure HashHandle (P : Type) where
  tbl : Option P
  /-- The previous element in app order. -/
  prev : Option P
  /-- The next element in app order. -/
  next : Option P
  /-- The previous element in bucket order. -/
  hhPrev : Option P
  /-- The next element in bucket order. -/
  hhNext : Option P
  hashv : UInt32
deriving DecidableEq, Repr

/-- A structure with a hash handle: its key, its other fields, and the handle. -/
structure Element (P κ ν : Type) where
  key : κ
  val : ν
  hh : HashHandle P
deriving DecidableEq, Repr

structure HashBucket (P : Type) where
  hhHead : Option P
  count : Nat
  expandMult : Nat
deriving DecidableEq, Repr

/-- A bucket after `uthash_bzero`. -/
def HashBucket.zero : HashBucket P := ⟨none, 0, 0⟩

structure HashTable (P : Type) where
  buckets : List (HashBucket P)
  numBuckets : Nat
  log2NumBuckets : Nat
  numItems : Nat
  tail : Option P
  idealChainMaxlen : Nat
  nonidealItems : Nat
  ineffExpands : Nat
  noexpand : Bool
deriving DecidableEq, Repr

/-- The variable that points to the first element, and the memory behind it. -/
structure Hash (P κ ν : Type) where
  head : Option P
  elems : Heap P (Element P κ ν)
  tables : Heap P (HashTable P)

def hashInitialNumBuckets : Nat := 32
def hashInitialNumBucketsLog2 : Nat := 5
def hashBktCapacityThresh : Nat := 10

/-- The outcomes of the allocations that an addition may need: the table and its buckets, for
the first element, and the buckets of an expansion. -/
structure HashAllocs (P : Type) where
  table : Option P
  buckets : Bool
  expansion : Bool
deriving DecidableEq, Repr

namespace Element

def setHashv (hashv : UInt32) (e : Element P κ ν) : Element P κ ν := { e with hh := { e.hh with hashv } }
def setTbl (tbl : Option P) (e : Element P κ ν) : Element P κ ν := { e with hh := { e.hh with tbl } }
def setPrev (prev : Option P) (e : Element P κ ν) : Element P κ ν := { e with hh := { e.hh with prev } }
def setNext (next : Option P) (e : Element P κ ν) : Element P κ ν := { e with hh := { e.hh with next } }

def setHhPrev (hhPrev : Option P) (e : Element P κ ν) : Element P κ ν :=
  { e with hh := { e.hh with hhPrev } }

def setHhNext (hhNext : Option P) (e : Element P κ ν) : Element P κ ν :=
  { e with hh := { e.hh with hhNext } }

def bktLinks (e : Element P κ ν) : Links P := ⟨e.hh.hhPrev, e.hh.hhNext⟩

def appLinks (e : Element P κ ν) : Links P := ⟨e.hh.prev, e.hh.next⟩

end Element

/-- `HASH_TO_BKT`. -/
def hashToBkt (hashv : UInt32) (numBkts : Nat) : Nat := hashv.toNat &&& (numBkts - 1)

/-- The array of the buckets, for what runs over all of it or frees it: its size is the one that the
table gives for it. -/
def bucketsOf (t : HashTable P) : Run (List (HashBucket P)) :=
  if t.buckets.length = t.numBuckets then .ok t.buckets else .error .fault

def bucketAt (buckets : List (HashBucket P)) (i : Nat) : Run (HashBucket P) :=
  match buckets[i]? with
  | some b => .ok b
  | none => .error .fault

/-- The table that the handle of an element points to, with its address. -/
def tblOf (s : Hash P κ ν) (p : P) : Run (P × HashTable P) := do
  let e ← s.elems.load p
  match e.hh.tbl with
  | none => .error .fault
  | some tp => do
    let t ← s.tables.load tp
    return (tp, t)

/-- The table of the hash, `(head)->hh.tbl`. -/
def tableOf (s : Hash P κ ν) : Run (P × HashTable P) :=
  match s.head with
  | none => .error .fault
  | some head => tblOf s head

/-- The loop of `HASH_FIND_IN_BKT`, at the element `out`. -/
def findInBkt [DecidableEq κ] (elems : Heap P (Element P κ ν)) (key : κ) (hashval : UInt32) :
    Nat → Option P → Run (Option P)
  | _, none => .ok none
  | 0, some _ => .error .stuck
  | fuel + 1, some out => do
    let e ← elems.load out
    if e.hh.hashv = hashval ∧ e.key = key then return some out
    else findInBkt elems key hashval fuel e.hh.hhNext

def hashFind [DecidableEq κ] (hash : κ → UInt32) (fuel : Nat) (s : Hash P κ ν) (key : κ) :
    Run (Option P) :=
  match s.head with
  | none => .ok none
  | some _ => do
    let (_, t) ← tableOf s
    let b ← bucketAt t.buckets (hashToBkt (hash key) t.numBuckets)
    findInBkt s.elems key (hash key) fuel b.hhHead

/-- `HASH_COUNT`. -/
def hashCount (s : Hash P κ ν) : Run Nat :=
  match s.head with
  | none => .ok 0
  | some _ => do
    let (_, t) ← tableOf s
    return t.numItems

/-- A table without elements, that `add` is about to be the first of. -/
def HashTable.initial (add : P) : HashTable P where
  buckets := List.replicate hashInitialNumBuckets HashBucket.zero
  numBuckets := hashInitialNumBuckets
  log2NumBuckets := hashInitialNumBucketsLog2
  numItems := 0
  tail := some add
  idealChainMaxlen := 0
  nonidealItems := 0
  ineffExpands := 0
  noexpand := false

variable [DecidableEq P]

/-- `HASH_MAKE_TABLE`. -/
def hashMakeTable (s : Hash P κ ν) (add : P) (allocs : HashAllocs P) : Run (Hash P κ ν) :=
  match allocs.table with
  | none => .error .exit
  | some tp => do
    let elems ← s.elems.modify add (Element.setTbl (some tp))
    if allocs.buckets then
      return { s with elems, tables := s.tables.set tp (HashTable.initial add) }
    else .error .exit

/-- `HASH_APPEND_LIST`. -/
def hashAppendList (s : Hash P κ ν) (add : P) : Run (Hash P κ ν) := do
  let (tp, t) ← tableOf s
  let elems ← s.elems.modify add (Element.setNext none)
  let elems ← elems.modify add (Element.setPrev t.tail)
  match t.tail with
  | none => .error .fault
  | some tail => do
    let elems ← elems.modify tail (Element.setNext (some add))
    let tables ← s.tables.modify tp fun t => { t with tail := some add }
    return { s with elems, tables }

/-- What an expansion has done so far. -/
structure Expansion (P κ ν : Type) where
  elems : Heap P (Element P κ ν)
  newBuckets : List (HashBucket P)
  nonidealItems : Nat

/-- One round of the inner loop of `HASH_EXPAND_BUCKETS`: the element goes to its new bucket. -/
def moveElement (idealChainMaxlen newNumBuckets : Nat) (thh : P) (x : Expansion P κ ν) :
    Run (Expansion P κ ν) := do
  let e ← x.elems.load thh
  let bkt := hashToBkt e.hh.hashv newNumBuckets
  let newbkt ← bucketAt x.newBuckets bkt
  let count := newbkt.count + 1
  let nonidealItems := if idealChainMaxlen < count then x.nonidealItems + 1 else x.nonidealItems
  let expandMult :=
    if idealChainMaxlen < count ∧ newbkt.expandMult * idealChainMaxlen < count then
      newbkt.expandMult + 1
    else newbkt.expandMult
  let elems ← x.elems.modify thh (Element.setHhPrev none)
  let elems ← elems.modify thh (Element.setHhNext newbkt.hhHead)
  let elems ← elems.modifyIf newbkt.hhHead (Element.setHhPrev (some thh))
  return { elems, newBuckets := x.newBuckets.set bkt ⟨some thh, count, expandMult⟩, nonidealItems }

/-- The inner loop: the next element is read before the links are changed. -/
def moveChain (idealChainMaxlen newNumBuckets : Nat) :
    Nat → Option P → Expansion P κ ν → Run (Expansion P κ ν)
  | _, none, x => .ok x
  | 0, some _, _ => .error .stuck
  | fuel + 1, some thh, x => do
    let e ← x.elems.load thh
    let x ← moveElement idealChainMaxlen newNumBuckets thh x
    moveChain idealChainMaxlen newNumBuckets fuel e.hh.hhNext x

/-- The outer loop, over the buckets of the old array. -/
def moveBuckets (idealChainMaxlen newNumBuckets fuel : Nat) :
    List (HashBucket P) → Expansion P κ ν → Run (Expansion P κ ν)
  | [], x => .ok x
  | b :: bs, x => do
    let x ← moveChain idealChainMaxlen newNumBuckets fuel b.hhHead x
    moveBuckets idealChainMaxlen newNumBuckets fuel bs x

/-- `ceil(n/b)` for the doubled number of buckets. -/
def idealChainMaxlen (t : HashTable P) : Nat :=
  (t.numItems >>> (t.log2NumBuckets + 1)) +
    (if t.numItems &&& (t.numBuckets * 2 - 1) ≠ 0 then 1 else 0)

/-- The fields of the table after the loops of an expansion. -/
def expanded (t : HashTable P) (x : Expansion P κ ν) : HashTable P :=
  let ineffExpands := if t.numItems >>> 1 < x.nonidealItems then t.ineffExpands + 1 else 0
  { t with
    buckets := x.newBuckets
    numBuckets := t.numBuckets * 2
    log2NumBuckets := t.log2NumBuckets + 1
    idealChainMaxlen := idealChainMaxlen t
    nonidealItems := x.nonidealItems
    ineffExpands
    noexpand := if 1 < ineffExpands then true else t.noexpand }

/-- `HASH_EXPAND_BUCKETS`. The old array is freed with the size that the table gives for it. -/
def hashExpandBuckets (fuel : Nat) (s : Hash P κ ν) (tp : P) (alloc : Bool) : Run (Hash P κ ν) := do
  let t ← s.tables.load tp
  if alloc then
    let newBuckets := List.replicate (t.numBuckets * 2) HashBucket.zero
    let buckets ← bucketsOf t
    let x ← moveBuckets (idealChainMaxlen t) (t.numBuckets * 2) fuel buckets ⟨s.elems, newBuckets, 0⟩
    return { s with elems := x.elems, tables := s.tables.set tp (expanded t x) }
  else .error .exit

/-- `HASH_ADD_TO_BKT`, for the bucket `bkt` of the table at `tp`. -/
def hashAddToBkt (fuel : Nat) (s : Hash P κ ν) (tp : P) (bkt : Nat) (addhh : P) (expansion : Bool) :
    Run (Hash P κ ν) := do
  let t ← s.tables.load tp
  let b ← bucketAt t.buckets bkt
  let elems ← s.elems.modify addhh (Element.setHhNext b.hhHead)
  let elems ← elems.modify addhh (Element.setHhPrev none)
  let elems ← elems.modifyIf b.hhHead (Element.setHhPrev (some addhh))
  let t := { t with buckets := t.buckets.set bkt ⟨some addhh, b.count + 1, b.expandMult⟩ }
  let s := { s with elems, tables := s.tables.set tp t }
  let (tp, t) ← tblOf s addhh
  if (b.expandMult + 1) * hashBktCapacityThresh ≤ b.count + 1 ∧ t.noexpand = false then
    hashExpandBuckets fuel s tp expansion
  else return s

/-- `HASH_ADD_TO_TABLE`. -/
def hashAddToTable (fuel : Nat) (s : Hash P κ ν) (hashval : UInt32) (add : P) (expansion : Bool) :
    Run (Hash P κ ν) := do
  let (tp, t) ← tableOf s
  let t := { t with numItems := t.numItems + 1 }
  let s := { s with tables := s.tables.set tp t }
  hashAddToBkt fuel s tp (hashToBkt hashval t.numBuckets) add expansion

/-- `HASH_ADD`, for an element that the caller has allocated. -/
def hashAdd (hash : κ → UInt32) (fuel : Nat) (s : Hash P κ ν) (add : P) (allocs : HashAllocs P) :
    Run (Hash P κ ν) := do
  let e ← s.elems.load add
  let hashval := hash e.key
  let elems ← s.elems.modify add (Element.setHashv hashval)
  match s.head with
  | none => do
    let elems ← elems.modify add (Element.setNext none)
    let elems ← elems.modify add (Element.setPrev none)
    let s ← hashMakeTable { s with elems } add allocs
    hashAddToTable fuel { s with head := some add } hashval add allocs.expansion
  | some _ => do
    let (tp, _) ← tableOf { s with elems }
    let elems ← elems.modify add (Element.setTbl (some tp))
    let s ← hashAppendList { s with elems } add
    hashAddToTable fuel s hashval add allocs.expansion

/-- `HASH_DEL_IN_BKT`, for the bucket `bkt` of the table at `tp`. -/
def hashDelInBkt (s : Hash P κ ν) (tp : P) (bkt : Nat) (delhh : P) : Run (Hash P κ ν) := do
  let t ← s.tables.load tp
  let b ← bucketAt t.buckets bkt
  let d ← s.elems.load delhh
  let hhHead := if b.hhHead = some delhh then d.hh.hhNext else b.hhHead
  let elems ← s.elems.modifyIf d.hh.hhPrev (Element.setHhNext d.hh.hhNext)
  let elems ← elems.modifyIf d.hh.hhNext (Element.setHhPrev d.hh.hhPrev)
  let t := { t with buckets := t.buckets.set bkt ⟨hhHead, b.count - 1, b.expandMult⟩ }
  return { s with elems, tables := s.tables.set tp t }

/-- `HASH_DELETE_HH`. The last element takes the buckets and the table with it. -/
def hashDelete (s : Hash P κ ν) (del : P) : Run (Hash P κ ν) := do
  let d ← s.elems.load del
  if d.hh.prev = none ∧ d.hh.next = none then
    let (tp, t) ← tableOf s
    let _ ← bucketsOf t
    let tables ← s.tables.free tp
    return { s with head := none, tables }
  else
    let (tp, t) ← tableOf s
    let t := { t with tail := if t.tail = some del then d.hh.prev else t.tail }
    let elems ← s.elems.modifyIf d.hh.prev (Element.setNext d.hh.next)
    let head := if d.hh.prev = none then d.hh.next else s.head
    let elems ← elems.modifyIf d.hh.next (Element.setPrev d.hh.prev)
    let s := { head, elems, tables := s.tables.set tp t }
    let (tp, t) ← tableOf s
    let s ← hashDelInBkt s tp (hashToBkt d.hh.hashv t.numBuckets) del
    let (tp, t) ← tableOf s
    return { s with tables := s.tables.set tp { t with numItems := t.numItems - 1 } }

/-- The walk along one of the two linkages: an element whose link does not point back ends the
process, otherwise the number of elements is returned. -/
def fsckWalk (links : Element P κ ν → Links P) (elems : Heap P (Element P κ ν)) :
    Nat → Option P → Option P → Nat → Run Nat
  | _, _, none, count => .ok count
  | 0, _, some _, _ => .error .stuck
  | fuel + 1, prev, some thh, count => do
    let e ← elems.load thh
    if (links e).prev = prev then fsckWalk links elems fuel (some thh) (links e).next (count + 1)
    else .error .exit

/-- The loop over the buckets, with the number of elements counted so far. -/
def fsckBuckets (elems : Heap P (Element P κ ν)) (fuel : Nat) : List (HashBucket P) → Nat → Run Nat
  | [], count => .ok count
  | b :: bs, count => do
    let bktCount ← fsckWalk Element.bktLinks elems fuel none b.hhHead 0
    if b.count = bktCount then fsckBuckets elems fuel bs (count + bktCount) else .error .exit

/-- `HASH_FSCK`, as it is defined for debugging; what it finds wrong ends the process. -/
def hashFsck (fuel : Nat) (s : Hash P κ ν) : Run Unit :=
  match s.head with
  | none => .ok ()
  | some head => do
    let (_, t) ← tableOf s
    let buckets ← bucketsOf t
    let count ← fsckBuckets s.elems fuel buckets 0
    if count = t.numItems then
      let count ← fsckWalk Element.appLinks s.elems fuel none (some head) 0
      if count = t.numItems then return () else .error .exit
    else .error .exit

end CMeshApi.Uthash
