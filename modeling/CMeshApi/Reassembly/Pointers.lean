import CMeshApi.Reassembly.Store
import CMeshApi.Uthash.Update

/-!
# The store in memory

`reassembly.c` again, now with its pointers: the packets are elements of a hash table,
the fragments of a packet form a linked list, and each fragment owns the block with
its bytes. A block is freed with the size it was allocated with, anything else is a
fault. Each kind of object has a heap of its own; the buffer that a message is copied to
is its caller's, and in none of them. The addresses that the allocator returns, or its
refusals, are arguments; a refusal to the hash table ends the process.
-/

namespace CMeshApi.Reassembly.Pointers

open Heaps Uthash

variable {P : Type}

/-- `internal_fragment_t`. -/
structure FragmentNode (P : Type) where
  bytes : Option P
  size : Nat
  offset : Nat
  next : Option P
deriving DecidableEq, Repr

/-- The fields of `full_packet_t` besides its key and its hash handle. -/
structure PacketBody (P : Type) where
  fullSize : Nat
  isFull : Bool
  head : Option P
  timestampMsEpochLast : Nat
deriving DecidableEq, Repr

abbrev PacketNode (P : Type) := Element P PacketKey (PacketBody P)

/-- The static variables of the module, and the memory behind them. -/
structure PtrState (P : Type) where
  fragmentMaxDurationS : UInt32
  packets : Hash P PacketKey (PacketBody P)
  fragments : Heap P (FragmentNode P)
  data : Heap P (List UInt8)
  isQueueEmpty : Bool
  lastGcTsMs : Nat

def ptrInit : PtrState P := ⟨0, ⟨none, Heap.empty, Heap.empty⟩, Heap.empty, Heap.empty, true, 0⟩

/-- What the allocator returns during a call. -/
structure Mallocs (P : Type) where
  packet : Option P
  fragment : Option P
  data : Option P
  hash : HashAllocs P
deriving DecidableEq, Repr

def setHead (head : Option P) (e : PacketNode P) : PacketNode P := { e with val := { e.val with head } }

def setNextFragment (next : Option P) (f : FragmentNode P) : FragmentNode P := { f with next }

section Blocks

variable [DecidableEq P]

/-- What `Platform_malloc` does to a heap, for a new object whose contents do not matter. -/
def platformMalloc {E : Type} (h : Heap P E) (p : Option P) (e : E) : Heap P E :=
  match p with
  | some p => h.set p e
  | none => h

/-- `Platform_free`; it is fine to call it on a null pointer. -/
def platformFree {E : Type} (h : Heap P E) (p : Option P) : Run (Heap P E) :=
  match p with
  | some p => h.free p
  | none => .ok h

/-- `Platform_free` of a block of bytes, with the size that its owner has noted. -/
def freeBlock (data : Heap P (List UInt8)) (p : Option P) (size : Nat) : Run (Heap P (List UInt8)) :=
  match p with
  | none => .ok data
  | some d => do
    let bytes ← data.load d
    if bytes.length = size then data.free d else .error .fault

omit [DecidableEq P] in
/-- The bytes that a `memcpy` of the given size reads. -/
def readBlock (data : Heap P (List UInt8)) (p : Option P) (size : Nat) : Run (List UInt8) :=
  match p with
  | none => .error .fault
  | some d => do
    let bytes ← data.load d
    if size ≤ bytes.length then return bytes.take size else .error .fault

end Blocks

/-- `LL_SEARCH_SCALAR` for an offset, at the element `out`. -/
def searchOffset (fragments : Heap P (FragmentNode P)) (offset : Nat) : Nat → Option P → Run (Option P)
  | _, none => .ok none
  | 0, some _ => .error .stuck
  | fuel + 1, some out => do
    let f ← fragments.load out
    if f.offset = offset then return some out else searchOffset fragments offset fuel f.next

/-- The sum of the sizes, by `LL_FOREACH`. -/
def sumSizes (fragments : Heap P (FragmentNode P)) : Nat → Option P → Nat → Run Nat
  | _, none, rxSize => .ok rxSize
  | 0, some _, _ => .error .stuck
  | fuel + 1, some el, rxSize => do
    let f ← fragments.load el
    sumSizes fragments fuel f.next (rxSize + f.size)

variable [DecidableEq P]

/-- The walk of `LL_DELETE` for an element that is not the first, at `tmp`. -/
def unlinkAfter (fragments : Heap P (FragmentNode P)) (del : P) : Nat → P → Run (Heap P (FragmentNode P))
  | 0, _ => .error .stuck
  | fuel + 1, tmp => do
    let t ← fragments.load tmp
    match t.next with
    | none => return fragments
    | some next =>
      if next = del then do
        let d ← fragments.load del
        fragments.modify tmp (setNextFragment d.next)
      else unlinkAfter fragments del fuel next

/-- `LL_DELETE` from the list of the packet at `p`. -/
def llDelete (fuel : Nat) (s : PtrState P) (p del : P) : Run (PtrState P) := do
  let e ← s.packets.elems.load p
  match e.val.head with
  | none => .error .fault
  | some head =>
    if head = del then do
      let f ← s.fragments.load del
      let elems ← s.packets.elems.modify p (setHead f.next)
      return { s with packets := { s.packets with elems } }
    else do
      let fragments ← unlinkAfter s.fragments del fuel head
      return { s with fragments }

/-- The two loops that release the fragments of the packet at `p` (`LL_FOREACH_SAFE`), at the element
`el`; they differ in what they do before with the offset and the bytes of a fragment. -/
def releaseFragments {β : Type} (visit : Nat → List UInt8 → β → β) (fuel : Nat) (p : P) :
    Nat → Option P → PtrState P → β → Run (PtrState P × β)
  | _, none, s, acc => .ok (s, acc)
  | 0, some _, _, _ => .error .stuck
  | rounds + 1, some el, s, acc => do
    let f ← s.fragments.load el
    let bytes ← readBlock s.data f.bytes f.size
    let data ← freeBlock s.data f.bytes f.size
    let s ← llDelete fuel { s with data } p el
    let fragments ← s.fragments.free el
    releaseFragments visit fuel p rounds f.next { s with fragments } (visit f.offset bytes acc)

section Functions

variable (hash : PacketKey → UInt32) (fuel : Nat)

def getPacketFromHash (s : PtrState P) (key : PacketKey) : Run (Option P) :=
  hashFind hash fuel s.packets key

def freshNode (key : PacketKey) : PacketNode P :=
  ⟨key, ⟨0, false, none, 0⟩, ⟨none, none, none, none, none, 0⟩⟩

def createPacketInHash (s : PtrState P) (key : PacketKey) (mallocs : Mallocs P) :
    Run (PtrState P × Option P) :=
  match mallocs.packet with
  | none => .ok (s, none)
  | some p => do
    let packets ← hashAdd hash fuel { s.packets with elems := s.packets.elems.set p (freshNode key) } p
      mallocs.hash
    return ({ s with packets }, some p)

/-- Whether the fragment was added. On a refused allocation the other one is given back. -/
def addFragmentToFullPacket (s : PtrState P) (p : P) (frag : ReassemblyFragment) (mallocs : Mallocs P)
    (now : Nat) : Run (PtrState P × Bool) := do
  let e ← s.packets.elems.load p
  let found ← searchOffset s.fragments frag.offset fuel e.val.head
  match found with
  | some _ => return (s, false)
  | none =>
    let fragments := platformMalloc s.fragments mallocs.fragment ⟨none, 0, 0, none⟩
    let data := platformMalloc s.data mallocs.data (List.replicate frag.size 0)
    match mallocs.fragment, mallocs.data with
    | some f, some d => do
      let data ← data.modify d fun _ => frag.bytes
      let fragments ← fragments.modify f fun _ => ⟨some d, frag.size, frag.offset, none⟩
      -- `LL_PREPEND`
      let fragments ← fragments.modify f (setNextFragment e.val.head)
      let elems ← s.packets.elems.modify p (setHead (some f))
      let elems ← elems.modify p fun e =>
        if frag.lastFragment then { e with val := { e.val with fullSize := frag.offset + frag.size } }
        else e
      let elems ← elems.modify p fun e => { e with val := { e.val with timestampMsEpochLast := now } }
      return ({ s with packets := { s.packets with elems }, fragments, data }, true)
    | _, _ => do
      let fragments ← platformFree fragments mallocs.fragment
      let data ← freeBlock data mallocs.data frag.size
      return ({ s with fragments, data }, false)

def isPacketFull (s : PtrState P) (p : P) : Run (PtrState P × Bool) := do
  let e ← s.packets.elems.load p
  if e.val.isFull then return (s, true)
  else if e.val.fullSize = 0 then return (s, false)
  else
    let rxSize ← sumSizes s.fragments fuel e.val.head 0
    if rxSize = e.val.fullSize then
      let elems ← s.packets.elems.modify p fun e => { e with val := { e.val with isFull := true } }
      return ({ s with packets := { s.packets with elems } }, true)
    else return (s, false)

/-- The packet of the key, created if there is none yet. -/
def getOrCreatePacket (s : PtrState P) (key : PacketKey) (mallocs : Mallocs P) :
    Run (PtrState P × Option P) := do
  let found ← getPacketFromHash hash fuel s key
  match found with
  | some p => return (s, some p)
  | none => createPacketInHash hash fuel s key mallocs

/-- The result and the value at `full_size_p`. -/
def reassemblyAddFragment (s : PtrState P) (frag : ReassemblyFragment) (mallocs : Mallocs P)
    (now : Nat) : Run (PtrState P × Bool × Nat) := do
  let s := { s with isQueueEmpty := false }
  let (s, found) ← getOrCreatePacket hash fuel s frag.key mallocs
  match found with
  | none => return (s, false, 0)
  | some p => do
    let (s, added) ← addFragmentToFullPacket fuel s p frag mallocs now
    if added then
      let (s, full) ← isPacketFull fuel s p
      let e ← s.packets.elems.load p
      return (s, true, if full then e.val.fullSize else 0)
    else return (s, false, 0)

/-- The end of a packet: it is deleted from the hash and freed. -/
def deletePacket (s : PtrState P) (p : P) : Run (PtrState P) := do
  let packets ← hashDelete s.packets p
  let elems ← packets.elems.free p
  return { s with packets := { packets with elems } }

def reassembleFullPacket (s : PtrState P) (p : P) (buffer : Memory UInt8) (size : Nat) :
    Run (PtrState P × FullMessage) := do
  let e ← s.packets.elems.load p
  if !e.val.isFull then return (s, ⟨false, buffer, 0⟩)
  else if size < e.val.fullSize then return (s, ⟨false, buffer, size⟩)
  else
    let (s, buffer) ← releaseFragments (fun offset bytes buffer => buffer.write offset bytes) fuel p
      fuel e.val.head s buffer
    let e ← s.packets.elems.load p
    let s ← deletePacket s p
    let count ← hashCount s.packets
    return ({ s with isQueueEmpty := count = 0 }, ⟨true, buffer, e.val.fullSize⟩)

def reassemblyGetFullMessage (s : PtrState P) (key : PacketKey) (buffer : Memory UInt8) (size : Nat) :
    Run (PtrState P × FullMessage) := do
  let found ← getPacketFromHash hash fuel s key
  match found with
  | none => return (s, ⟨false, buffer, size⟩)
  | some p => reassembleFullPacket fuel s p buffer size

/-- The body of the loop over the packets, for the packet at `p`. -/
def collectPacket (s : PtrState P) (now : Nat) (p : P) : Run (PtrState P) := do
  let e ← s.packets.elems.load p
  let lastActivity := (now - e.val.timestampMsEpochLast) / 1000 % 2 ^ 32
  if s.fragmentMaxDurationS.toNat < lastActivity then
    let (s, _) ← releaseFragments (fun _ _ u => u) fuel p fuel e.val.head s ()
    deletePacket s p
  else return s

/-- The next element in app order, of an element that may be null. -/
def hhNextOf (s : PtrState P) (p : Option P) : Run (Option P) :=
  match p with
  | none => .ok none
  | some p => do
    let e ← s.packets.elems.load p
    return e.hh.next

/-- `HASH_ITER`: the element after `el` is read before the body may free `el`. -/
def collectPackets (now : Nat) : Nat → Option P → Option P → PtrState P → Run (PtrState P)
  | _, none, _, s => .ok s
  | 0, some _, _, _ => .error .stuck
  | rounds + 1, some el, tmp, s => do
    let s ← collectPacket fuel s now el
    let next ← hhNextOf s tmp
    collectPackets now rounds tmp next s

def reassemblyGarbageCollect (s : PtrState P) (now : Nat) : Run (PtrState P) :=
  if 0 < s.fragmentMaxDurationS.toNat ∧ minGarbageCollectPeriodS * 1000 < now - s.lastGcTsMs then do
    let s := { s with lastGcTsMs := now }
    let tmp ← hhNextOf s s.packets.head
    let s ← collectPackets fuel now fuel s.packets.head tmp s
    let count ← hashCount s.packets
    return { s with isQueueEmpty := count = 0 }
  else .ok s

end Functions

end CMeshApi.Reassembly.Pointers
