import CMeshApi.Reassembly.Refinement

/-!
# Runs of the store in memory

A run of the module's functions, with whatever the allocator returns along it, gives its
callers what the store gives them. What is allocated after it is what the packets of
the store need, so nothing leaks.
-/

namespace CMeshApi.Reassembly.Pointers

open Chains Heaps Uthash

variable {P : Type} [DecidableEq P] {hash : PacketKey → UInt32} {s : PtrState P} {a : State}
  {os : List (OwnedPacket P)} {fuel n : Nat}

inductive PtrOp (P : Type) where
  | addFragment (frag : ReassemblyFragment) (mallocs : Mallocs P) (now : Nat)
  | getFullMessage (key : PacketKey) (buffer : Memory UInt8) (size : Nat)
  | garbageCollect (now : Nat)
  | setMaxFragmentDuration (fragmentMaxDurationS : UInt32)

namespace PtrOp

/-- The operation without the addresses. -/
def op : PtrOp P → Op
  | .addFragment frag mallocs now => .addFragment frag mallocs.allocs now
  | .getFullMessage key buffer size => .getFullMessage key buffer size
  | .garbageCollect now => .garbageCollect now
  | .setMaxFragmentDuration d => .setMaxFragmentDuration d

def Fresh (s : PtrState P) : PtrOp P → Prop
  | .addFragment _ mallocs _ => mallocs.Fresh s
  | .getFullMessage _ _ _ => True
  | .garbageCollect _ => True
  | .setMaxFragmentDuration _ => True

/-- Memory for the hash table itself is refused. -/
def Refused : PtrOp P → Prop
  | .addFragment _ mallocs _ => mallocs.hash.Refuses
  | .getFullMessage _ _ _ => False
  | .garbageCollect _ => False
  | .setMaxFragmentDuration _ => False

end PtrOp

/-- What an operation returns to its caller. -/
inductive Answer where
  | added (result : Bool) (fullSize : Nat)
  | message (m : FullMessage)
  | done

/-- An operation of the store, with what it returns. -/
def storeStep (a : State) : Op → State × Answer
  | .addFragment frag allocs now =>
    match Reassembly.reassemblyAddFragment a frag allocs now with
    | (a, result, fullSize) => (a, .added result fullSize)
  | .getFullMessage key buffer size =>
    match Reassembly.reassemblyGetFullMessage a key buffer size with
    | (a, m) => (a, .message m)
  | .garbageCollect now => (Reassembly.reassemblyGarbageCollect a now, .done)
  | .setMaxFragmentDuration d => (setMaxFragmentDuration a d, .done)

def storeRun : State → List Op → State × List Answer
  | a, [] => (a, [])
  | a, op :: ops =>
    let (a, out) := storeStep a op
    let (a, outs) := storeRun a ops
    (a, out :: outs)

def ptrStep (hash : PacketKey → UInt32) (fuel : Nat) (s : PtrState P) : PtrOp P → Run (PtrState P × Answer)
  | .addFragment frag mallocs now => do
    let (s, result, fullSize) ← reassemblyAddFragment hash fuel s frag mallocs now
    return (s, .added result fullSize)
  | .getFullMessage key buffer size => do
    let (s, m) ← reassemblyGetFullMessage hash fuel s key buffer size
    return (s, .message m)
  | .garbageCollect now => do
    let s ← reassemblyGarbageCollect fuel s now
    return (s, .done)
  | .setMaxFragmentDuration d => .ok ({ s with fragmentMaxDurationS := d }, .done)

def ptrRun (hash : PacketKey → UInt32) (fuel : Nat) :
    PtrState P → List (PtrOp P) → Run (PtrState P × List Answer)
  | s, [] => .ok (s, [])
  | s, op :: ops => do
    let (s, out) ← ptrStep hash fuel s op
    let (s, outs) ← ptrRun hash fuel s ops
    return (s, out :: outs)

/-- Whenever the allocator returns an address, that address is not in use. -/
def FreshAlong (hash : PacketKey → UInt32) (fuel : Nat) : PtrState P → List (PtrOp P) → Prop
  | _, [] => True
  | s, op :: ops => op.Fresh s ∧
    match ptrStep hash fuel s op with
    | .ok (s', _) => FreshAlong hash fuel s' ops
    | .error _ => True

/-- The operations of the store are the ones of its runs. -/
theorem storeStep_step (a : State) (op : Op) : Reassembly.step a op = some (storeStep a op).1 := by
  cases op <;> rfl

theorem refines_init : Refines hash (ptrInit : PtrState P) init [] :=
  ⟨⟨holds_empty, by simp, List.nodup_nil, List.nodup_nil, by simp [ptrInit, Heap.empty],
    by simp [ptrInit, Heap.empty]⟩, rfl, rfl, rfl, rfl⟩

theorem ptrStep_ends (h : Refines hash s a os) (hBounded : Bounded n os) (hFuel : n + 1 ≤ fuel)
    {op : PtrOp P} (hFresh : op.Fresh s) :
    Ends op.Refused (ptrStep hash fuel s op) fun r =>
      r.2 = (storeStep a op.op).2 ∧
      ∃ os', Refines hash r.1 (storeStep a op.op).1 os' ∧ Bounded (n + 1) os' := by
  have hLarger : ∀ {os' : List (OwnedPacket P)}, Bounded n os' → Bounded (n + 1) os' := fun h' =>
    ⟨Nat.le_succ_of_le h'.packets, fun o ho => Nat.le_succ_of_le (h'.fragments o ho)⟩
  cases op with
  | addFragment frag mallocs now =>
    refine (reassemblyAddFragment_ends h hBounded hFuel hFresh frag now).bind ?_
    rintro ⟨s', result, fullSize⟩ ⟨hEq, os', hRefines, hBounded'⟩
    exact ⟨congrArg (fun r : Bool × Nat => Answer.added r.1 r.2) hEq, os', hRefines, hBounded'⟩
  | getFullMessage key buffer size =>
    obtain ⟨s', os', hGet, hRefines, hBounded'⟩ :=
      reassemblyGetFullMessage_eq h hBounded (Nat.le_of_succ_le hFuel) key buffer size
    simp only [ptrStep, hGet, ok_bind]
    exact ⟨rfl, os', hRefines, hLarger hBounded'⟩
  | garbageCollect now =>
    obtain ⟨s', os', hCollect, hRefines, hBounded'⟩ :=
      reassemblyGarbageCollect_eq h hBounded (Nat.le_of_succ_le hFuel) now
    simp only [ptrStep, hCollect, ok_bind]
    exact ⟨rfl, os', hRefines, hLarger hBounded'⟩
  | setMaxFragmentDuration d =>
    exact ⟨rfl, os, ⟨⟨h.owns.holds, h.owns.linked, h.owns.fragmentsNodup, h.owns.blocksNodup,
      h.owns.onlyFragments, h.owns.onlyBlocks⟩, h.packets, rfl, h.flag, h.gc⟩, hLarger hBounded⟩

theorem ptrRun_ends {ops : List (PtrOp P)} (h : Refines hash s a os) (hBounded : Bounded n os)
    (hFuel : n + ops.length ≤ fuel) (hFresh : FreshAlong hash fuel s ops) :
    Ends (∃ op ∈ ops, op.Refused) (ptrRun hash fuel s ops) fun r =>
      r.2 = (storeRun a (ops.map PtrOp.op)).2 ∧
      ∃ os', Refines hash r.1 (storeRun a (ops.map PtrOp.op)).1 os' := by
  induction ops generalizing s a os n with
  | nil => exact ⟨rfl, os, h⟩
  | cons op ops ih =>
    obtain ⟨hFirst, hLater⟩ := hFresh
    rw [List.length_cons] at hFuel
    have hStep := ptrStep_ends h hBounded (show n + 1 ≤ fuel by omega) hFirst
    rw [ptrRun]
    refine (hStep.returning.mono (fun hRefused => ⟨op, List.mem_cons_self, hRefused⟩)
      fun _ h => h).bind ?_
    rintro ⟨s₁, out⟩ ⟨hEq, hOut, os₁, hRefines, hBounded₁⟩
    rw [hEq] at hLater
    refine ((ih hRefines hBounded₁ (by omega) hLater).mono
      (fun ⟨op', hMem, hRefused⟩ => ⟨op', List.mem_cons_of_mem _ hMem, hRefused⟩) fun _ h => h).bind ?_
    rintro ⟨s₂, outs⟩ ⟨hOuts, os₂, hRefines₂⟩
    exact ⟨congr (congrArg List.cons hOut) hOuts, os₂, hRefines₂⟩

/-- From the start, every run ends without a fault, with the answers of the store and in a memory
that refines its packets; the process ends early only if memory is refused to the hash. -/
theorem ptrRun_refines_store {ops : List (PtrOp P)} (hFuel : ops.length ≤ fuel)
    (hFresh : FreshAlong hash fuel ptrInit ops) :
    Ends (∃ op ∈ ops, op.Refused) (ptrRun hash fuel ptrInit ops) fun r =>
      r.2 = (storeRun init (ops.map PtrOp.op)).2 ∧
      ∃ os, Refines hash r.1 (storeRun init (ops.map PtrOp.op)).1 os :=
  ptrRun_ends refines_init ⟨Nat.le_refl 0, by simp⟩ (by rw [Nat.zero_add]; exact hFuel) hFresh

/-- The memory that packets need: an element of the hash for each, a table if there is any, and a
node and a block for each fragment. -/
structure Footprint (s : PtrState P) (held : List FullPacket) : Prop where
  packets : s.packets.elems.Allocated held.length
  tables : s.packets.tables.Allocated (if held.isEmpty then 0 else 1)
  fragments : s.fragments.Allocated (held.flatMap FullPacket.head).length
  data : s.data.Allocated (held.flatMap FullPacket.head).length

omit [DecidableEq P] in
theorem length_fragmentPtrs (os : List (OwnedPacket P)) :
    (fragmentPtrs os).length = ((os.map OwnedPacket.packet).flatMap FullPacket.head).length := by
  simp [fragmentPtrs, OwnedPacket.packet, List.flatMap_map, List.length_flatMap]

omit [DecidableEq P] in
theorem length_blockPtrs (os : List (OwnedPacket P)) :
    (blockPtrs os).length = ((os.map OwnedPacket.packet).flatMap FullPacket.head).length := by
  simp [blockPtrs, OwnedPacket.packet, List.flatMap_map, List.length_flatMap]

theorem tables_allocated {xs : List P} {h : Hash P PacketKey (PacketBody P)}
    (hRepresents : Represents hash h xs) : h.tables.Allocated (if xs.isEmpty then 0 else 1) := by
  rcases hRepresents with ⟨rfl, -, hTables⟩ | ⟨hSome, tp, t, chains, hOrdered, -⟩
  · rw [hTables]
    exact Heap.allocated_empty
  · rw [if_neg (by simpa using hSome), hOrdered.tables]
    exact Heap.allocated_single tp t

theorem Owns.ptrs (h : Owns hash s os) : Represents hash s.packets (os.map OwnedPacket.ptr) := by
  have hRepresents := h.holds.represents
  rwa [List.map_map] at hRepresents

theorem Owns.footprint (h : Owns hash s os) : Footprint s (os.map OwnedPacket.packet) where
  packets := ⟨os.map OwnedPacket.ptr, h.ptrs.nodup, by simp, fun p =>
    ⟨fun hSome => by simpa [OwnedPacket.entry] using h.holds.owned p hSome, h.ptrs.allocated⟩⟩
  tables := by simpa using tables_allocated h.ptrs
  fragments := by
    refine ⟨fragmentPtrs os, h.fragmentsNodup, length_fragmentPtrs os, fun p =>
      ⟨h.onlyFragments p, fun hMem => ?_⟩⟩
    obtain ⟨o, ho, x, hx, rfl⟩ := mem_fragmentPtrs.mp hMem
    exact ((h.linked o ho).allocated hx).1
  data := by
    refine ⟨blockPtrs os, h.blocksNodup, length_blockPtrs os, fun p =>
      ⟨h.onlyBlocks p, fun hMem => ?_⟩⟩
    obtain ⟨o, ho, x, hx, rfl⟩ := mem_blockPtrs.mp hMem
    exact ((h.linked o ho).allocated hx).2

/-- After every run, nothing is allocated but what the packets of the store need. -/
theorem ptrRun_footprint {ops : List (PtrOp P)} (hFuel : ops.length ≤ fuel)
    (hFresh : FreshAlong hash fuel ptrInit ops) :
    Ends (∃ op ∈ ops, op.Refused) (ptrRun hash fuel ptrInit ops) fun r =>
      Footprint r.1 (storeRun init (ops.map PtrOp.op)).1.packets := by
  have hBounded : Bounded 0 ([] : List (OwnedPacket P)) := ⟨Nat.le_refl 0, by simp⟩
  refine (ptrRun_ends refines_init hBounded (by rw [Nat.zero_add]; exact hFuel) hFresh).mono id ?_
  rintro ⟨s', outs⟩ ⟨-, os, hRefines⟩
  rw [hRefines.packets]
  exact hRefines.owns.footprint

/-- A packet of two fragments that comes in complete and is delivered, beside one that does not. -/
def delivery : List (PtrOp Nat) :=
  let piece (packetId : UInt16) (offset : Nat) (last : Bool) : ReassemblyFragment :=
    ⟨7, packetId, offset, last, [1, 2]⟩
  let granted (packet fragment data : Nat) : Mallocs Nat :=
    ⟨some packet, some fragment, some data, ⟨some 9, true, true⟩⟩
  [.addFragment (piece 1 0 false) (granted 1 10 20) 0,
    .addFragment (piece 2 0 false) (granted 2 11 21) 1,
    .addFragment (piece 1 2 true) (granted 3 12 22) 2,
    .getFullMessage ⟨7, 1⟩ (fun _ => 0) 4]

theorem delivery_fresh : FreshAlong (fun key => key.packetId.toUInt32) 4 ptrInit delivery := by
  refine ⟨⟨?_, ?_, ?_⟩, ⟨?_, ?_, ?_⟩, ⟨?_, ?_, ?_⟩, trivial, trivial⟩
  all_goals rintro _ ⟨⟩; rfl

theorem ptrRun_refines_store_delivery :
    Ends (∃ op ∈ delivery, op.Refused)
      (ptrRun (fun key => key.packetId.toUInt32) 4 ptrInit delivery) fun r =>
        r.2 = (storeRun init (delivery.map PtrOp.op)).2 ∧
        ∃ os, Refines (fun key => key.packetId.toUInt32) r.1
          (storeRun init (delivery.map PtrOp.op)).1 os :=
  ptrRun_refines_store (by decide) delivery_fresh

theorem ptrRun_footprint_delivery :
    Ends (∃ op ∈ delivery, op.Refused)
      (ptrRun (fun key => key.packetId.toUInt32) 4 ptrInit delivery) fun r =>
        Footprint r.1 [⟨⟨7, 2⟩, 0, false, [⟨0, [1, 2]⟩], 1⟩] :=
  ptrRun_footprint (by decide) delivery_fresh

end CMeshApi.Reassembly.Pointers
