import CMeshApi.Reassembly.Pointers
import CMeshApi.Uthash.Check

/-!
# Who owns what is allocated

Every object in memory belongs to a packet of the hash: the packet itself, the
fragments of its list, and the block of each fragment. The owned packets are ghost
state, from which the list of packets of the store can be read off. Each function of
the module has one lemma here, about what it does to them.
-/

namespace CMeshApi.Reassembly.Pointers

open Chains Heaps Uthash

variable {P : Type}

structure OwnedFragment (P : Type) where
  ptr : P
  block : P
  piece : InternalFragment

structure OwnedPacket (P : Type) where
  ptr : P
  key : PacketKey
  fullSize : Nat
  isFull : Bool
  timestampMsEpochLast : Nat
  fragments : List (OwnedFragment P)

def firstOf (fs : List (OwnedFragment P)) : Option P := fs.head?.map OwnedFragment.ptr

namespace OwnedPacket

def body (o : OwnedPacket P) : PacketBody P :=
  ⟨o.fullSize, o.isFull, firstOf o.fragments, o.timestampMsEpochLast⟩

/-- What the hash holds for the packet. -/
def entry (o : OwnedPacket P) : P × PacketKey × PacketBody P := (o.ptr, o.key, o.body)

def packet (o : OwnedPacket P) : FullPacket :=
  ⟨o.key, o.fullSize, o.isFull, o.fragments.map OwnedFragment.piece, o.timestampMsEpochLast⟩

end OwnedPacket

def fragmentPtrs (os : List (OwnedPacket P)) : List P :=
  os.flatMap fun o => o.fragments.map OwnedFragment.ptr

def blockPtrs (os : List (OwnedPacket P)) : List P :=
  os.flatMap fun o => o.fragments.map OwnedFragment.block

/-- The fragments are linked in this order, and each has its bytes in its block. -/
def FragmentsAt (fragments : Heap P (FragmentNode P)) (data : Heap P (List UInt8)) :
    List (OwnedFragment P) → Prop
  | [] => True
  | x :: xs =>
    fragments x.ptr = some ⟨some x.block, x.piece.size, x.piece.offset, firstOf xs⟩ ∧
      data x.block = some x.piece.bytes ∧ FragmentsAt fragments data xs

/-- The owned packets are in the hash, and nothing is allocated that they do not own. -/
structure Owns [DecidableEq P] (hash : PacketKey → UInt32) (s : PtrState P) (os : List (OwnedPacket P)) :
    Prop where
  holds : Holds hash s.packets (os.map OwnedPacket.entry)
  linked : ∀ o ∈ os, FragmentsAt s.fragments s.data o.fragments
  fragmentsNodup : (fragmentPtrs os).Nodup
  blocksNodup : (blockPtrs os).Nodup
  onlyFragments : ∀ p, (s.fragments p).isSome = true → p ∈ fragmentPtrs os
  onlyBlocks : ∀ p, (s.data p).isSome = true → p ∈ blockPtrs os

/-- Everything but the packets and what they own is the same. -/
structure SameStatics (s s' : PtrState P) : Prop where
  duration : s'.fragmentMaxDurationS = s.fragmentMaxDurationS
  flag : s'.isQueueEmpty = s.isQueueEmpty
  gc : s'.lastGcTsMs = s.lastGcTsMs

theorem SameStatics.refl (s : PtrState P) : SameStatics s s := ⟨rfl, rfl, rfl⟩

theorem SameStatics.trans {s s' s'' : PtrState P} (h : SameStatics s s') (h' : SameStatics s' s'') :
    SameStatics s s'' :=
  ⟨h'.duration.trans h.duration, h'.flag.trans h.flag, h'.gc.trans h.gc⟩

section Fragments

variable {fragments fragments' : Heap P (FragmentNode P)} {data data' : Heap P (List UInt8)}
  {xs : List (OwnedFragment P)} {fuel : Nat}

theorem FragmentsAt.congr (h : FragmentsAt fragments data xs)
    (hFragments : ∀ x ∈ xs, fragments' x.ptr = fragments x.ptr)
    (hData : ∀ x ∈ xs, data' x.block = data x.block) : FragmentsAt fragments' data' xs := by
  induction xs with
  | nil => trivial
  | cons x xs ih =>
    obtain ⟨hNode, hBytes, hRest⟩ := h
    refine ⟨(hFragments x List.mem_cons_self).trans hNode, (hData x List.mem_cons_self).trans hBytes,
      ih hRest (fun y hy => ?_) fun y hy => ?_⟩
    · exact hFragments y (List.mem_cons_of_mem _ hy)
    · exact hData y (List.mem_cons_of_mem _ hy)

theorem FragmentsAt.allocated (h : FragmentsAt fragments data xs) {x : OwnedFragment P} (hx : x ∈ xs) :
    (fragments x.ptr).isSome = true ∧ (data x.block).isSome = true := by
  induction xs with
  | nil => cases hx
  | cons y xs ih =>
    obtain ⟨hNode, hBytes, hRest⟩ := h
    rcases List.mem_cons.mp hx with rfl | hx
    · exact ⟨by rw [hNode]; rfl, by rw [hBytes]; rfl⟩
    · exact ih hRest hx

theorem searchOffset_eq (h : FragmentsAt fragments data xs) (hFuel : xs.length ≤ fuel) (offset : Nat) :
    searchOffset fragments offset fuel (firstOf xs) =
      .ok ((xs.find? fun x => x.piece.offset = offset).map OwnedFragment.ptr) := by
  induction xs generalizing fuel with
  | nil => cases fuel <;> rfl
  | cons x xs ih =>
    obtain ⟨hNode, -, hRest⟩ := h
    obtain ⟨fuel, rfl⟩ : ∃ n, fuel = n + 1 := ⟨fuel - 1, by simp at hFuel; omega⟩
    change searchOffset fragments offset (fuel + 1) (some x.ptr) = _
    rw [searchOffset, Heap.load_eq hNode, ok_bind]
    dsimp only
    by_cases hEq : x.piece.offset = offset
    · rw [if_pos hEq, List.find?_cons_of_pos (by simpa using hEq)]
      rfl
    · rw [if_neg hEq, List.find?_cons_of_neg (by simpa using hEq)]
      exact ih hRest (by simpa using hFuel)

theorem sumSizes_eq (h : FragmentsAt fragments data xs) (hFuel : xs.length ≤ fuel) (rxSize : Nat) :
    sumSizes fragments fuel (firstOf xs) rxSize =
      .ok (rxSize + Segment.total (xs.map OwnedFragment.piece)) := by
  induction xs generalizing fuel rxSize with
  | nil => cases fuel <;> rfl
  | cons x xs ih =>
    obtain ⟨hNode, -, hRest⟩ := h
    obtain ⟨fuel, rfl⟩ : ∃ n, fuel = n + 1 := ⟨fuel - 1, by simp at hFuel; omega⟩
    change sumSizes fragments (fuel + 1) (some x.ptr) rxSize = _
    rw [sumSizes, Heap.load_eq hNode, ok_bind, ih hRest (by simpa using hFuel), List.map_cons,
      Segment.total_cons]
    exact congrArg Except.ok (Nat.add_assoc rxSize x.piece.size _)

end Fragments

section Lists

variable {os front back : List (OwnedPacket P)} {o o' : OwnedPacket P}

theorem mem_fragmentPtrs {p : P} : p ∈ fragmentPtrs os ↔ ∃ o ∈ os, ∃ x ∈ o.fragments, x.ptr = p := by
  simp [fragmentPtrs, List.mem_flatMap]

theorem mem_blockPtrs {p : P} : p ∈ blockPtrs os ↔ ∃ o ∈ os, ∃ x ∈ o.fragments, x.block = p := by
  simp [blockPtrs, List.mem_flatMap]

theorem map_entry_middle (front back : List (OwnedPacket P)) (o : OwnedPacket P) :
    (front ++ o :: back).map OwnedPacket.entry =
      front.map OwnedPacket.entry ++ (o.ptr, o.key, o.body) :: back.map OwnedPacket.entry := by
  rw [List.map_append, List.map_cons]
  rfl

theorem getPacketFromHash_packet (os : List (OwnedPacket P)) (key : PacketKey) :
    Reassembly.getPacketFromHash (os.map OwnedPacket.packet) key =
      (os.find? fun o => o.key = key).map OwnedPacket.packet := by
  rw [Reassembly.getPacketFromHash, List.find?_map]
  rfl

/-- A packet gains a fragment at the front of its list. -/
theorem flatMap_push {γ : Type} (g : OwnedFragment P → γ) (front back : List (OwnedPacket P)) {x : OwnedFragment P}
    (h : o'.fragments = x :: o.fragments) :
    List.Perm ((front ++ o' :: back).flatMap fun o => o.fragments.map g)
      (g x :: (front ++ o :: back).flatMap fun o => o.fragments.map g) := by
  simp only [List.flatMap_append, List.flatMap_cons, h, List.map_cons, List.cons_append]
  exact List.perm_middle

theorem mem_middle {q : OwnedPacket P} (hq : q ∈ front ++ back) : q ∈ front ++ o :: back := by
  rcases List.mem_append.mp hq with hq | hq
  · exact List.mem_append_left _ hq
  · exact List.mem_append_right _ (List.mem_cons_of_mem _ hq)

theorem middle_cases {q : OwnedPacket P} {C : Prop} (hq : q ∈ front ++ o :: back)
    (hOther : q ∈ front ++ back → C) (hMiddle : q = o → C) : C := by
  rcases List.mem_append.mp hq with hq | hq
  · exact hOther (List.mem_append_left _ hq)
  · rcases List.mem_cons.mp hq with hEq | hq
    · exact hMiddle hEq
    · exact hOther (List.mem_append_right _ hq)

/-- What stands in the heaps for the packets other than the one in the middle. -/
theorem linked_middle {fragments : Heap P (FragmentNode P)} {data : Heap P (List UInt8)}
    (hOthers : ∀ q ∈ front ++ back, FragmentsAt fragments data q.fragments)
    (hMiddle : FragmentsAt fragments data o'.fragments) :
    ∀ q ∈ front ++ o' :: back, FragmentsAt fragments data q.fragments := by
  intro q hq
  refine middle_cases hq (hOthers q) ?_
  rintro rfl
  exact hMiddle

end Lists

section Packets

variable [DecidableEq P] {hash : PacketKey → UInt32} {s s' : PtrState P} {os front back : List (OwnedPacket P)}
  {o o' : OwnedPacket P} {fuel : Nat}

theorem Owns.load (h : Owns hash s (front ++ o :: back)) :
    ∃ e, s.packets.elems o.ptr = some e ∧ e.key = o.key ∧ e.val = o.body := by
  have hMem : o.entry ∈ (front ++ o :: back).map OwnedPacket.entry :=
    List.mem_map_of_mem (List.mem_append_right _ List.mem_cons_self)
  obtain ⟨e, he, hEq⟩ := Option.map_eq_some_iff.mp (h.holds.contents _ hMem)
  rw [Prod.mk.injEq] at hEq
  exact ⟨e, he, hEq.1, hEq.2⟩

theorem Owns.keys (h : Owns hash s os) : (os.map OwnedPacket.key).Nodup := by
  have hKeys := h.holds.keys
  rw [List.map_map] at hKeys
  exact hKeys

/-- A change of the fields of one packet, its fragments left alone. -/
theorem Owns.setVal {f : PacketNode P → PacketNode P} (h : Owns hash s (front ++ o :: back))
    (hPtr : o'.ptr = o.ptr) (hKey : o'.key = o.key) (hFragments : o'.fragments = o.fragments)
    (hf : ∀ e, (f e).key = e.key ∧ (f e).hh = e.hh) (hVal : ∀ e, e.val = o.body → (f e).val = o'.body) :
    Owns hash { s with packets := { s.packets with elems := s.packets.elems.change (some o.ptr) f } }
      (front ++ o' :: back) := by
  have hSame : ∀ {γ : Type} (g : OwnedFragment P → γ),
      (front ++ o' :: back).flatMap (fun o => o.fragments.map g) =
        (front ++ o :: back).flatMap fun o => o.fragments.map g := by
    intro γ g
    simp only [List.flatMap_append, List.flatMap_cons, hFragments]
  have hHolds := h.holds
  rw [map_entry_middle] at hHolds
  refine ⟨?_, fun q hq => ?_, ?_, ?_, ?_, ?_⟩
  · rw [map_entry_middle, hPtr, hKey]
    exact hHolds.setVal hf hVal
  · rcases List.mem_append.mp hq with hq | hq
    · exact h.linked q (List.mem_append_left _ hq)
    · rcases List.mem_cons.mp hq with rfl | hq
      · rw [hFragments]
        exact h.linked o (List.mem_append_right _ List.mem_cons_self)
      · exact h.linked q (List.mem_append_right _ (List.mem_cons_of_mem _ hq))
  · rw [fragmentPtrs, hSame]
    exact h.fragmentsNodup
  · rw [blockPtrs, hSame]
    exact h.blocksNodup
  · rw [fragmentPtrs, hSame]
    exact h.onlyFragments
  · rw [blockPtrs, hSame]
    exact h.onlyBlocks

theorem getPacketFromHash_eq (h : Owns hash s os) (hFuel : os.length ≤ fuel) (key : PacketKey) :
    getPacketFromHash hash fuel s key =
      .ok ((os.find? fun o => o.key = key).map OwnedPacket.ptr) := by
  rw [getPacketFromHash, hashFind_eq h.holds.represents h.holds.distinctKeys
    (by rw [List.length_map, List.length_map]; exact hFuel), h.holds.find, List.find?_map,
    Option.map_map]
  rfl

theorem Owns.pushFragment {x : OwnedFragment P} (h : Owns hash s (front ++ o :: back))
    (hPtr : s.fragments x.ptr = none) (hBlock : s.data x.block = none)
    (ho' : o' = { o with fragments := x :: o.fragments }) :
    Owns hash { s with
      packets := { s.packets with
        elems := s.packets.elems.change (some o.ptr) (setHead (some x.ptr)) }
      fragments := s.fragments.set x.ptr
        ⟨some x.block, x.piece.size, x.piece.offset, firstOf o.fragments⟩
      data := s.data.set x.block x.piece.bytes } (front ++ o' :: back) := by
  have hMiddle : o ∈ front ++ o :: back := List.mem_append_right _ List.mem_cons_self
  have hOld : ∀ q ∈ front ++ o :: back, ∀ y ∈ q.fragments, y.ptr ≠ x.ptr ∧ y.block ≠ x.block := by
    intro q hq y hy
    obtain ⟨hNode, hBytes⟩ := (h.linked q hq).allocated hy
    constructor
    · intro hEq
      rw [hEq, hPtr] at hNode
      cases hNode
    · intro hEq
      rw [hEq, hBlock] at hBytes
      cases hBytes
  have hKept : ∀ q ∈ front ++ o :: back,
      FragmentsAt (s.fragments.set x.ptr
        ⟨some x.block, x.piece.size, x.piece.offset, firstOf o.fragments⟩)
        (s.data.set x.block x.piece.bytes) q.fragments := fun q hq =>
    (h.linked q hq).congr (fun y hy => Heap.set_other (hOld q hq y hy).1)
      (fun y hy => Heap.set_other (hOld q hq y hy).2)
  have hFragments : o'.fragments = x :: o.fragments := by rw [ho']
  have hPerm := flatMap_push OwnedFragment.ptr front back hFragments
  have hPerm' := flatMap_push OwnedFragment.block front back hFragments
  have hHolds := h.holds
  rw [map_entry_middle] at hHolds
  refine ⟨?_, linked_middle (fun q hq => hKept q (mem_middle hq)) ?_, ?_, ?_, fun p hp => ?_,
    fun p hp => ?_⟩
  · rw [map_entry_middle, ho']
    exact hHolds.setVal (fun _ => ⟨rfl, rfl⟩) fun e he => by simp [setHead, he, OwnedPacket.body, firstOf]
  · rw [hFragments]
    exact ⟨Heap.set_same _ _ _, Heap.set_same _ _ _, hKept o hMiddle⟩
  · refine (hPerm.nodup_iff).mpr (List.nodup_cons.mpr ⟨fun hMem => ?_, h.fragmentsNodup⟩)
    obtain ⟨q, hq, y, hy, hEq⟩ := mem_fragmentPtrs.mp hMem
    exact (hOld q hq y hy).1 hEq
  · refine (hPerm'.nodup_iff).mpr (List.nodup_cons.mpr ⟨fun hMem => ?_, h.blocksNodup⟩)
    obtain ⟨q, hq, y, hy, hEq⟩ := mem_blockPtrs.mp hMem
    exact (hOld q hq y hy).2 hEq
  · refine hPerm.mem_iff.mpr ?_
    by_cases hEq : p = x.ptr
    · exact hEq ▸ List.mem_cons_self
    · refine List.mem_cons_of_mem _ (h.onlyFragments p ?_)
      change (s.fragments.set x.ptr _ p).isSome = true at hp
      rw [Heap.set_other hEq] at hp
      exact hp
  · refine hPerm'.mem_iff.mpr ?_
    by_cases hEq : p = x.block
    · exact hEq ▸ List.mem_cons_self
    · refine List.mem_cons_of_mem _ (h.onlyBlocks p ?_)
      change (s.data.set x.block _ p).isSome = true at hp
      rw [Heap.set_other hEq] at hp
      exact hp

theorem Owns.popFragment {x : OwnedFragment P} {xs : List (OwnedFragment P)}
    (h : Owns hash s (front ++ o :: back)) (hFragments : o.fragments = x :: xs)
    (ho' : o' = { o with fragments := xs }) :
    Owns hash { s with
      packets := { s.packets with
        elems := s.packets.elems.change (some o.ptr) (setHead (firstOf xs)) }
      fragments := s.fragments.clear x.ptr
      data := s.data.clear x.block } (front ++ o' :: back) := by
  have hTail : o'.fragments = xs := by rw [ho']
  have hFragments' : o.fragments = x :: o'.fragments := by rw [hFragments, hTail]
  have hPerm := flatMap_push OwnedFragment.ptr front back hFragments'
  have hPerm' := flatMap_push OwnedFragment.block front back hFragments'
  obtain ⟨hNotPtr, hNodup⟩ := List.nodup_cons.mp (hPerm.nodup_iff.mp h.fragmentsNodup)
  obtain ⟨hNotBlock, hNodup'⟩ := List.nodup_cons.mp (hPerm'.nodup_iff.mp h.blocksNodup)
  have hOld : ∀ q ∈ front ++ o' :: back, ∀ y ∈ q.fragments, y.ptr ≠ x.ptr ∧ y.block ≠ x.block :=
    fun q hq y hy => ⟨fun hEq => hNotPtr (mem_fragmentPtrs.mpr ⟨q, hq, y, hy, hEq⟩),
      fun hEq => hNotBlock (mem_blockPtrs.mpr ⟨q, hq, y, hy, hEq⟩)⟩
  have hKept : ∀ q ∈ front ++ o' :: back, FragmentsAt s.fragments s.data q.fragments := by
    refine linked_middle (fun q hq => h.linked q (mem_middle hq)) ?_
    have hWhole := h.linked o (List.mem_append_right _ List.mem_cons_self)
    rw [hFragments] at hWhole
    rw [hTail]
    exact hWhole.2.2
  have hHolds := h.holds
  rw [map_entry_middle] at hHolds
  refine ⟨?_, fun q hq => ?_, hNodup, hNodup', fun p hp => ?_, fun p hp => ?_⟩
  · rw [map_entry_middle, ho']
    exact hHolds.setVal (fun _ => ⟨rfl, rfl⟩) fun e he => by simp [setHead, he, OwnedPacket.body]
  · exact (hKept q hq).congr (fun y hy => Heap.clear_other (hOld q hq y hy).1)
      (fun y hy => Heap.clear_other (hOld q hq y hy).2)
  · change (s.fragments.clear x.ptr p).isSome = true at hp
    by_cases hEq : p = x.ptr
    · rw [hEq, Heap.clear_same] at hp
      cases hp
    · rw [Heap.clear_other hEq] at hp
      exact (List.mem_cons.mp (hPerm.mem_iff.mp (h.onlyFragments p hp))).resolve_left hEq
  · change (s.data.clear x.block p).isSome = true at hp
    by_cases hEq : p = x.block
    · rw [hEq, Heap.clear_same] at hp
      cases hp
    · rw [Heap.clear_other hEq] at hp
      exact (List.mem_cons.mp (hPerm'.mem_iff.mp (h.onlyBlocks p hp))).resolve_left hEq

end Packets

end CMeshApi.Reassembly.Pointers
