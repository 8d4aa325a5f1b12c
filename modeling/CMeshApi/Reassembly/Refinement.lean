import CMeshApi.Reassembly.Ownership

/-!
# The store in memory refines the store

Each function of the module, on memory that is owned by packets, does to them what the
function on lists does; in particular it never uses memory that is not allocated, and
what is allocated afterwards is again owned.
-/

namespace CMeshApi.Reassembly.Pointers

open Chains Heaps Uthash

variable {P : Type} [DecidableEq P] {hash : PacketKey → UInt32} {s s' : PtrState P}
  {os front back : List (OwnedPacket P)} {o : OwnedPacket P} {fuel : Nat}

/-- Which allocations are granted. -/
def Mallocs.allocs (mallocs : Mallocs P) : Allocs :=
  ⟨mallocs.packet.isSome, mallocs.fragment.isSome, mallocs.data.isSome⟩

/-- An address that the allocator returns is not in use. -/
structure Mallocs.Fresh (mallocs : Mallocs P) (s : PtrState P) : Prop where
  packet : ∀ p, mallocs.packet = some p → s.packets.elems p = none
  fragment : ∀ f, mallocs.fragment = some f → s.fragments f = none
  data : ∀ d, mallocs.data = some d → s.data d = none

omit [DecidableEq P] in
/-- A packet found by its key, and where it is among the others. -/
theorem find_middle {key : PacketKey} (h : os.find? (fun o => o.key = key) = some o) :
    ∃ front back, os = front ++ o :: back := List.append_of_mem (List.mem_of_find?_eq_some h)

theorem getOrCreatePacket_ends {mallocs : Mallocs P} (h : Owns hash s os) (hFuel : os.length + 1 ≤ fuel)
    (hFresh : mallocs.Fresh s) (key : PacketKey) :
    Ends mallocs.hash.Refuses (getOrCreatePacket hash fuel s key mallocs) fun r =>
      SameStatics s r.1 ∧ r.1.fragments = s.fragments ∧ r.1.data = s.data ∧
      ((r.2 = none ∧ Owns hash r.1 os ∧
          Reassembly.getOrCreatePacket (os.map OwnedPacket.packet) key mallocs.allocs.packet = none) ∨
        ∃ front o back, r.2 = some o.ptr ∧ Owns hash r.1 (front ++ o :: back) ∧
          (front ++ o :: back).length ≤ os.length + 1 ∧
          (∀ q ∈ front ++ o :: back, q ∈ os ∨ q.fragments = []) ∧
          Reassembly.getOrCreatePacket (os.map OwnedPacket.packet) key mallocs.allocs.packet =
            some ((front ++ o :: back).map OwnedPacket.packet, o.packet)) := by
  have hFind := getPacketFromHash_eq h (Nat.le_of_succ_le hFuel) key
  rw [getOrCreatePacket, hFind, ok_bind]
  unfold Reassembly.getOrCreatePacket
  rw [getPacketFromHash_packet]
  cases hFound : os.find? fun o => o.key = key with
  | some o =>
    obtain ⟨front, back, rfl⟩ := find_middle hFound
    exact ⟨SameStatics.refl s, rfl, rfl,
      Or.inr ⟨front, o, back, rfl, h, Nat.le_succ _, fun q hq => Or.inl hq, rfl⟩⟩
  | none =>
    obtain ⟨packet, fragment, data, allocs⟩ := mallocs
    cases packet with
    | none => exact ⟨SameStatics.refl s, rfl, rfl, Or.inl ⟨rfl, h, rfl⟩⟩
    | some p =>
      let o : OwnedPacket P := ⟨p, key, 0, false, 0, []⟩
      have hPtr : ∀ x ∈ os.map OwnedPacket.entry, x.1 ≠ p := by
        intro x hx hEq
        have hSome := h.holds.represents.allocated (List.mem_map_of_mem hx)
        rw [hEq, hFresh.packet p rfl] at hSome
        cases hSome
      have hKey : ∀ x ∈ os.map OwnedPacket.entry, x.2.1 ≠ key := by
        intro x hx
        obtain ⟨q, hq, rfl⟩ := List.mem_map.mp hx
        exact fun hEq => List.find?_eq_none.mp hFound q hq (decide_eq_true hEq)
      refine Ends.bind (Q := fun packets => Holds hash packets ((os ++ [o]).map OwnedPacket.entry)) ?_ ?_
      · rw [List.map_append]
        exact h.holds.add ⟨none, none, none, none, none, 0⟩ allocs hPtr hKey
          (by rw [List.length_map]; exact hFuel)
      · intro packets hHolds
        have hEmpty : ∀ {γ : Type} (g : OwnedFragment P → γ),
            (os ++ [o]).flatMap (fun o => o.fragments.map g) =
              os.flatMap fun o => o.fragments.map g := by
          intro γ g
          rw [List.flatMap_append]
          exact List.append_nil _
        refine ⟨⟨rfl, rfl, rfl⟩, rfl, rfl, Or.inr ⟨os, o, [], rfl, ⟨hHolds, fun q hq => ?_, ?_, ?_, ?_, ?_⟩,
          by simp, fun q hq => ?_, ?_⟩⟩
        · rcases List.mem_append.mp hq with hq | hq
          · exact h.linked q hq
          · rw [List.mem_singleton.mp hq]
            trivial
        · rw [fragmentPtrs, hEmpty]
          exact h.fragmentsNodup
        · rw [blockPtrs, hEmpty]
          exact h.blocksNodup
        · rw [fragmentPtrs, hEmpty]
          exact h.onlyFragments
        · rw [blockPtrs, hEmpty]
          exact h.onlyBlocks
        · rcases List.mem_append.mp hq with hq | hq
          · exact Or.inl hq
          · rw [List.mem_singleton.mp hq]
            exact Or.inr rfl
        · rw [List.map_append]
          rfl

/-- The packet after one of its functions: its place and its key stay. -/
structure Kept (o o' : OwnedPacket P) : Prop where
  ptr : o'.ptr = o.ptr
  key : o'.key = o.key
  growth : o'.fragments.length ≤ o.fragments.length + 1

omit [DecidableEq P] in
theorem find?_piece (xs : List (OwnedFragment P)) (offset : Nat) :
    (xs.find? fun x => x.piece.offset = offset) = none ↔
      ((xs.map OwnedFragment.piece).any fun f => f.offset = offset) = false := by
  simp

theorem addFragmentToFullPacket_eq (mallocs : Mallocs P) (h : Owns hash s (front ++ o :: back))
    (hFuel : o.fragments.length ≤ fuel)
    (hFreshFragment : ∀ f, mallocs.fragment = some f → s.fragments f = none)
    (hFreshData : ∀ d, mallocs.data = some d → s.data d = none) (frag : ReassemblyFragment)
    (now : Nat) :
    ∃ s' added, addFragmentToFullPacket fuel s o.ptr frag mallocs now = .ok (s', added) ∧
      SameStatics s s' ∧
      ((added = false ∧ Owns hash s' (front ++ o :: back) ∧
          Reassembly.addFragmentToFullPacket o.packet frag mallocs.allocs now = none) ∨
        ∃ o', added = true ∧ Kept o o' ∧ Owns hash s' (front ++ o' :: back) ∧
          Reassembly.addFragmentToFullPacket o.packet frag mallocs.allocs now = some o'.packet) := by
  obtain ⟨e, he, -, hVal⟩ := h.load
  have hHead : e.val.head = firstOf o.fragments := by rw [hVal]; rfl
  have hList := h.linked o (List.mem_append_right _ List.mem_cons_self)
  have hSearch := searchOffset_eq hList hFuel frag.offset
  rw [addFragmentToFullPacket, Heap.load_eq he, ok_bind, hHead, hSearch, ok_bind]
  unfold Reassembly.addFragmentToFullPacket
  cases hFound : o.fragments.find? fun x => x.piece.offset = frag.offset with
  | some x =>
    have hAny : (o.packet.head.any fun f => f.offset = frag.offset) = true := by
      refine List.any_eq_true.mpr ⟨x.piece, List.mem_map_of_mem (List.mem_of_find?_eq_some hFound), ?_⟩
      exact List.find?_some (p := fun x : OwnedFragment P => x.piece.offset = frag.offset) hFound
    exact ⟨s, false, rfl, SameStatics.refl s, Or.inl ⟨rfl, h, if_pos hAny⟩⟩
  | none =>
    have hAny : (o.packet.head.any fun f => f.offset = frag.offset) = false :=
      (find?_piece o.fragments frag.offset).mp hFound
    rw [hAny]
    obtain ⟨packet, fragment, data, allocs⟩ := mallocs
    cases fragment with
    | none =>
      cases data with
      | none => exact ⟨s, false, rfl, SameStatics.refl s, Or.inl ⟨rfl, h, rfl⟩⟩
      | some d =>
        have hd : s.data d = none := hFreshData d rfl
        have hFree : freeBlock (s.data.set d (List.replicate frag.size 0)) (some d) frag.size =
            .ok s.data := by
          rw [freeBlock, Heap.load_eq (Heap.set_same _ _ _), ok_bind, if_pos List.length_replicate,
            Heap.free_eq (by rw [Heap.set_same]; rfl), Heap.clear_set hd]
        simp only [Option.map_none, platformMalloc, platformFree, ok_bind, hFree]
        exact ⟨s, false, rfl, SameStatics.refl s, Or.inl ⟨rfl, h, rfl⟩⟩
    | some f =>
      have hf : s.fragments f = none := hFreshFragment f rfl
      cases data with
      | none =>
        have hFree : platformFree (s.fragments.set f ⟨none, 0, 0, none⟩) (some f) = .ok s.fragments := by
          rw [platformFree, Heap.free_eq (by rw [Heap.set_same]; rfl), Heap.clear_set hf]
        simp only [Option.map_none, platformMalloc, freeBlock, ok_bind, hFree]
        exact ⟨s, false, rfl, SameStatics.refl s, Or.inl ⟨rfl, h, rfl⟩⟩
      | some d =>
        have hd : s.data d = none := hFreshData d rfl
        have hAllocated : (s.packets.elems o.ptr).isSome = true := by rw [he]; rfl
        let x : OwnedFragment P := ⟨f, d, frag.piece⟩
        let o₁ : OwnedPacket P := { o with fragments := x :: o.fragments }
        let o₂ : OwnedPacket P := { o₁ with
          fullSize := if frag.lastFragment then frag.offset + frag.size else o.fullSize }
        let o₃ : OwnedPacket P := { o₂ with timestampMsEpochLast := now }
        have h₁ := h.pushFragment (x := x) hf hd (show o₁ = { o with fragments := x :: o.fragments } from rfl)
        have h₂ := h₁.setVal
          (f := fun e => if frag.lastFragment then
            { e with val := { e.val with fullSize := frag.offset + frag.size } } else e)
          (show o₂.ptr = _ from rfl) rfl rfl (fun e => by split <;> exact ⟨rfl, rfl⟩)
          (fun e he => by cases hLast : frag.lastFragment <;> simp [he, hLast, o₂, o₁, OwnedPacket.body])
        have h₃ := h₂.setVal
          (f := fun e => { e with val := { e.val with timestampMsEpochLast := now } })
          (show o₃.ptr = _ from rfl) rfl rfl (fun e => ⟨rfl, rfl⟩)
          (fun e he => by simp [he, o₃, OwnedPacket.body])
        simp only [Option.map_none, platformMalloc, Heap.modify_set, ok_bind, Heap.modify_eq hAllocated,
          Heap.modify_change hAllocated,
          Heap.modify_change (h := s.packets.elems.change (some o.ptr) (setHead (some f)))
            (show _ = true by rw [Heap.isSome_change]; exact hAllocated)]
        exact ⟨_, true, rfl, ⟨rfl, rfl, rfl⟩,
          Or.inr ⟨o₃, rfl, ⟨rfl, rfl, Nat.le_refl _⟩, h₃, rfl⟩⟩

theorem isPacketFull_eq (h : Owns hash s (front ++ o :: back)) (hFuel : o.fragments.length ≤ fuel) :
    ∃ s' o', isPacketFull fuel s o.ptr = .ok (s', (Reassembly.isPacketFull o.packet).2) ∧
      SameStatics s s' ∧ Owns hash s' (front ++ o' :: back) ∧ o'.ptr = o.ptr ∧ o'.key = o.key ∧
      o'.fragments = o.fragments ∧ o'.packet = (Reassembly.isPacketFull o.packet).1 := by
  obtain ⟨e, he, -, hVal⟩ := h.load
  have hIsFull : e.val.isFull = o.packet.isFull := by rw [hVal]; rfl
  have hFullSize : e.val.fullSize = o.packet.fullSize := by rw [hVal]; rfl
  have hHead : e.val.head = firstOf o.fragments := by rw [hVal]; rfl
  have hSum := sumSizes_eq (h.linked o (List.mem_append_right _ List.mem_cons_self)) hFuel 0
  have hPieces : o.fragments.map OwnedFragment.piece = o.packet.head := rfl
  rw [Nat.zero_add, hPieces] at hSum
  rw [isPacketFull, Heap.load_eq he, ok_bind, hIsFull, hFullSize, hHead]
  unfold Reassembly.isPacketFull
  by_cases hFull : o.packet.isFull = true
  · rw [if_pos hFull, if_pos hFull]
    exact ⟨s, o, rfl, SameStatics.refl s, h, rfl, rfl, rfl, rfl⟩
  by_cases hKnown : o.packet.fullSize = 0
  · rw [if_neg hFull, if_neg hFull, if_pos hKnown, if_pos hKnown]
    exact ⟨s, o, rfl, SameStatics.refl s, h, rfl, rfl, rfl, rfl⟩
  rw [if_neg hFull, if_neg hFull, if_neg hKnown, if_neg hKnown, hSum, ok_bind]
  by_cases hTotal : Segment.total o.packet.head = o.packet.fullSize
  · rw [if_pos hTotal, if_pos hTotal, Heap.modify_eq (by rw [he]; rfl)]
    exact ⟨_, { o with isFull := true }, rfl, ⟨rfl, rfl, rfl⟩,
      h.setVal rfl rfl rfl (fun _ => ⟨rfl, rfl⟩) (fun e he => by simp [he, OwnedPacket.body]),
      rfl, rfl, rfl, rfl⟩
  · rw [if_neg hTotal, if_neg hTotal]
    exact ⟨s, o, rfl, SameStatics.refl s, h, rfl, rfl, rfl, rfl⟩

omit [DecidableEq P] in
theorem readBlock_eq {data : Heap P (List UInt8)} {d : P} {bytes : List UInt8}
    (h : data d = some bytes) : readBlock data (some d) bytes.length = .ok bytes := by
  rw [readBlock, Heap.load_eq h, ok_bind, if_pos (Nat.le_refl _), List.take_length]
  rfl

theorem freeBlock_eq {data : Heap P (List UInt8)} {d : P} {bytes : List UInt8}
    (h : data d = some bytes) : freeBlock data (some d) bytes.length = .ok (data.clear d) := by
  rw [freeBlock, Heap.load_eq h, ok_bind, if_pos rfl, Heap.free_eq (by rw [h]; rfl)]

/-- Each round releases the first fragment, so that the deletion never has to search. -/
theorem releaseFragments_eq {β : Type} (fuel : Nat) (visit : Nat → List UInt8 → β → β)
    (h : Owns hash s (front ++ o :: back)) {rounds : Nat} (hRounds : o.fragments.length ≤ rounds)
    (acc : β) :
    ∃ s', releaseFragments visit fuel o.ptr rounds (firstOf o.fragments) s acc =
        .ok (s', (o.fragments.map OwnedFragment.piece).foldl
          (fun acc f => visit f.offset f.bytes acc) acc) ∧
      SameStatics s s' ∧ Owns hash s' (front ++ { o with fragments := [] } :: back) := by
  obtain ⟨xs, hxs⟩ : ∃ xs, xs = o.fragments := ⟨_, rfl⟩
  induction xs generalizing s o rounds acc with
  | nil =>
    have hEq : o = { o with fragments := [] } := by rw [hxs]
    refine ⟨s, ?_, SameStatics.refl s, hEq ▸ h⟩
    rw [← hxs]
    cases rounds <;> rfl
  | cons x xs ih =>
    rw [← hxs] at hRounds ⊢
    obtain ⟨rounds, rfl⟩ : ∃ n, rounds = n + 1 := ⟨rounds - 1, by simp at hRounds; omega⟩
    obtain ⟨e, he, -, hVal⟩ := h.load
    have hList := h.linked o (List.mem_append_right _ List.mem_cons_self)
    rw [← hxs] at hList
    obtain ⟨hNode, hBytes, -⟩ := hList
    have hHead : e.val.head = some x.ptr := by rw [hVal, OwnedPacket.body, ← hxs]; rfl
    have hPop := h.popFragment hxs.symm rfl
    obtain ⟨s', hRelease, hStatics, hOwns⟩ := ih (o := { o with fragments := xs }) hPop
      (by simpa using hRounds) (visit x.piece.offset x.piece.bytes acc) rfl
    refine ⟨s', ?_, ⟨hStatics.duration, hStatics.flag, hStatics.gc⟩, hOwns⟩
    have hDelete : llDelete fuel { s with data := s.data.clear x.block } o.ptr x.ptr =
        .ok { s with
          data := s.data.clear x.block
          packets := { s.packets with
            elems := s.packets.elems.change (some o.ptr) (setHead (firstOf xs)) } } := by
      rw [llDelete, Heap.load_eq he, ok_bind]
      simp only [hHead, if_true, Heap.load_eq hNode, ok_bind, Heap.modify_eq
        (show (s.packets.elems o.ptr).isSome = true by rw [he]; rfl)]
      rfl
    change releaseFragments visit fuel o.ptr (rounds + 1) (some x.ptr) s acc = _
    rw [releaseFragments, Heap.load_eq hNode, ok_bind]
    simp only [Segment.size, readBlock_eq hBytes, freeBlock_eq hBytes, ok_bind, hDelete,
      Heap.free_eq (show (s.fragments x.ptr).isSome = true by rw [hNode]; rfl)]
    exact hRelease

theorem deletePacket_eq (h : Owns hash s (front ++ o :: back)) (hEmpty : o.fragments = []) :
    ∃ s', deletePacket s o.ptr = .ok s' ∧ SameStatics s s' ∧ Owns hash s' (front ++ back) := by
  have hMem : o.ptr ∈ ((front ++ o :: back).map OwnedPacket.entry).map Prod.fst :=
    List.mem_map_of_mem (List.mem_map_of_mem (a := o) (List.mem_append_right _ List.mem_cons_self))
  obtain ⟨packets, hDelete, hSome, -, hHolds⟩ := h.holds.delete hMem
  have hNodup := h.holds.represents.nodup
  rw [List.map_map, List.map_append, List.map_cons, List.nodup_append, List.nodup_cons] at hNodup
  obtain ⟨-, ⟨hBack, -⟩, hFront⟩ := hNodup
  -- the other entries have other pointers
  have hFilter : ((front ++ o :: back).map OwnedPacket.entry).filter (fun x => x.1 ≠ o.ptr) =
      (front ++ back).map OwnedPacket.entry := by
    rw [map_entry_middle, List.filter_append, List.filter_cons_of_neg (by simp), List.map_append,
      List.filter_eq_self.mpr fun x hx => ?_, List.filter_eq_self.mpr fun x hx => ?_]
    · obtain ⟨q, hq, rfl⟩ := List.mem_map.mp hx
      refine decide_eq_true fun hEq => hBack ?_
      exact List.mem_map.mpr ⟨q, hq, hEq⟩
    · obtain ⟨q, hq, rfl⟩ := List.mem_map.mp hx
      refine decide_eq_true fun hEq => ?_
      exact hFront q.ptr (List.mem_map.mpr ⟨q, hq, rfl⟩) o.ptr List.mem_cons_self hEq
  rw [hFilter] at hHolds
  have hSame : ∀ {γ : Type} (g : OwnedFragment P → γ),
      (front ++ o :: back).flatMap (fun o => o.fragments.map g) =
        (front ++ back).flatMap fun o => o.fragments.map g := by
    intro γ g
    simp only [List.flatMap_append, List.flatMap_cons, hEmpty, List.map_nil, List.nil_append]
  have hFragments := h.fragmentsNodup
  have hBlocks := h.blocksNodup
  have hOnlyFragments := h.onlyFragments
  have hOnlyBlocks := h.onlyBlocks
  rw [fragmentPtrs, hSame] at hFragments hOnlyFragments
  rw [blockPtrs, hSame] at hBlocks hOnlyBlocks
  refine ⟨{ s with packets := { packets with elems := packets.elems.clear o.ptr } }, ?_,
    ⟨rfl, rfl, rfl⟩, hHolds, fun q hq => h.linked q (mem_middle hq), hFragments, hBlocks,
    hOnlyFragments, hOnlyBlocks⟩
  rw [deletePacket, hDelete, ok_bind, Heap.free_eq hSome]
  rfl

/-- The memory of a state of the store. -/
structure Refines (hash : PacketKey → UInt32) (s : PtrState P) (a : State) (os : List (OwnedPacket P)) :
    Prop where
  owns : Owns hash s os
  packets : a.packets = os.map OwnedPacket.packet
  duration : a.fragmentMaxDurationS = s.fragmentMaxDurationS
  flag : a.isQueueEmpty = s.isQueueEmpty
  gc : a.lastGcTsMs = s.lastGcTsMs

/-- The numbers of packets, and of fragments of each packet, are bounded by the rounds that a loop
is followed for. -/
structure Bounded (n : Nat) (os : List (OwnedPacket P)) : Prop where
  packets : os.length ≤ n
  fragments : ∀ o ∈ os, o.fragments.length ≤ n

variable {a : State} {n : Nat}

omit [DecidableEq P] in
theorem storePacket_middle {p : FullPacket} (hKey : p.key = o.key)
    (hKeys : ((front ++ o :: back).map OwnedPacket.key).Nodup) :
    storePacket p ((front ++ o :: back).map OwnedPacket.packet) =
      front.map OwnedPacket.packet ++ p :: back.map OwnedPacket.packet := by
  induction front with
  | nil => exact if_pos hKey.symm
  | cons q front ih =>
    rw [List.cons_append, List.map_cons, List.nodup_cons] at hKeys
    have hNe : q.packet.key ≠ p.key := by
      rw [hKey]
      intro hEq
      exact hKeys.1 (List.mem_map.mpr ⟨o, List.mem_append_right _ List.mem_cons_self, hEq.symm⟩)
    rw [List.cons_append, List.map_cons, storePacket, if_neg hNe, ih hKeys.2]
    rfl

omit [DecidableEq P] in
theorem deletePacket_middle (hKeys : ((front ++ o :: back).map OwnedPacket.key).Nodup) :
    Reassembly.deletePacket o.key ((front ++ o :: back).map OwnedPacket.packet) =
      (front ++ back).map OwnedPacket.packet := by
  induction front with
  | nil => exact List.eraseP_cons_of_pos (by simp [OwnedPacket.packet])
  | cons q front ih =>
    rw [List.cons_append, List.map_cons, List.nodup_cons] at hKeys
    have hNe : q.packet.key ≠ o.key := fun hEq =>
      hKeys.1 (List.mem_map.mpr ⟨o, List.mem_append_right _ List.mem_cons_self, hEq.symm⟩)
    exact (List.eraseP_cons_of_neg (by simpa using hNe)).trans (congrArg (q.packet :: ·) (ih hKeys.2))

theorem reassemblyAddFragment_ends {mallocs : Mallocs P} (h : Refines hash s a os) (hBounded : Bounded n os)
    (hFuel : n + 1 ≤ fuel) (hFresh : mallocs.Fresh s) (frag : ReassemblyFragment) (now : Nat) :
    Ends mallocs.hash.Refuses (reassemblyAddFragment hash fuel s frag mallocs now) fun r =>
      r.2 = (Reassembly.reassemblyAddFragment a frag mallocs.allocs now).2 ∧
      ∃ os', Refines hash r.1 (Reassembly.reassemblyAddFragment a frag mallocs.allocs now).1 os' ∧
        Bounded (n + 1) os' := by
  have hOwns : Owns hash { s with isQueueEmpty := false } os :=
    ⟨h.owns.holds, h.owns.linked, h.owns.fragmentsNodup, h.owns.blocksNodup, h.owns.onlyFragments,
      h.owns.onlyBlocks⟩
  have hFresh' : mallocs.Fresh { s with isQueueEmpty := false } :=
    ⟨hFresh.packet, hFresh.fragment, hFresh.data⟩
  have hLength := hBounded.packets
  rw [reassemblyAddFragment]
  refine (getOrCreatePacket_ends hOwns (by omega) hFresh' frag.key).bind ?_
  rintro ⟨s₁, found⟩ ⟨hStatics, hFragments, hData, hCases⟩
  unfold Reassembly.reassemblyAddFragment
  rw [h.packets]
  rcases hCases with ⟨hNone, hOwns₁, hStore⟩ | ⟨front, o, back, hSome, hOwns₁, hLength₁, hOld, hStore⟩
  · obtain rfl : found = none := hNone
    rw [hStore]
    refine ⟨rfl, os, ⟨hOwns₁, rfl, ?_, ?_, ?_⟩, Nat.le_succ_of_le hLength,
      fun o ho => Nat.le_succ_of_le (hBounded.fragments o ho)⟩
    · exact h.duration.trans hStatics.duration.symm
    · exact hStatics.flag.symm
    · exact h.gc.trans hStatics.gc.symm
  · obtain rfl : found = some o.ptr := hSome
    rw [hStore]
    dsimp only
    have hBounded₁ : Bounded (n + 1) (front ++ o :: back) := by
      refine ⟨by omega, fun q hq => ?_⟩
      rcases hOld q hq with hq | hq
      · exact Nat.le_succ_of_le (hBounded.fragments q hq)
      · rw [hq]
        exact Nat.zero_le _
    have hFragmentsLe : o.fragments.length ≤ n := by
      rcases hOld o (List.mem_append_right _ List.mem_cons_self) with ho | ho
      · exact hBounded.fragments o ho
      · rw [ho]
        exact Nat.zero_le _
    obtain ⟨s₂, added, hAdd, hStatics₂, hAdded⟩ := addFragmentToFullPacket_eq mallocs
      hOwns₁ (show _ ≤ fuel by omega) (fun f hf => by rw [hFragments]; exact hFresh.fragment f hf)
      (fun d hd => by rw [hData]; exact hFresh.data d hd) frag now
    rw [hAdd, ok_bind]
    have hStatics' := hStatics.trans hStatics₂
    rcases hAdded with ⟨rfl, hOwns₂, hStore₂⟩ | ⟨o₂, rfl, hKept, hOwns₂, hStore₂⟩
    · rw [hStore₂]
      exact ⟨rfl, _, ⟨hOwns₂, rfl, h.duration.trans hStatics'.duration.symm, hStatics'.flag.symm,
        h.gc.trans hStatics'.gc.symm⟩, hBounded₁⟩
    · have hGrowth := hKept.growth
      obtain ⟨s₃, o₃, hFull, hStatics₃, hOwns₃, hPtr₃, hKey₃, hFragments₃, hPacket₃⟩ :=
        isPacketFull_eq hOwns₂ (show _ ≤ fuel by omega)
      obtain ⟨e, he, -, hVal⟩ := hOwns₃.load
      have hSize : e.val.fullSize = o₃.packet.fullSize := by rw [hVal]; rfl
      have hStatics'' := hStatics'.trans hStatics₃
      have hKey : o₃.packet.key = o.key := hKey₃.trans hKept.key
      have hStored := storePacket_middle hKey hOwns₁.keys
      rw [hPtr₃, hKept.ptr] at he
      rw [hKept.ptr] at hFull
      rw [hStore₂]
      simp only [if_true, hFull, ok_bind, Heap.load_eq he, ← hPacket₃, hSize, hStored]
      refine ⟨rfl, front ++ o₃ :: back, ⟨hOwns₃, ?_, h.duration.trans hStatics''.duration.symm,
        hStatics''.flag.symm, h.gc.trans hStatics''.gc.symm⟩, ?_⟩
      · rw [List.map_append, List.map_cons]
      · refine ⟨?_, fun q hq => ?_⟩
        · have hPackets := hBounded₁.packets
          simp only [List.length_append, List.length_cons] at hPackets ⊢
          exact hPackets
        · refine middle_cases hq (fun hMem => hBounded₁.fragments q (mem_middle hMem)) ?_
          rintro rfl
          rw [hFragments₃]
          omega

theorem hashCount_zero (h : Owns hash s os) :
    ∃ count, hashCount s.packets = .ok count ∧
      decide (count = 0) = (os.map OwnedPacket.packet).isEmpty := by
  refine ⟨os.length, ?_, ?_⟩
  · rw [hashCount_eq h.holds.represents, List.length_map, List.length_map]
  · cases os with
    | nil => rfl
    | cons o os => simp

theorem reassemblyGetFullMessage_eq (h : Refines hash s a os) (hBounded : Bounded n os) (hFuel : n ≤ fuel)
    (key : PacketKey) (buffer : Memory UInt8) (size : Nat) :
    ∃ s' os', reassemblyGetFullMessage hash fuel s key buffer size =
        .ok (s', (Reassembly.reassemblyGetFullMessage a key buffer size).2) ∧
      Refines hash s' (Reassembly.reassemblyGetFullMessage a key buffer size).1 os' ∧
      Bounded n os' := by
  have hFind := getPacketFromHash_eq h.owns (Nat.le_trans hBounded.packets hFuel) key
  rw [reassemblyGetFullMessage, hFind, ok_bind]
  unfold Reassembly.reassemblyGetFullMessage
  rw [h.packets, getPacketFromHash_packet]
  cases hFound : os.find? fun o => o.key = key with
  | none => exact ⟨s, os, rfl, h, hBounded⟩
  | some o =>
    obtain ⟨front, back, rfl⟩ := find_middle hFound
    obtain ⟨e, he, -, hVal⟩ := h.owns.load
    have hIsFull : e.val.isFull = o.packet.isFull := by rw [hVal]; rfl
    have hFullSize : e.val.fullSize = o.packet.fullSize := by rw [hVal]; rfl
    have hHead : e.val.head = firstOf o.fragments := by rw [hVal]; rfl
    simp only [Option.map_some, reassembleFullPacket, Heap.load_eq he, ok_bind, hIsFull, hFullSize,
      hHead]
    unfold Reassembly.reassembleFullPacket
    by_cases hFull : (!o.packet.isFull) = true
    · rw [if_pos hFull, if_pos hFull]
      exact ⟨s, _, rfl, h, hBounded⟩
    by_cases hSize : size < o.packet.fullSize
    · rw [if_neg hFull, if_neg hFull, if_pos hSize, if_pos hSize]
      exact ⟨s, _, rfl, h, hBounded⟩
    rw [if_neg hFull, if_neg hFull, if_neg hSize, if_neg hSize]
    obtain ⟨s₁, hRelease, hStatics₁, hOwns₁⟩ := releaseFragments_eq fuel
      (fun offset bytes (buffer : Memory UInt8) => buffer.write offset bytes) h.owns
      (Nat.le_trans (hBounded.fragments o (List.mem_append_right _ List.mem_cons_self)) hFuel) buffer
    obtain ⟨e₁, he₁, -, hVal₁⟩ := hOwns₁.load
    obtain ⟨s₂, hDelete, hStatics₂, hOwns₂⟩ := deletePacket_eq hOwns₁ rfl
    obtain ⟨count, hCount, hZero⟩ := hashCount_zero hOwns₂
    have hStatics := hStatics₁.trans hStatics₂
    have hSize₁ : e₁.val.fullSize = o.packet.fullSize := by rw [hVal₁]; rfl
    have hErase : Reassembly.deletePacket o.packet.key a.packets = (front ++ back).map OwnedPacket.packet := by
      rw [h.packets]
      exact deletePacket_middle h.owns.keys
    simp only [hRelease, ok_bind, Heap.load_eq he₁, hDelete, hCount, hSize₁, hZero]
    refine ⟨_, front ++ back, rfl, ⟨?_, hErase, ?_, ?_, ?_⟩, ?_, fun q hq => ?_⟩
    · exact ⟨hOwns₂.holds, hOwns₂.linked, hOwns₂.fragmentsNodup, hOwns₂.blocksNodup,
        hOwns₂.onlyFragments, hOwns₂.onlyBlocks⟩
    · exact h.duration.trans hStatics.duration.symm
    · exact congrArg List.isEmpty hErase
    · exact h.gc.trans hStatics.gc.symm
    · have hLength := hBounded.packets
      simp only [List.length_append, List.length_cons] at hLength ⊢
      omega
    · exact hBounded.fragments q (mem_middle hq)

/-- What follows a packet in app order. -/
theorem hhNextOf_eq (h : Owns hash s (front ++ back)) :
    hhNextOf s (back.head?.map OwnedPacket.ptr) = .ok (back.tail.head?.map OwnedPacket.ptr) := by
  cases back with
  | nil => rfl
  | cons o back =>
    obtain ⟨e, he, -⟩ := h.load
    rcases h.holds.represents with ⟨hNil, -⟩ | ⟨-, tp, t, chains, hOrdered, -⟩
    · simp at hNil
    · have hApp := hOrdered.app
      rw [map_entry_middle, List.map_append, List.map_cons] at hApp
      have hLinks : appLinks s.packets.elems o.ptr = some ⟨e.hh.prev, e.hh.next⟩ := by
        rw [appLinks, he]
        rfl
      have hNext := hApp.next_eq hLinks
      simp only [List.head?_cons, Option.map_some, hhNextOf, Heap.load_eq he, ok_bind, hNext,
        List.tail_cons, List.head?_map, Option.map_map]
      rfl

theorem headOf_eq (h : Owns hash s os) : s.packets.head = os.head?.map OwnedPacket.ptr := by
  rcases h.holds.represents with ⟨hNil, hHead, -⟩ | ⟨-, tp, t, chains, hOrdered, -⟩
  · rw [hHead, show os = [] by simpa using hNil]
    rfl
  · rw [hOrdered.app.first_eq, List.head?_map, List.head?_map, Option.map_map]
    rfl

theorem collectPacket_eq (h : Owns hash s (front ++ o :: back)) (hFuel : o.fragments.length ≤ fuel)
    (hDuration : a.fragmentMaxDurationS = s.fragmentMaxDurationS) (now : Nat) :
    ∃ s', collectPacket fuel s now o.ptr = .ok s' ∧ SameStatics s s' ∧
      Owns hash s' (front ++ if expired a now o.packet then back else o :: back) := by
  obtain ⟨e, he, -, hVal⟩ := h.load
  have hTime : e.val.timestampMsEpochLast = o.packet.timestampMsEpochLast := by rw [hVal]; rfl
  have hHead : e.val.head = firstOf o.fragments := by rw [hVal]; rfl
  have hExpired : (expired a now o.packet = true) = (s.fragmentMaxDurationS.toNat <
      (now - o.packet.timestampMsEpochLast) / 1000 % 2 ^ 32) := by
    rw [expired, hDuration, decide_eq_true_eq]
  rw [collectPacket, Heap.load_eq he, ok_bind]
  simp only [hTime, hHead, hExpired]
  split
  · obtain ⟨s₁, hRelease, hStatics₁, hOwns₁⟩ := releaseFragments_eq fuel
      (fun _ _ (u : Unit) => u) h hFuel ()
    obtain ⟨s₂, hDelete, hStatics₂, hOwns₂⟩ := deletePacket_eq hOwns₁ rfl
    simp only [hRelease, ok_bind]
    exact ⟨s₂, hDelete, hStatics₁.trans hStatics₂, hOwns₂⟩
  · exact ⟨s, rfl, SameStatics.refl s, h⟩

theorem collectPackets_eq {rounds : Nat} (h : Owns hash s (front ++ back)) (hRounds : back.length ≤ rounds)
    (hFuel : ∀ o ∈ back, o.fragments.length ≤ fuel)
    (hDuration : a.fragmentMaxDurationS = s.fragmentMaxDurationS) (now : Nat) :
    ∃ s', collectPackets fuel now rounds (back.head?.map OwnedPacket.ptr)
        (back.tail.head?.map OwnedPacket.ptr) s = .ok s' ∧ SameStatics s s' ∧
      Owns hash s' (front ++ back.filter fun o => !expired a now o.packet) := by
  induction back generalizing s front rounds with
  | nil =>
    refine ⟨s, ?_, SameStatics.refl s, h⟩
    cases rounds <;> rfl
  | cons o back ih =>
    obtain ⟨rounds, rfl⟩ : ∃ n, rounds = n + 1 := ⟨rounds - 1, by simp at hRounds; omega⟩
    obtain ⟨s₁, hCollect, hStatics₁, hOwns₁⟩ := collectPacket_eq h (hFuel o List.mem_cons_self)
      hDuration now
    have hDuration₁ := hDuration.trans hStatics₁.duration.symm
    have hFuel' : ∀ q ∈ back, q.fragments.length ≤ fuel :=
      fun q hq => hFuel q (List.mem_cons_of_mem _ hq)
    simp only [List.head?_cons, Option.map_some, List.tail_cons, collectPackets, hCollect, ok_bind]
    cases hExpired : expired a now o.packet with
    | true =>
      rw [hExpired, if_pos rfl] at hOwns₁
      obtain ⟨s', hRest, hStatics', hOwns'⟩ := ih hOwns₁ (by simpa using hRounds) hFuel' hDuration₁
      rw [hhNextOf_eq hOwns₁, ok_bind, hRest]
      refine ⟨s', rfl, hStatics₁.trans hStatics', ?_⟩
      rw [List.filter_cons_of_neg (by simp [hExpired])]
      exact hOwns'
    | false =>
      rw [hExpired] at hOwns₁
      have hOwns₂ : Owns hash s₁ ((front ++ [o]) ++ back) := by simpa using hOwns₁
      obtain ⟨s', hRest, hStatics', hOwns'⟩ := ih hOwns₂ (by simpa using hRounds) hFuel' hDuration₁
      rw [hhNextOf_eq hOwns₂, ok_bind, hRest]
      refine ⟨s', rfl, hStatics₁.trans hStatics', ?_⟩
      rw [List.filter_cons_of_pos (by simp [hExpired])]
      simpa using hOwns'

theorem reassemblyGarbageCollect_eq (h : Refines hash s a os) (hBounded : Bounded n os) (hFuel : n ≤ fuel)
    (now : Nat) :
    ∃ s' os', reassemblyGarbageCollect fuel s now = .ok s' ∧
      Refines hash s' (Reassembly.reassemblyGarbageCollect a now) os' ∧ Bounded n os' := by
  have hSame : Collects a now ↔ 0 < s.fragmentMaxDurationS.toNat ∧
      minGarbageCollectPeriodS * 1000 < now - s.lastGcTsMs := by
    rw [Collects, h.duration, h.gc]
  rw [reassemblyGarbageCollect, Reassembly.reassemblyGarbageCollect]
  by_cases hCollects : Collects a now
  · rw [if_pos hCollects, if_pos (hSame.mp hCollects)]
    have hOwns : Owns hash { s with lastGcTsMs := now } ([] ++ os) :=
      ⟨h.owns.holds, h.owns.linked, h.owns.fragmentsNodup, h.owns.blocksNodup, h.owns.onlyFragments,
        h.owns.onlyBlocks⟩
    obtain ⟨s₁, hLoop, hStatics, hOwns₁⟩ := collectPackets_eq hOwns
      (Nat.le_trans hBounded.packets hFuel)
      (fun o ho => Nat.le_trans (hBounded.fragments o ho) hFuel) h.duration now
    obtain ⟨count, hCount, hZero⟩ := hashCount_zero hOwns₁
    have hHead := headOf_eq h.owns
    have hTmp := hhNextOf_eq hOwns
    have hPackets : a.packets.filter (fun p => !expired a now p) =
        (os.filter fun o => !expired a now o.packet).map OwnedPacket.packet := by
      rw [h.packets, List.filter_map]
      rfl
    simp only [hHead] at hTmp hLoop ⊢
    simp only [hTmp, ok_bind, hLoop, hCount, hZero, List.nil_append]
    refine ⟨_, os.filter fun o => !expired a now o.packet, rfl, ⟨?_, hPackets, ?_, ?_, ?_⟩, ?_, ?_⟩
    · exact ⟨hOwns₁.holds, hOwns₁.linked, hOwns₁.fragmentsNodup, hOwns₁.blocksNodup,
        hOwns₁.onlyFragments, hOwns₁.onlyBlocks⟩
    · exact h.duration.trans hStatics.duration.symm
    · exact congrArg List.isEmpty hPackets
    · exact hStatics.gc.symm
    · exact Nat.le_trans (List.length_filter_le _ _) hBounded.packets
    · exact fun o ho => hBounded.fragments o (List.mem_filter.mp ho).1
  · rw [if_neg hCollects, if_neg fun hEnds => hCollects (hSame.mpr hEnds)]
    exact ⟨s, os, rfl, h, hBounded⟩

end CMeshApi.Reassembly.Pointers
