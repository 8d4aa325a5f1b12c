import CMeshApi.Foundations.Machine
import CMeshApi.Foundations.Segments

/-!
# The store of partial messages

`reassembly.c`. The hash of packets is the list of its elements in insertion
order, a packet is identified by its key, and the fragments of a packet stand in
the order of the linked list, the last one received first. The outcome of each
allocation and the reading of the clock are arguments; the hash's own allocations
are not among them, since a failure there ends the process.
-/

namespace CMeshApi.Reassembly

def minGarbageCollectPeriodS : Nat := 5

structure PacketKey where
  srcAdd : UInt32
  packetId : UInt16
deriving DecidableEq, Repr

abbrev InternalFragment := Segment UInt8

structure FullPacket where
  key : PacketKey
  /-- Zero until the last fragment is received. -/
  fullSize : Nat
  isFull : Bool
  head : List InternalFragment
  timestampMsEpochLast : Nat
deriving DecidableEq, Repr

/-- The static variables of the module. -/
structure State where
  fragmentMaxDurationS : UInt32
  packets : List FullPacket
  isQueueEmpty : Bool
  lastGcTsMs : Nat
deriving DecidableEq, Repr

def init : State := ⟨0, [], true, 0⟩

structure ReassemblyFragment where
  srcAdd : UInt32
  packetId : UInt16
  offset : Nat
  lastFragment : Bool
  /-- The `size` bytes at the fragment's pointer. -/
  bytes : List UInt8
deriving DecidableEq, Repr

namespace ReassemblyFragment

def key (frag : ReassemblyFragment) : PacketKey := ⟨frag.srcAdd, frag.packetId⟩

def size (frag : ReassemblyFragment) : Nat := frag.bytes.length

def piece (frag : ReassemblyFragment) : InternalFragment := ⟨frag.offset, frag.bytes⟩

end ReassemblyFragment

/-- Which of the allocations of a call succeed. -/
structure Allocs where
  packet : Bool
  fragment : Bool
  data : Bool
deriving DecidableEq, Repr

def Allocs.all : Allocs := ⟨true, true, true⟩

def setMaxFragmentDuration (s : State) (fragmentMaxDurationS : UInt32) : State :=
  { s with fragmentMaxDurationS }

def getPacketFromHash (packets : List FullPacket) (key : PacketKey) : Option FullPacket :=
  packets.find? fun p => p.key = key

def freshPacket (key : PacketKey) : FullPacket := ⟨key, 0, false, [], 0⟩

def createPacketInHash (packets : List FullPacket) (key : PacketKey) (alloc : Bool) :
    Option (List FullPacket × FullPacket) :=
  if alloc then some (packets ++ [freshPacket key], freshPacket key) else none

/-- The packet a fragment goes to, and the hash it is then in. -/
def getOrCreatePacket (packets : List FullPacket) (key : PacketKey) (alloc : Bool) :
    Option (List FullPacket × FullPacket) :=
  match getPacketFromHash packets key with
  | some p => some (packets, p)
  | none => createPacketInHash packets key alloc

/-- Writes a packet back to the place where it is stored. -/
def storePacket (p : FullPacket) : List FullPacket → List FullPacket
  | [] => []
  | q :: qs => if q.key = p.key then p :: qs else q :: storePacket p qs

def deletePacket (key : PacketKey) (packets : List FullPacket) : List FullPacket :=
  packets.eraseP fun p => p.key = key

/-- `none` when the function returns false, and leaves the packet as it is. -/
def addFragmentToFullPacket (p : FullPacket) (frag : ReassemblyFragment) (allocs : Allocs)
    (now : Nat) : Option FullPacket :=
  if p.head.any fun f => f.offset = frag.offset then none
  else if allocs.fragment = true ∧ allocs.data = true then
    some { p with
      head := frag.piece :: p.head
      fullSize := if frag.lastFragment then frag.offset + frag.size else p.fullSize
      timestampMsEpochLast := now }
  else none

def isPacketFull (p : FullPacket) : FullPacket × Bool :=
  if p.isFull then (p, true)
  else if p.fullSize = 0 then (p, false)
  else if Segment.total p.head = p.fullSize then ({ p with isFull := true }, true)
  else (p, false)

/-- The new state, the result, and the size stored at `full_size_p`. The flag is lowered
before anything can fail, and stays lowered on every path. -/
def reassemblyAddFragment (s : State) (frag : ReassemblyFragment) (allocs : Allocs) (now : Nat) :
    State × Bool × Nat :=
  match getOrCreatePacket s.packets frag.key allocs.packet with
  | none => ({ s with isQueueEmpty := false }, false, 0)
  | some (packets, p) =>
    match addFragmentToFullPacket p frag allocs now with
    | none => ({ s with isQueueEmpty := false, packets }, false, 0)
    | some p =>
      match isPacketFull p with
      | (p, full) =>
        ({ s with isQueueEmpty := false, packets := storePacket p packets }, true,
          if full then p.fullSize else 0)

/-- What `reassembly_get_full_message` hands back: its result, the caller's buffer, and the
value of `*size`. -/
structure FullMessage where
  retrieved : Bool
  buffer : Memory UInt8
  size : Nat

def reassembleFullPacket (s : State) (p : FullPacket) (buffer : Memory UInt8) (size : Nat) :
    State × FullMessage :=
  if !p.isFull then (s, ⟨false, buffer, 0⟩)
  else if size < p.fullSize then (s, ⟨false, buffer, size⟩)
  else
    let packets := deletePacket p.key s.packets
    ({ s with packets, isQueueEmpty := packets.isEmpty },
      ⟨true, Segment.assemble buffer p.head, p.fullSize⟩)

def reassemblyGetFullMessage (s : State) (key : PacketKey) (buffer : Memory UInt8) (size : Nat) :
    State × FullMessage :=
  match getPacketFromHash s.packets key with
  | none => (s, ⟨false, buffer, size⟩)
  | some p => reassembleFullPacket s p buffer size

/-- The age test of the collection; `last_activity` is a `uint32_t`. -/
def expired (s : State) (now : Nat) (p : FullPacket) : Bool :=
  let lastActivity := (now - p.timestampMsEpochLast) / 1000 % 2 ^ 32
  s.fragmentMaxDurationS.toNat < lastActivity

def Collects (s : State) (now : Nat) : Prop :=
  0 < s.fragmentMaxDurationS.toNat ∧ minGarbageCollectPeriodS * 1000 < now - s.lastGcTsMs

instance (s : State) (now : Nat) : Decidable (Collects s now) := inferInstanceAs (Decidable (_ ∧ _))

def reassemblyGarbageCollect (s : State) (now : Nat) : State :=
  if Collects s now then
    let packets := s.packets.filter fun p => !expired s now p
    { s with lastGcTsMs := now, packets, isQueueEmpty := packets.isEmpty }
  else s

def reassemblyIsQueueEmpty (s : State) : Bool := s.isQueueEmpty

variable {packets : List FullPacket} {p q : FullPacket} {key : PacketKey}

theorem key_of_get (h : getPacketFromHash packets key = some p) : p.key = key := by
  simpa using List.find?_some h

theorem mem_of_get (h : getPacketFromHash packets key = some p) : p ∈ packets :=
  List.mem_of_find?_eq_some h

theorem get_append_fresh (h : getPacketFromHash packets key = none) :
    getPacketFromHash (packets ++ [freshPacket key]) key = some (freshPacket key) := by
  unfold getPacketFromHash at h ⊢
  rw [List.find?_append, h]
  simp [freshPacket]

theorem get_append_other (h : q.key ≠ key) :
    getPacketFromHash (packets ++ [q]) key = getPacketFromHash packets key := by
  unfold getPacketFromHash
  rw [List.find?_append]
  simp [h]

theorem get_storePacket_same (h : getPacketFromHash packets p.key = some q) :
    getPacketFromHash (storePacket p packets) p.key = some p := by
  induction packets with
  | nil => cases h
  | cons r packets ih =>
    by_cases hr : r.key = p.key
    · simp [storePacket, hr, getPacketFromHash]
    · have hRest : getPacketFromHash packets p.key = some q := by
        simpa [getPacketFromHash, hr] using h
      simpa [storePacket, hr, getPacketFromHash] using ih hRest

theorem get_storePacket_other (h : p.key ≠ key) :
    getPacketFromHash (storePacket p packets) key = getPacketFromHash packets key := by
  induction packets with
  | nil => rfl
  | cons r packets ih =>
    by_cases hr : r.key = p.key
    · simp [storePacket, hr, getPacketFromHash, h]
    · simp only [storePacket, hr, if_false, getPacketFromHash, List.find?_cons] at ih ⊢
      rw [ih]

theorem mem_storePacket (h : q ∈ storePacket p packets) : q = p ∨ q ∈ packets := by
  induction packets with
  | nil => cases h
  | cons r packets ih =>
    by_cases hr : r.key = p.key
    · simp only [storePacket, hr, if_true, List.mem_cons] at h
      exact h.imp_right fun hq => List.mem_cons_of_mem _ hq
    · simp only [storePacket, hr, if_false, List.mem_cons] at h
      rcases h with rfl | h
      · exact Or.inr List.mem_cons_self
      · exact (ih h).imp_right fun hq => List.mem_cons_of_mem _ hq

theorem get_deletePacket_other {key' : PacketKey} (h : key' ≠ key) :
    getPacketFromHash (deletePacket key' packets) key = getPacketFromHash packets key := by
  unfold deletePacket getPacketFromHash
  induction packets with
  | nil => rfl
  | cons r packets ih =>
    by_cases hr : r.key = key'
    · simp [hr, h]
    · simp only [List.eraseP_cons, hr, decide_false, cond_false, List.find?_cons, ih]

theorem get_filter {keep : FullPacket → Bool}
    (h : ∀ p, getPacketFromHash packets key = some p → keep p = true) :
    getPacketFromHash (packets.filter keep) key = getPacketFromHash packets key := by
  induction packets with
  | nil => rfl
  | cons r packets ih =>
    by_cases hr : r.key = key
    · have hFirst : getPacketFromHash (r :: packets) key = some r := by
        simp [getPacketFromHash, hr]
      rw [hFirst, List.filter_cons_of_pos (h r hFirst)]
      simp [getPacketFromHash, hr]
    · have hTail : getPacketFromHash (r :: packets) key = getPacketFromHash packets key := by
        simp [getPacketFromHash, hr]
      rw [hTail] at h ⊢
      rw [← ih h]
      cases hKeep : keep r with
      | true => simp [hKeep, getPacketFromHash, hr]
      | false => simp [hKeep]

structure Entered (packets packets' : List FullPacket) (key : PacketKey) (p : FullPacket) : Prop where
  key_eq : p.key = key
  get_same : getPacketFromHash packets' key = some p
  get_other : ∀ k, key ≠ k → getPacketFromHash packets' k = getPacketFromHash packets k
  mem : ∀ q ∈ packets', q ∈ packets ∨ q = freshPacket key
  origin : getPacketFromHash packets key = some p ∨
    getPacketFromHash packets key = none ∧ p = freshPacket key

theorem getOrCreatePacket_entered {packets' : List FullPacket} {alloc : Bool}
    (h : getOrCreatePacket packets key alloc = some (packets', p)) :
    Entered packets packets' key p := by
  unfold getOrCreatePacket at h
  split at h
  · next q hGet =>
    cases h
    exact ⟨key_of_get hGet, hGet, fun _ _ => rfl, fun _ hq => Or.inl hq, Or.inl hGet⟩
  · next hGet =>
    unfold createPacketInHash at h
    split at h
    · cases h
      refine ⟨rfl, get_append_fresh hGet, fun k hk => get_append_other hk, fun q hq => ?_,
        Or.inr ⟨hGet, rfl⟩⟩
      simpa using hq
    · cases h

/-- The packet that a fragment with the key would be added to. -/
def target (packets : List FullPacket) (key : PacketKey) : FullPacket :=
  (getPacketFromHash packets key).getD (freshPacket key)

theorem target_eq {packets' : List FullPacket} (h : Entered packets packets' key p) :
    target packets key = p := by
  rcases h.origin with hGet | ⟨hGet, rfl⟩
  · rw [target, hGet]
    rfl
  · rw [target, hGet]
    rfl

def extended (p : FullPacket) (frag : ReassemblyFragment) (now : Nat) : FullPacket :=
  { p with
    head := frag.piece :: p.head
    fullSize := if frag.lastFragment then frag.offset + frag.size else p.fullSize
    timestampMsEpochLast := now }

def settled (p : FullPacket) : FullPacket :=
  { p with isFull := p.isFull || (p.fullSize ≠ 0 && Segment.total p.head = p.fullSize) }

def NewOffset (p : FullPacket) (frag : ReassemblyFragment) : Prop :=
  ∀ f ∈ p.head, f.offset ≠ frag.offset

instance (p : FullPacket) (frag : ReassemblyFragment) : Decidable (NewOffset p frag) :=
  inferInstanceAs (Decidable (∀ f ∈ p.head, f.offset ≠ frag.offset))

def Accepts (p : FullPacket) (frag : ReassemblyFragment) (allocs : Allocs) : Prop :=
  NewOffset p frag ∧ allocs.fragment = true ∧ allocs.data = true

instance (p : FullPacket) (frag : ReassemblyFragment) (allocs : Allocs) :
    Decidable (Accepts p frag allocs) := inferInstanceAs (Decidable (_ ∧ _))

theorem addFragmentToFullPacket_eq_some {p' : FullPacket} {frag : ReassemblyFragment}
    {allocs : Allocs} {now : Nat} :
    addFragmentToFullPacket p frag allocs now = some p' ↔
      Accepts p frag allocs ∧ p' = extended p frag now := by
  unfold addFragmentToFullPacket Accepts NewOffset extended
  by_cases hAny : (p.head.any fun f => f.offset = frag.offset) = true
  · have hOld : ¬ ∀ f ∈ p.head, f.offset ≠ frag.offset := by
      simpa using hAny
    simp [hAny, hOld]
  · have hNew : ∀ f ∈ p.head, f.offset ≠ frag.offset := by
      simpa using hAny
    rw [if_neg hAny]
    constructor
    · intro h
      split at h
      · next hAllocs => exact ⟨⟨hNew, hAllocs⟩, (Option.some.inj h).symm⟩
      · cases h
    · rintro ⟨⟨-, hAllocs⟩, rfl⟩
      rw [if_pos hAllocs]

theorem isPacketFull_eq (p : FullPacket) : isPacketFull p = (settled p, (settled p).isFull) := by
  obtain ⟨key, fullSize, isFull, head, timestamp⟩ := p
  unfold isPacketFull settled
  cases isFull with
  | true => simp
  | false =>
    by_cases hKnown : fullSize = 0
    · simp [hKnown]
    · by_cases hTotal : Segment.total head = fullSize <;> simp [hKnown, hTotal]

theorem reassemblyAddFragment_cases (s : State) (frag : ReassemblyFragment) (allocs : Allocs)
    (now : Nat) :
    (getOrCreatePacket s.packets frag.key allocs.packet = none ∧
      reassemblyAddFragment s frag allocs now = ({ s with isQueueEmpty := false }, false, 0)) ∨
    ∃ packets p, getOrCreatePacket s.packets frag.key allocs.packet = some (packets, p) ∧
      Entered s.packets packets frag.key p ∧
      ((¬ Accepts p frag allocs ∧
          reassemblyAddFragment s frag allocs now =
            ({ s with isQueueEmpty := false, packets }, false, 0)) ∨
        (Accepts p frag allocs ∧
          reassemblyAddFragment s frag allocs now =
            ({ s with
                isQueueEmpty := false
                packets := storePacket (settled (extended p frag now)) packets },
              true, if (settled (extended p frag now)).isFull then (extended p frag now).fullSize
                else 0))) := by
  unfold reassemblyAddFragment
  cases hFound : getOrCreatePacket s.packets frag.key allocs.packet with
  | none => exact Or.inl ⟨rfl, rfl⟩
  | some found =>
    obtain ⟨packets, p⟩ := found
    refine Or.inr ⟨packets, p, rfl, getOrCreatePacket_entered hFound, ?_⟩
    simp only []
    cases hAdd : addFragmentToFullPacket p frag allocs now with
    | none =>
      refine Or.inl ⟨fun h => ?_, rfl⟩
      rw [addFragmentToFullPacket_eq_some.mpr ⟨h, rfl⟩] at hAdd
      cases hAdd
    | some p' =>
      obtain ⟨hAccepts, rfl⟩ := addFragmentToFullPacket_eq_some.mp hAdd
      refine Or.inr ⟨hAccepts, ?_⟩
      simp only [isPacketFull_eq]
      rfl

theorem reassemblyGetFullMessage_cases (s : State) (key : PacketKey) (buffer : Memory UInt8)
    (size : Nat) :
    (∃ left, reassemblyGetFullMessage s key buffer size = (s, ⟨false, buffer, left⟩)) ∨
    ∃ p, getPacketFromHash s.packets key = some p ∧ p.isFull = true ∧ p.fullSize ≤ size ∧
      reassemblyGetFullMessage s key buffer size =
        ({ s with
            packets := deletePacket key s.packets
            isQueueEmpty := (deletePacket key s.packets).isEmpty },
          ⟨true, Segment.assemble buffer p.head, p.fullSize⟩) := by
  unfold reassemblyGetFullMessage
  cases hGet : getPacketFromHash s.packets key with
  | none => exact Or.inl ⟨size, rfl⟩
  | some p =>
    unfold reassembleFullPacket
    simp only []
    by_cases hFull : p.isFull = true
    · by_cases hSize : size < p.fullSize
      · exact Or.inl ⟨size, by rw [if_neg (by simp [hFull]), if_pos hSize]⟩
      · refine Or.inr ⟨p, rfl, hFull, Nat.le_of_not_lt hSize, ?_⟩
        rw [if_neg (by simp [hFull]), if_neg hSize, key_of_get hGet]
    · exact Or.inl ⟨0, by rw [if_pos (by simpa using hFull)]⟩

theorem getFullMessage_of_full {s : State} {key : PacketKey} {p : FullPacket}
    (hGet : getPacketFromHash s.packets key = some p) (hFull : p.isFull = true)
    (buffer : Memory UInt8) (size : Nat) :
    reassemblyGetFullMessage s key buffer size =
      if size < p.fullSize then (s, ⟨false, buffer, size⟩)
      else
        ({ s with
            packets := deletePacket key s.packets
            isQueueEmpty := (deletePacket key s.packets).isEmpty },
          ⟨true, Segment.assemble buffer p.head, p.fullSize⟩) := by
  unfold reassemblyGetFullMessage
  rw [hGet]
  simp only [reassembleFullPacket, hFull, key_of_get hGet, Bool.not_true, Bool.false_eq_true,
    if_false]

/-- A fragment is stored: there is a packet for it, and it is accepted there. -/
def Stores (s : State) (frag : ReassemblyFragment) (allocs : Allocs) : Prop :=
  (getPacketFromHash s.packets frag.key ≠ none ∨ allocs.packet = true) ∧
    Accepts (target s.packets frag.key) frag allocs

instance (s : State) (frag : ReassemblyFragment) (allocs : Allocs) :
    Decidable (Stores s frag allocs) := inferInstanceAs (Decidable (_ ∧ _))

/-- The packet of a fragment once the fragment is stored. -/
def grown (s : State) (frag : ReassemblyFragment) (now : Nat) : FullPacket :=
  settled (extended (target s.packets frag.key) frag now)

theorem key_grown (s : State) (frag : ReassemblyFragment) (now : Nat) :
    (grown s frag now).key = frag.key := by
  change (target s.packets frag.key).key = frag.key
  cases hGet : getPacketFromHash s.packets frag.key with
  | none =>
    rw [target, hGet]
    rfl
  | some p =>
    rw [target, hGet]
    exact key_of_get hGet

theorem stores_iff {s : State} {frag : ReassemblyFragment} {allocs : Allocs}
    {packets : List FullPacket} {p : FullPacket}
    (h : getOrCreatePacket s.packets frag.key allocs.packet = some (packets, p)) :
    Stores s frag allocs ↔ Accepts p frag allocs := by
  have hFound : getPacketFromHash s.packets frag.key ≠ none ∨ allocs.packet = true := by
    by_contra hNone
    simp only [not_or, not_not] at hNone
    obtain ⟨hGet, hAlloc⟩ := hNone
    simp [getOrCreatePacket, createPacketInHash, hGet, hAlloc] at h
  rw [Stores, target_eq (getOrCreatePacket_entered h)]
  exact and_iff_right hFound

theorem not_stores_of_none {s : State} {frag : ReassemblyFragment} {allocs : Allocs}
    (h : getOrCreatePacket s.packets frag.key allocs.packet = none) : ¬ Stores s frag allocs := by
  rintro ⟨hFound, -⟩
  unfold getOrCreatePacket at h
  split at h
  · cases h
  · next hGet =>
    rcases hFound with hSome | hAlloc
    · exact hSome hGet
    · simp [createPacketInHash, hAlloc] at h

theorem addFragment_of_stores {s : State} {frag : ReassemblyFragment} {allocs : Allocs}
    (now : Nat) (h : Stores s frag allocs) :
    ∃ packets, reassemblyAddFragment s frag allocs now =
        ({ s with isQueueEmpty := false, packets }, true,
          if (grown s frag now).isFull then (grown s frag now).fullSize else 0) ∧
      getPacketFromHash packets frag.key = some (grown s frag now) ∧
      ∀ k, frag.key ≠ k → getPacketFromHash packets k = getPacketFromHash s.packets k := by
  rcases reassemblyAddFragment_cases s frag allocs now with
    ⟨hNone, -⟩ | ⟨packets, p, hSome, hEntered, ⟨hRefused, -⟩ | ⟨-, hAdd⟩⟩
  · exact absurd h (not_stores_of_none hNone)
  · exact absurd ((stores_iff hSome).mp h) hRefused
  · have hGrown : grown s frag now = settled (extended p frag now) := by
      rw [grown, target_eq hEntered]
    have hKey := key_grown s frag now
    refine ⟨storePacket (grown s frag now) packets, by rw [hAdd, hGrown]; rfl, ?_, fun k hk => ?_⟩
    · rw [← hKey] at hEntered ⊢
      exact get_storePacket_same hEntered.get_same
    · rw [get_storePacket_other (by rw [hKey]; exact hk)]
      exact hEntered.get_other k hk

theorem addFragment_of_not_stores {s : State} {frag : ReassemblyFragment} {allocs : Allocs}
    (now : Nat) (h : ¬ Stores s frag allocs) :
    ∃ packets, reassemblyAddFragment s frag allocs now =
        ({ s with isQueueEmpty := false, packets }, false, 0) ∧
      ∀ k, frag.key ≠ k → getPacketFromHash packets k = getPacketFromHash s.packets k := by
  rcases reassemblyAddFragment_cases s frag allocs now with
    ⟨-, hAdd⟩ | ⟨packets, p, hSome, hEntered, ⟨-, hAdd⟩ | ⟨hAccepts, -⟩⟩
  · exact ⟨s.packets, hAdd, fun _ _ => rfl⟩
  · exact ⟨packets, hAdd, hEntered.get_other⟩
  · exact absurd ((stores_iff hSome).mpr hAccepts) h

/-- The collection keeps the packet of the key, if there is one. -/
def Keeps (s : State) (key : PacketKey) (now : Nat) : Prop :=
  Collects s now → ∀ p, getPacketFromHash s.packets key = some p → expired s now p = false

instance (s : State) (key : PacketKey) (now : Nat) : Decidable (Keeps s key now) :=
  decidable_of_iff (Collects s now → (getPacketFromHash s.packets key).all fun p => !expired s now p)
    (by simp [Keeps, Option.all_eq_true])

theorem get_garbageCollect {s : State} {key : PacketKey} {now : Nat} (h : Keeps s key now) :
    getPacketFromHash (reassemblyGarbageCollect s now).packets key =
      getPacketFromHash s.packets key := by
  unfold reassemblyGarbageCollect
  split
  · next hCollects => exact get_filter fun p hp => by simp [h hCollects p hp]
  · rfl

/-- Every packet can get older than the maximum duration. -/
def State.CanExpire (s : State) : Prop :=
  0 < s.fragmentMaxDurationS.toNat ∧ s.fragmentMaxDurationS.toNat < 2 ^ 32 - 1

instance (s : State) : Decidable s.CanExpire := inferInstanceAs (Decidable (_ ∧ _))

theorem addFragment_fragmentMaxDurationS (s : State) (frag : ReassemblyFragment) (allocs : Allocs)
    (now : Nat) :
    (reassemblyAddFragment s frag allocs now).1.fragmentMaxDurationS = s.fragmentMaxDurationS := by
  rcases reassemblyAddFragment_cases s frag allocs now with
    ⟨-, hAdd⟩ | ⟨packets, p, -, -, ⟨-, hAdd⟩ | ⟨-, hAdd⟩⟩ <;> rw [hAdd]

theorem getFullMessage_fragmentMaxDurationS (s : State) (key : PacketKey) (buffer : Memory UInt8)
    (size : Nat) :
    (reassemblyGetFullMessage s key buffer size).1.fragmentMaxDurationS =
      s.fragmentMaxDurationS := by
  rcases reassemblyGetFullMessage_cases s key buffer size with
    ⟨left, hGet⟩ | ⟨p, -, -, -, hGet⟩ <;> rw [hGet]

theorem garbageCollect_fragmentMaxDurationS (s : State) (now : Nat) :
    (reassemblyGarbageCollect s now).fragmentMaxDurationS = s.fragmentMaxDurationS := by
  unfold reassemblyGarbageCollect
  split <;> rfl

/-- The age of a packet is taken modulo `2 ^ 32`, and is the largest possible time and again. -/
theorem State.CanExpire.exists_expired {s : State} (h : s.CanExpire) (clock : Nat) (p : FullPacket) :
    ∃ now, clock ≤ now ∧ Collects s now ∧ expired s now p = true := by
  let turns := clock + s.lastGcTsMs + 6
  let age := 2 ^ 32 * turns + (2 ^ 32 - 1)
  have hAge : (p.timestampMsEpochLast + age * 1000 - p.timestampMsEpochLast) / 1000 % 2 ^ 32 =
      2 ^ 32 - 1 := by
    rw [Nat.add_sub_cancel_left, Nat.mul_div_cancel _ (by decide), Nat.mul_add_mod]
    rfl
  refine ⟨p.timestampMsEpochLast + age * 1000, by omega, ⟨h.1, ?_⟩, ?_⟩
  · unfold minGarbageCollectPeriodS
    omega
  · simp only [expired, hAge]
    exact decide_eq_true h.2

theorem State.CanExpire.exists_fewer {s : State} (h : s.CanExpire) (clock : Nat) :
    ∃ now, clock ≤ now ∧ Collects s now ∧
      (s.packets ≠ [] →
        (reassemblyGarbageCollect s now).packets.length < s.packets.length) := by
  cases hPackets : s.packets with
  | nil =>
    obtain ⟨now, hNow, hCollects, -⟩ := h.exists_expired clock (freshPacket ⟨0, 0⟩)
    exact ⟨now, hNow, hCollects, fun hNot => absurd rfl hNot⟩
  | cons p packets =>
    obtain ⟨now, hNow, hCollects, hExpired⟩ := h.exists_expired clock p
    refine ⟨now, hNow, hCollects, fun _ => ?_⟩
    rw [reassemblyGarbageCollect, if_pos hCollects, hPackets]
    simp only [hExpired, Bool.not_true, Bool.false_eq_true, not_false_eq_true,
      List.filter_cons_of_neg, List.length_cons]
    exact Nat.lt_succ_of_le (List.length_filter_le _ _)

inductive Op where
  | addFragment (frag : ReassemblyFragment) (allocs : Allocs) (now : Nat)
  | getFullMessage (key : PacketKey) (buffer : Memory UInt8) (size : Nat)
  | garbageCollect (now : Nat)
  | setMaxFragmentDuration (fragmentMaxDurationS : UInt32)

def step (s : State) : Op → Option State
  | .addFragment frag allocs now => some (reassemblyAddFragment s frag allocs now).1
  | .getFullMessage key buffer size => some (reassemblyGetFullMessage s key buffer size).1
  | .garbageCollect now => some (reassemblyGarbageCollect s now)
  | .setMaxFragmentDuration d => some (setMaxFragmentDuration s d)

/-- A raised flag is right. A lowered one need not be: it says that the store is "most probably
not empty". -/
def State.FlagSound (s : State) : Prop := s.isQueueEmpty = true → s.packets = []

theorem flagSound_init : init.FlagSound := fun _ => rfl

theorem flagSound_addFragment (s : State) (frag : ReassemblyFragment) (allocs : Allocs)
    (now : Nat) : (reassemblyAddFragment s frag allocs now).1.FlagSound := by
  rcases reassemblyAddFragment_cases s frag allocs now with
    ⟨-, hAdd⟩ | ⟨packets, p, -, -, ⟨-, hAdd⟩ | ⟨-, hAdd⟩⟩ <;> rw [hAdd] <;> nofun

theorem State.FlagSound.getFullMessage {s : State} (h : s.FlagSound) (key : PacketKey)
    (buffer : Memory UInt8) (size : Nat) :
    (reassemblyGetFullMessage s key buffer size).1.FlagSound := by
  rcases reassemblyGetFullMessage_cases s key buffer size with ⟨left, hGet⟩ | ⟨p, -, -, -, hGet⟩
  · rw [hGet]
    exact h
  · rw [hGet]
    exact fun hEmpty => List.isEmpty_iff.mp hEmpty

theorem State.FlagSound.garbageCollect {s : State} (h : s.FlagSound) (now : Nat) :
    (reassemblyGarbageCollect s now).FlagSound := by
  unfold reassemblyGarbageCollect
  split
  · exact fun hEmpty => List.isEmpty_iff.mp hEmpty
  · exact h

theorem State.FlagSound.step {s t : State} {op : Op} (h : s.FlagSound)
    (hStep : Reassembly.step s op = some t) : t.FlagSound := by
  cases op with
  | addFragment frag allocs now =>
    cases hStep
    exact flagSound_addFragment s frag allocs now
  | getFullMessage key buffer size =>
    cases hStep
    exact h.getFullMessage key buffer size
  | garbageCollect now =>
    cases hStep
    exact h.garbageCollect now
  | setMaxFragmentDuration d =>
    cases hStep
    exact h

theorem garbageCollect_nil {s : State} (h : s.packets = []) (now : Nat) :
    (reassemblyGarbageCollect s now).packets = [] := by
  unfold reassemblyGarbageCollect
  split
  · rw [h]
    rfl
  · exact h

end CMeshApi.Reassembly
