import CMeshApi.Dsap.Delivery
import CMeshApi.Dsap.Fragmentation
import CMeshApi.Reassembly.Completeness

/-!
# Packets that share an id

Senders number their packets on 12 bits, and the store knows a packet by its source
and this number. A fragment of a packet is added to what is left of an older one with
the same number, and the two may make up a full message together. As long as no
fragment is added to fragments of another packet, every message that goes to the
callback is one that was sent, whatever is lost, reordered or repeated.
-/

namespace CMeshApi.Dsap

open Reassembly Machine Segment

/-- A packet as its sender splits it: disjoint fragments that cover it, with the flag only on
one that ends it. -/
structure SentPacket where
  key : PacketKey
  bytes : List UInt8
  fragments : List ReassemblyFragment
  keyed : ∀ f ∈ fragments, f.key = key
  pieces : ∀ f ∈ fragments, PieceOf bytes f.piece
  disjoint : fragments.Pairwise fun f g => f.piece.Apart g.piece
  covered : ∀ i < bytes.length, ∃ f ∈ fragments, f.piece.Covers i
  last_end : ∀ f ∈ fragments, f.lastFragment = true → f.offset + f.size = bytes.length

namespace SentPacket

/-- What the stack does with a long payload makes such a packet. -/
def ofChunks (src : UInt32) (pId : UInt16) (mtu : Nat) (tx : DataTx) (hMtu : 0 < mtu)
    (hLen : 0 < tx.buffer.length) : SentPacket where
  key := ⟨src, ⟨(BitVec.ofNat 12 pId.toNat).setWidth 16⟩⟩
  bytes := tx.buffer
  fragments := (List.range (Dsap.fragments mtu tx.buffer.length)).map
    (chunkFragment src pId mtu tx.buffer)
  keyed := by
    intro f hf
    obtain ⟨i, -, rfl⟩ := List.mem_map.mp hf
    rfl
  pieces := (splits_chunks src pId hMtu hLen).pieces
  disjoint := by
    rw [List.pairwise_map]
    exact List.nodup_range.imp fun hNe => chunk_apart tx.buffer mtu hNe
  covered := (splits_chunks src pId hMtu hLen).covered
  last_end := (splits_chunks src pId hMtu hLen).last_end

variable {q : SentPacket} {f g : ReassemblyFragment}

theorem apart_of_offset (hf : f ∈ q.fragments) (hg : g ∈ q.fragments)
    (hNe : g.offset ≠ f.offset) : f.piece.Apart g.piece := by
  have hSymm : Std.Symm fun a b : ReassemblyFragment => a.piece.Apart b.piece :=
    ⟨fun a b hApart => by unfold Apart at hApart ⊢; omega⟩
  refine q.disjoint.forall hf hg ?_
  rintro rfl
  exact hNe rfl

end SentPacket

/-- Fragments that arrive are those of the packets sent, with any of them lost. -/
def Arrives (sent : List SentPacket) : RxEvent → Prop
  | .fragIndication payload _ _ => ∃ q ∈ sent, payload.frag ∈ q.fragments
  | _ => True

instance (sent : List SentPacket) : (e : RxEvent) → Decidable (Arrives sent e)
  | .fragIndication payload _ _ => inferInstanceAs (Decidable (∃ q ∈ sent, payload.frag ∈ q.fragments))
  | .collect _ | .register _ | .unregister | .setMaxFragmentDuration _ => .isTrue trivial

/-- The stored fragments are fragments of the packet, and the size noted is its size. -/
def StoredFrom (q : SentPacket) (p : FullPacket) : Prop :=
  (∀ f ∈ p.head, ∃ g ∈ q.fragments, g.piece = f) ∧
    (p.fullSize = 0 ∨ p.fullSize = q.bytes.length)

instance (q : SentPacket) (p : FullPacket) : Decidable (StoredFrom q p) :=
  inferInstanceAs (Decidable (_ ∧ _))

section Stored

variable {q : SentPacket} {p : FullPacket} {frag : ReassemblyFragment}

theorem storedFrom_fresh (q : SentPacket) (key : PacketKey) : StoredFrom q (freshPacket key) :=
  ⟨nofun, Or.inl rfl⟩

theorem StoredFrom.extended (h : StoredFrom q p) (hFrag : frag ∈ q.fragments) (now : Nat) :
    StoredFrom q (extended p frag now) := by
  obtain ⟨hHead, hSize⟩ := h
  refine ⟨fun f hf => ?_, ?_⟩
  · rcases List.mem_cons.mp hf with rfl | hOld
    · exact ⟨frag, hFrag, rfl⟩
    · exact hHead f hOld
  · cases hLast : frag.lastFragment with
    | true =>
      refine Or.inr (Eq.trans ?_ (q.last_end frag hFrag hLast))
      simp [Reassembly.extended, hLast]
    | false => simpa [Reassembly.extended, hLast] using hSize

theorem StoredFrom.pieces (h : StoredFrom q p) : ∀ f ∈ p.head, PieceOf q.bytes f := by
  intro f hf
  obtain ⟨g, hg, rfl⟩ := h.1 f hf
  exact q.pieces g hg

theorem StoredFrom.within (h : StoredFrom q p) : Within q.bytes.length p.head :=
  fun f hf => (h.pieces f hf).stop_le

/-- A fragment fits next to the other fragments of its own packet. -/
theorem StoredFrom.fits (h : StoredFrom q p) (hSound : Sound p) (hFrag : frag ∈ q.fragments)
    (hNew : NewOffset p frag) : Fits p frag := by
  have hGrown : StoredFrom q (Reassembly.extended p frag 0) := h.extended hFrag 0
  have hApart : ∀ f ∈ p.head, frag.piece.Apart f := by
    intro f hf
    obtain ⟨g, hg, rfl⟩ := h.1 f hf
    exact SentPacket.apart_of_offset hFrag hg (hNew _ hf)
  have hWithin : Within q.bytes.length (frag.piece :: p.head) := hGrown.within
  refine ⟨hApart, fun hKnown => ?_, fun hFull => ?_⟩
  · have hSize : (if frag.lastFragment then frag.offset + frag.size else p.fullSize) =
        q.bytes.length := hGrown.2.resolve_left hKnown
    rw [hSize]
    exact hWithin
  · obtain ⟨hKnown, hTotal⟩ := hSound.full hFull
    have hSize := h.2.resolve_left hKnown
    have hAll : total (frag.piece :: p.head) ≤ q.bytes.length :=
      total_le (List.pairwise_cons.mpr ⟨hApart, hSound.apart⟩) hWithin
    -- the packet is full already, so that only an empty fragment is left
    rw [total_cons] at hAll ⊢
    split
    · next hLast =>
      have hEnd := q.last_end frag hFrag hLast
      omega
    · omega

/-- A full packet of fragments of one packet sent is assembled to that packet. -/
theorem StoredFrom.assembled (h : StoredFrom q p) (hSound : Sound p) (hFull : p.isFull = true)
    (buffer : Memory UInt8) : (assemble buffer p.head).read 0 p.fullSize = q.bytes := by
  obtain ⟨hKnown, hTotal⟩ := hSound.full hFull
  have hSize := h.2.resolve_left hKnown
  have hCover := (coverExactly_iff_total hSound.apart h.within).mpr (hTotal.trans hSize)
  rw [hSize]
  exact read_assemble_pieces buffer h.pieces fun i hi => (hCover i).mp hi

end Stored

/-- The fragment is not added to fragments of another packet. -/
def Unmixed (sent : List SentPacket) (s : Receiver) (payload : DsapDataRxFragIndPl) (env : Env) :
    Prop :=
  Stores s.reassembly payload.frag env.allocs →
    ∀ p, getPacketFromHash s.reassembly.packets payload.key = some p →
      ∃ q ∈ sent, payload.frag ∈ q.fragments ∧ StoredFrom q p

instance (sent : List SentPacket) (s : Receiver) (payload : DsapDataRxFragIndPl) (env : Env) :
    Decidable (Unmixed sent s payload env) :=
  decidable_of_iff
    (Stores s.reassembly payload.frag env.allocs →
      (getPacketFromHash s.reassembly.packets payload.key).all fun p =>
        decide (∃ q ∈ sent, payload.frag ∈ q.fragments ∧ StoredFrom q p))
    (by simp [Unmixed, Option.all_eq_true])

/-- The event neither mixes two packets nor completes one that is larger than the buffer. -/
def KeepsApart (sent : List SentPacket) (s : Receiver) : RxEvent → Prop
  | .fragIndication payload _ env => Unmixed sent s payload env ∧ FitsBuffer s payload env
  | _ => True

instance (sent : List SentPacket) (s : Receiver) : (e : RxEvent) → Decidable (KeepsApart sent s e)
  | .fragIndication _ _ _ => inferInstanceAs (Decidable (_ ∧ _))
  | .collect _ | .register _ | .unregister | .setMaxFragmentDuration _ => .isTrue trivial

def StoreSound (s : Receiver) : Prop := ∀ p ∈ s.reassembly.packets, Sound p

section Receiving

variable {sent : List SentPacket} {s t : Receiver} {payload : DsapDataRxFragIndPl}
  {timestampMsEpoch : Nat} {env : Env}

theorem StoreSound.target (h : StoreSound s) (key : PacketKey) :
    Sound (target s.reassembly.packets key) := by
  cases hGet : getPacketFromHash s.reassembly.packets key with
  | none =>
    rw [Reassembly.target, hGet]
    exact sound_freshPacket key
  | some p =>
    rw [Reassembly.target, hGet]
    exact h p (mem_of_get hGet)

/-- Wherever a fragment is accepted, it meets only fragments of its own packet. -/
theorem Unmixed.origin (h : Unmixed sent s payload env)
    (hArrives : Arrives sent (.fragIndication payload timestampMsEpoch env))
    (hAccepts : Accepts (target s.reassembly.packets payload.key) payload.frag env.allocs) :
    ∃ q ∈ sent, payload.frag ∈ q.fragments ∧
      StoredFrom q (target s.reassembly.packets payload.key) := by
  cases hGet : getPacketFromHash s.reassembly.packets payload.key with
  | none =>
    obtain ⟨q, hq, hFrag⟩ := hArrives
    refine ⟨q, hq, hFrag, ?_⟩
    rw [Reassembly.target, hGet]
    exact storedFrom_fresh q payload.key
  | some p =>
    have hStores : Stores s.reassembly payload.frag env.allocs := by
      refine ⟨Or.inl ?_, hAccepts⟩
      rw [DsapDataRxFragIndPl.key_frag, hGet]
      exact Option.some_ne_none p
    obtain ⟨q, hq, hFrag, hStored⟩ := h hStores p hGet
    refine ⟨q, hq, hFrag, ?_⟩
    rw [Reassembly.target, hGet]
    exact hStored

theorem Unmixed.fitsWhenAdded (h : Unmixed sent s payload env) (hSound : StoreSound s)
    (hArrives : Arrives sent (.fragIndication payload timestampMsEpoch env)) :
    FitsWhenAdded s.reassembly (.addFragment payload.frag env.allocs env.addedAt) := by
  intro hAccepts
  obtain ⟨q, -, hFrag, hStored⟩ := h.origin hArrives hAccepts
  exact hStored.fits (hSound.target payload.key) hFrag hAccepts.1

theorem takeFragment_sound (timestampMsEpoch : Nat) (hSound : StoreSound s)
    (hFits : FitsWhenAdded s.reassembly (.addFragment payload.frag env.allocs env.addedAt)) :
    StoreSound (takeFragment s payload timestampMsEpoch env).1 := by
  have hAdded := sound_step _ _ _ hSound hFits rfl
  unfold takeFragment
  dsimp only
  split
  · unfold StoreSound
    rw [handOver_reassembly]
    exact sound_step _ (.getFullMessage payload.key s.reassemblyBuffer maxFullPacketSize) _ hAdded
      trivial rfl
  · exact hAdded

theorem respond_sound {e : RxEvent} (hSound : StoreSound s) (hArrives : Arrives sent e)
    (hApart : KeepsApart sent s e) : StoreSound (respond s e).1 := by
  cases e with
  | fragIndication payload timestampMsEpoch env =>
    have hTaken := takeFragment_sound timestampMsEpoch hSound
      (hApart.1.fitsWhenAdded hSound hArrives)
    change StoreSound (dsapDataRxFragIndicationHandler s payload timestampMsEpoch env).1
    unfold dsapDataRxFragIndicationHandler
    split
    · next hEq =>
      rw [hEq] at hTaken
      exact sound_step _ (.garbageCollect env.collectedAt) _ hTaken trivial rfl
    · next hEq =>
      rw [hEq] at hTaken
      exact hTaken
  | collect now => exact sound_step _ (.garbageCollect now) _ hSound trivial rfl
  | register cb => exact hSound
  | unregister => exact hSound
  | setMaxFragmentDuration d => exact hSound

/-- A call of the callback in the step hands over a packet that was sent by its source. -/
def DeliversSent (sent : List SentPacket) (s : Receiver) (e : RxEvent) : Prop :=
  ∀ call, (respond s e).2 = some call →
    ∃ q ∈ sent, q.key.srcAdd = call.srcAdd ∧ q.bytes = call.bytes

theorem handler_deliversSent (hSound : StoreSound s)
    (hArrives : Arrives sent (.fragIndication payload timestampMsEpoch env))
    (hUnmixed : Unmixed sent s payload env) (hFits : FitsBuffer s payload env) :
    DeliversSent sent s (.fragIndication payload timestampMsEpoch env) := by
  intro call hCall
  change (dsapDataRxFragIndicationHandler s payload timestampMsEpoch env).2 = some call at hCall
  rw [handler_call] at hCall
  by_cases hCompletes : Completes s payload env
  · obtain ⟨packets, -, -, hTake⟩ := takeFragment_of_completes timestampMsEpoch hCompletes
    have hNotLarge : s.dataCb ≠ none →
        (grown s.reassembly payload.frag env.addedAt).fullSize ≤ maxFullPacketSize :=
      fun hCb => hFits hCb hCompletes
    obtain ⟨⟨-, hAccepts⟩, hFull, -⟩ := hCompletes
    obtain ⟨q, hq, hFrag, hStored⟩ := hUnmixed.origin hArrives hAccepts
    have hGrownSound : Sound (grown s.reassembly payload.frag env.addedAt) :=
      ((hSound.target payload.key).extended
        (hUnmixed.fitsWhenAdded hSound hArrives hAccepts)).settled
    have hGrownStored : StoredFrom q (grown s.reassembly payload.frag env.addedAt) :=
      hStored.extended hFrag env.addedAt
    rw [hTake] at hCall
    split at hCall
    · next hLarge =>
      rw [handOver_call] at hCall
      obtain ⟨cb, hCb, -⟩ := Option.map_eq_some_iff.mp hCall
      have hSmall := hNotLarge (by rw [hCb]; nofun)
      exact absurd hLarge (Nat.not_lt.mpr hSmall)
    · rw [handOver_call] at hCall
      obtain ⟨cb, -, rfl⟩ := Option.map_eq_some_iff.mp hCall
      refine ⟨q, hq, ?_, (hGrownStored.assembled hGrownSound hFull s.reassemblyBuffer).symm⟩
      rw [← q.keyed payload.frag hFrag]
      rfl
  · obtain ⟨packets, -, hTake⟩ := takeFragment_of_not_completes timestampMsEpoch hCompletes
    rw [hTake] at hCall
    cases hCall

theorem respond_deliversSent {e : RxEvent} (hSound : StoreSound s) (hArrives : Arrives sent e)
    (hApart : KeepsApart sent s e) : DeliversSent sent s e := by
  cases e with
  | fragIndication payload timestampMsEpoch env =>
    exact handler_deliversSent hSound hArrives hApart.1 hApart.2
  | _ =>
    intro call hCall
    cases hCall

end Receiving

/-- In every run that adds no fragment to fragments of another packet, every message that goes
to the callback is a packet that was sent. -/
theorem kept_apart_delivers_sent (sent : List SentPacket) (events : List RxEvent)
    (hArrives : ∀ e ∈ events, Arrives sent e)
    (hApart : Meets step (KeepsApart sent) .init events) (s : Receiver) (e : RxEvent)
    (hTakes : Takes step .init events s e) : DeliversSent sent s e := by
  have hStep : ∀ (s : Receiver) (e : RxEvent) (t : Receiver), StoreSound s →
      Arrives sent e ∧ KeepsApart sent s e → step s e = some t → StoreSound t := by
    intro s e t hSound hCond hTaken
    cases hTaken
    exact respond_sound hSound hCond.1 hCond.2
  have hBoth : Meets step (fun s e => Arrives sent e ∧ KeepsApart sent s e) .init events := by
    rw [meets_iff_takes] at hApart ⊢
    intro t f hTaken
    exact ⟨hArrives f hTaken.mem, hApart t f hTaken⟩
  have hInit : StoreSound .init := nofun
  obtain ⟨hSound, hHere⟩ := hTakes.invariant hStep hInit hBoth
  exact respond_deliversSent hSound hHere.1 hHere.2

/-- The readings of the clock in a run, in the order they are made. -/
def times : RxEvent → List Nat
  | .fragIndication _ _ env => [env.addedAt, env.collectedAt]
  | .collect now => [now]
  | _ => []

def Chronological (events : List RxEvent) : Prop := (events.flatMap times).Pairwise (· ≤ ·)

instance (events : List RxEvent) : Decidable (Chronological events) :=
  inferInstanceAs (Decidable (List.Pairwise _ _))

def fourBytes (buffer : List UInt8) : DataTx := ⟨buffer, 5, 9, 0, 1, 1, none, 0, false, 0⟩

/-- Two payloads that a sender splits at an MTU of two, the second one after a restart that
begins with the same id. -/
def beforeRestart : SentPacket :=
  .ofChunks 7 0 2 (fourBytes [0xa0, 0xa1, 0xa2, 0xa3]) (by decide) (by decide)

def afterRestart : SentPacket :=
  .ofChunks 7 0 2 (fourBytes [0xb0, 0xb1, 0xb2, 0xb3]) (by decide) (by decide)

def fragmentAt (flag : UInt16) (bytes : List UInt8) (now : Nat) : RxEvent :=
  .fragIndication
    { indicationStatus := 0
      srcAdd := 7
      srcEndpoint := 1
      destAdd := 9
      destEndpoint := 1
      qosHopCount := 0
      travelTime := 0
      fullPacketId := 0
      fragmentOffsetFlag := flag
      apduLength := .ofNat bytes.length
      apdu := Memory.write (fun _ => 0) 0 bytes }
    0 ⟨.all, now, now⟩

/-- What is left of the first packet is collected before the second one arrives. -/
def collectedBetween : List RxEvent :=
  [.register 1, .setMaxFragmentDuration 60, fragmentAt 0 [0xa0, 0xa1] 1000, .collect 100000,
    fragmentAt 0x8002 [0xb2, 0xb3] 100010]

theorem kept_apart_delivers_sent_collectedBetween :
    ∃ s, run step .init collectedBetween = some s ∧
      DeliversSent [beforeRestart, afterRestart] s (fragmentAt 0 [0xb0, 0xb1] 100020) :=
  ⟨_, rfl,
    kept_apart_delivers_sent [beforeRestart, afterRestart]
      (collectedBetween ++ [fragmentAt 0 [0xb0, 0xb1] 100020]) (by decide) (by decide +kernel) _ _
      ⟨collectedBetween, [], rfl, rfl⟩⟩

/-- The first half of one packet and the second half of the other one. -/
theorem restarted_sender_mixes :
    ¬ ∀ (sent : List SentPacket) (events : List RxEvent),
      (∀ e ∈ events, Arrives sent e) → Chronological events →
        ∀ (s : Receiver) (e : RxEvent), Takes step .init events s e → DeliversSent sent s e := by
  intro h
  have hDelivers := h [beforeRestart, afterRestart]
    [.register 1, fragmentAt 0 [0xa0, 0xa1] 1000, fragmentAt 0x8002 [0xb2, 0xb3] 2000]
    (by decide) (by decide) _ _
    ⟨[.register 1, fragmentAt 0 [0xa0, 0xa1] 1000], [], rfl, rfl⟩
  obtain ⟨q, hq, -, hBytes⟩ := hDelivers _ rfl
  have hMixed : q.bytes = [0xa0, 0xa1, 0xb2, 0xb3] := hBytes
  rcases List.mem_cons.mp hq with rfl | hq
  · exact absurd hMixed (by decide)
  · obtain rfl := List.mem_singleton.mp hq
    exact absurd hMixed (by decide)

end CMeshApi.Dsap
