import CMeshApi.Platform.History
import CMeshApi.Proto.Config
import CMeshApi.Proto.Published
import CMeshApi.Proto.Unfilled
import CMeshApi.Wpc.Indications

/-!
# From the node to the published events

The threads of the platform with the handlers of `wpc_internal.c`, `dsap.c` and `msap.c`, and the
callbacks of the gateway layer in these: the polling thread inserts frames, the dispatch thread
handles them, and other threads change the settings, the gateway and the node at any time.
-/

namespace CMeshApi.Proto

open Machine Platform Dsap Reassembly Wpc

namespace Pipeline

/-- What the handlers work on. -/
structure Store (ν : Type) where
  handlers : Indications.Handlers
  world : World Gateway ν
  published : List RxEvent

/-- What the platform answers while an indication is handled, apart from the clock. -/
structure Answers where
  allocs : Allocs
  occasion : Occasion

inductive Setting (ν : Type) where
  | registerForData (cb : OnDataReceivedCb)
  | unregisterForData
  | setMaxFragmentDuration (fragmentMaxDurationS : UInt32)
  /-- What other threads have made of the gateway and of the node. -/
  | others (world : World Gateway ν)

def appQosValue : AppQos → UInt32
  | .normal => 0
  | .high => 1

def receivedOf (data : DataReceived) : Received where
  bytes := data.bytes
  srcAddr := data.srcAdd
  dstAddr := data.destAdd
  qos := appQosValue data.qos
  srcEp := data.srcEndpoint
  dstEp := data.destEndpoint
  travelTime := data.travelTime
  hopCount := data.hopCount
  timestampMs := .ofNat data.timestampMsEpoch

section Services

variable {ν : Type} (env : Environment ν)

/-- The callback for the stack status is the one that the gateway layer registers. -/
def Store.current (r : Store ν) : Indications.Handlers :=
  { r.handlers with stackStatusCb := if r.world.gateway.stackStatusCb then some 0 else none }

def dispatched (r : Store ν) (ind : TimestampedFrame (Memory UInt8)) (answers : Answers)
    (start finish : Nat) : Indications.Dispatched :=
  Indications.dispatchIndication r.current ind.frame ind.timestampMsEpoch ⟨answers.allocs, start, finish⟩

/-- The handler of a stack status looks at the node again, and at its MTU. -/
def stackStatus (d : Indications.Dispatched) : Call Gateway ν Unit := do
  match d.callback with
  | some (.onStackStatusReceived _ status) => onStackStatusReceived env status
  | _ => return ()
  if d.setsMtu then wpcIntSetMtu env else return ()

def dataReceived (d : Indications.Dispatched) : Option Received :=
  match d.callback with
  | some (.onDataReceived data) => some (receivedOf data)
  | _ => none

def dispatchIndication (r : Store ν) (ind : TimestampedFrame (Memory UInt8)) (answers : Answers)
    (start finish : Nat) : Store ν :=
  let d := dispatched r ind answers start finish
  { handlers := d.handlers
    world := (stackStatus env d r.world).2
    published := r.published ++ ((dataReceived d).bind fun p =>
      (onDataReceived r.world.gateway answers.occasion p).2).toList }

def Store.setReceiver (r : Store ν) (receiver : Receiver) : Store ν :=
  { r with handlers := { r.handlers with receiver } }

def configure (r : Store ν) : Setting ν → Store ν
  | .registerForData cb => r.setReceiver (dsapRegisterForData r.handlers.receiver cb)
  | .unregisterForData => r.setReceiver (dsapUnregisterForData r.handlers.receiver)
  | .setMaxFragmentDuration d => r.setReceiver (dsapSetMaxFragmentDuration r.handlers.receiver d)
  | .others world => { r with world }

def services : Services (Memory UInt8) (Store ν) Answers (Setting ν) where
  dispatchIndication := dispatchIndication env
  reassemblyGarbageCollect r now := r.setReceiver (collect r.handlers.receiver now)
  reassemblyIsQueueEmpty r := reassemblyIsQueueEmpty r.handlers.receiver.reassembly
  configure := configure

abbrev Served (ν : Type) := Effect (Memory UInt8) Answers (Setting ν)

/-- The packet that the handling of an indication gives to `onDataReceived`, with the gateway and the
answers of the platform that it meets. -/
def delivery (r : Store ν) : Served ν → Option (Gateway × Occasion × Received)
  | .handle ind answers start finish =>
    (dataReceived (dispatched r ind answers start finish)).map fun p =>
      (r.world.gateway, answers.occasion, p)
  | _ => none

/-- The packets that are given to it one after the other. -/
def deliveries (r : Store ν) : List (Served ν) → List (Gateway × Occasion × Received)
  | [] => []
  | effect :: effects => (delivery r effect).toList ++ deliveries (serve (services env) r effect) effects

theorem serve_published (r : Store ν) (effect : Served ν) :
    (serve (services env) r effect).published = r.published ++ (delivery r effect).toList.filterMap event := by
  cases effect with
  | handle ind answers start finish =>
    simp only [serve, services, dispatchIndication, delivery]
    cases dataReceived (dispatched r ind answers start finish) with
    | none => rfl
    | some p => rfl
  | collect now => simp [serve, services, delivery, Store.setReceiver]
  | configure setting => cases setting <;> simp [serve, services, configure, delivery, Store.setReceiver]

theorem serveAll_published (r : Store ν) (effects : List (Served ν)) :
    (serveAll (services env) r effects).published =
      r.published ++ (deliveries env r effects).filterMap event := by
  induction effects generalizing r with
  | nil => simp [serveAll, deliveries]
  | cons effect effects ih =>
    rw [deliveries, List.filterMap_append, ← List.append_assoc, ← serve_published]
    exact ih _

/-- The effects of a run of the threads, in order. -/
abbrev served (reads : RoomReads) (r : Store ν) (clock : Nat)
    (events : List (Event (Memory UInt8) Answers (Setting ν))) : List (Served ν) :=
  journal (State.step (services env) reads) State.effects (State.init r clock) events

variable {env}

/-- However the threads take turns, the events are read as the packets that one dispatch after the
other hands to the gateway layer, each once and in the order of their frames. -/
theorem published_in_order {reads : RoomReads} {r : Store ν} {clock : Nat}
    {events : List (Event (Memory UInt8) Answers (Setting ν))} {s : State (Memory UInt8) (Store ν)}
    (hFirst : r.published = [])
    (hRun : run (State.step (services env) reads) (State.init r clock) events = some s) :
    handledInds (served env reads r clock events) <+: s.indications.inserted ∧
      s.HasHandled (handledInds (served env reads r clock events)).length ∧
      s.receiver = serveAll (services env) r (served env reads r clock events) ∧
      s.receiver.published.map (fun e => readPacketReceivedEvent e.encoded) =
        ((deliveries env r (served env reads r clock events)).filter fun x => (event x).isSome).map
          fun x => some (published x.1 x.2.1 x.2.2) := by
  have hServes := State.serves_run (State.serves_init (services env) r clock) hRun
  rw [List.nil_append] at hServes
  refine ⟨hServes.inOrder, hServes.handled, hServes.receiver, ?_⟩
  rw [hServes.receiver, serveAll_published, hFirst, List.nil_append]
  exact events_read _

end Services

/-- What the node sends of a packet that fits in one frame. -/
structure DataPacket where
  srcAdd : UInt32
  srcEndpoint : UInt8
  destAdd : UInt32
  destEndpoint : UInt8
  qosHopCount : UInt8
  travelTime : UInt32
  apdu : List UInt8
  fits : 20 + apdu.length ≤ sizeofWpcFrame

namespace DataPacket

/-- `dsap_data_rx_ind_pl_t` in a frame, less the unused end of the apdu. -/
def frame (p : DataPacket) (frameId indicationStatus : UInt8) : List UInt8 :=
  [0x03, frameId, .ofNat (17 + p.apdu.length), indicationStatus] ++ uint32EncodeLe p.srcAdd ++
    [p.srcEndpoint] ++ uint32EncodeLe p.destAdd ++ [p.destEndpoint, p.qosHopCount] ++
    uint32EncodeLe p.travelTime ++ [.ofNat p.apdu.length] ++ p.apdu

def received (p : DataPacket) (timestampMsEpoch : Nat) : Received where
  bytes := p.apdu
  srcAddr := p.srcAdd
  dstAddr := p.destAdd
  qos := appQosValue (appQos p.qosHopCount)
  srcEp := p.srcEndpoint
  dstEp := p.destEndpoint
  travelTime := internalTimeToMs p.travelTime
  hopCount := p.qosHopCount >>> 2
  timestampMs := .ofNat timestampMsEpoch

theorem length_frame (p : DataPacket) (frameId indicationStatus : UInt8) :
    (p.frame frameId indicationStatus).length = 20 + p.apdu.length := by
  simp [frame, uint32EncodeLe]
  omega

end DataPacket

section Written

variable (m : Memory UInt8) {b : List UInt8}

theorem read_written {i n : Nat} (h : i + n ≤ b.length) :
    (m.write 0 b).read i n = (b.drop i).take n := by
  rw [← Memory.read_write_part m 0 h, Int.zero_add]

theorem cell_written {k : Nat} {v : UInt8} (h : (b.drop k).take 1 = [v]) (hk : k < b.length) :
    m.write 0 b k = v := by
  have hRead := read_written m (b := b) (i := k) (n := 1) hk
  rw [h] at hRead
  simpa [Memory.read] using hRead

theorem uint16At_written {i : Nat} {v : UInt16} (h : (b.drop i).take 2 = uint16EncodeLe v)
    (hi : i + 2 ≤ b.length) : Indications.uint16At (m.write 0 b) i = v := by
  rw [Indications.uint16At, read_written m hi, h, uint16DecodeLe_encode]

theorem uint32At_written {i : Nat} {v : UInt32} (h : (b.drop i).take 4 = uint32EncodeLe v)
    (hi : i + 4 ≤ b.length) : Indications.uint32At (m.write 0 b) i = v := by
  rw [Indications.uint32At, read_written m hi, h, uint32DecodeLe_encode]

/-- The end of what was written. -/
theorem read_written_end {i : Nat} (h : i ≤ b.length) :
    Memory.read (fun k => m.write 0 b (i + k)) 0 (b.length - i) = b.drop i := by
  have hRead := read_written m (b := b) (i := i) (n := b.length - i) (by omega)
  rw [List.take_of_length_le (by rw [List.length_drop])] at hRead
  rw [← hRead]
  simp [Memory.read]

end Written

section Frames

variable (m : Memory UInt8) (p : DataPacket) (frameId indicationStatus : UInt8)

theorem dsapDataRxIndicationPayload_frame :
    Indications.dsapDataRxIndicationPayload (m.write 0 (p.frame frameId indicationStatus)) = {
      indicationStatus := indicationStatus
      srcAdd := p.srcAdd
      srcEndpoint := p.srcEndpoint
      destAdd := p.destAdd
      destEndpoint := p.destEndpoint
      qosHopCount := p.qosHopCount
      travelTime := p.travelTime
      apduLength := .ofNat p.apdu.length
      apdu := fun i => m.write 0 (p.frame frameId indicationStatus) (20 + i) } := by
  have hLength := p.length_frame frameId indicationStatus
  have hByte {k : Nat} {b : UInt8} (h : ((p.frame frameId indicationStatus).drop k).take 1 = [b]) (hk : k < 20) :=
    cell_written m h (by omega)
  have hWord {i : Nat} {v : UInt32} (h : ((p.frame frameId indicationStatus).drop i).take 4 = uint32EncodeLe v)
      (hi : i + 4 ≤ 20) := uint32At_written m h (by omega)
  rw [Indications.dsapDataRxIndicationPayload, Indications.DsapDataRxIndPl.mk.injEq]
  exact ⟨hByte (k := 3) rfl (by decide), hWord (i := 4) rfl (by decide), hByte (k := 8) rfl (by decide),
    hWord (i := 9) rfl (by decide), hByte (k := 13) rfl (by decide), hByte (k := 14) rfl (by decide),
    hWord (i := 15) rfl (by decide), hByte (k := 19) rfl (by decide), rfl⟩

theorem read_apdu :
    Memory.read (fun i => m.write 0 (p.frame frameId indicationStatus) (20 + i)) 0 p.apdu.length = p.apdu := by
  have hLength := p.length_frame frameId indicationStatus
  have hEnd := read_written_end m (b := p.frame frameId indicationStatus) (i := 20) (by omega)
  rw [hLength, Nat.add_sub_cancel_left] at hEnd
  exact hEnd

end Frames

/-- The polling thread has put the frame of the packet into a slot of the queue, whatever the slot
and its own frame held before. -/
def Carries (ind : TimestampedFrame (Memory UInt8)) (packet : Received) : Prop :=
  ∃ (p : DataPacket) (frameId indicationStatus : UInt8) (slot frame : Memory UInt8),
    ind.frame = Wpc.Indications.onIndicationReceivedLocked slot
      (Wpc.Indications.slipCopy frame (p.frame frameId indicationStatus)) ∧
    packet = p.received ind.timestampMsEpoch

section Carried

variable {ν : Type} {env : Environment ν} {r : Store ν} {ind : TimestampedFrame (Memory UInt8)}
  {packet : Received} {answers : Answers} {start finish : Nat}

theorem Carries.written (h : Carries ind packet) :
    ∃ (p : DataPacket) (frameId indicationStatus : UInt8) (m : Memory UInt8),
      ind.frame = m.write 0 (p.frame frameId indicationStatus) ∧
      packet = p.received ind.timestampMsEpoch := by
  obtain ⟨p, frameId, indicationStatus, slot, frame, hFrame, hPacket⟩ := h
  have hFits : (p.frame frameId indicationStatus).length ≤ sizeofWpcFrame := by
    rw [p.length_frame]
    exact p.fits
  refine ⟨p, frameId, indicationStatus, slot.write 0 (frame.read 0 sizeofWpcFrame), ?_, hPacket⟩
  rw [hFrame, Wpc.Indications.onIndicationReceivedLocked, Wpc.Indications.slipCopy, if_pos hFits]
  exact Memory.write_read_write slot frame hFits

theorem dispatched_carried (h : Carries ind packet) :
    (dispatched r ind answers start finish).handlers = r.current ∧
      dataReceived (dispatched r ind answers start finish) = r.handlers.receiver.dataCb.map fun _ => packet := by
  obtain ⟨p, frameId, indicationStatus, m, hFrame, rfl⟩ := h.written
  have hId : Indications.Primitive.ofId (ind.frame 0) = some .dsapDataRx := by
    rw [hFrame, show m.write 0 (p.frame frameId indicationStatus) 0 = 0x03 from
      cell_written m (k := 0) rfl (by rw [p.length_frame]; omega)]
    rfl
  have hLength : (UInt8.ofNat p.apdu.length).toNat = p.apdu.length := by
    have hFits : 20 + p.apdu.length ≤ sizeofWpcFrame := p.fits
    have hSize : sizeofWpcFrame < 256 := by decide
    simp
    omega
  rw [dispatched, Indications.dispatchIndication, hId]
  refine ⟨rfl, ?_⟩
  simp only [Indications.handlePrimitive, hFrame, dsapDataRxIndicationPayload_frame,
    Indications.dsapDataRxIndicationHandler, Store.current, hLength, read_apdu]
  cases r.handlers.receiver.dataCb with
  | none => rfl
  | some cb => rfl

theorem serve_registered {effect : Served ν} (hCarries : ∀ ind, effect.ind = some ind → ∃ packet, Carries ind packet)
    (hEffect : effect ≠ .configure .unregisterForData) (h : r.handlers.receiver.dataCb.isSome) :
    (serve (services env) r effect).handlers.receiver.dataCb.isSome := by
  cases effect with
  | handle ind answers start finish =>
    obtain ⟨packet, hPacket⟩ := hCarries ind rfl
    change (dispatched r ind answers start finish).handlers.receiver.dataCb.isSome
    rw [(dispatched_carried hPacket).1]
    exact h
  | collect now => exact h
  | configure setting =>
    cases setting with
    | unregisterForData => exact absurd rfl hEffect
    | registerForData cb => rfl
    | setMaxFragmentDuration d => exact h
    | others world => exact h

/-- While a callback is registered, each frame of a packet hands it on. -/
theorem deliveries_carried {effects : List (Served ν)} {packets : List Received}
    (hCarries : List.Forall₂ Carries (handledInds effects) packets)
    (hEffects : ∀ effect ∈ effects, effect ≠ .configure .unregisterForData)
    (h : r.handlers.receiver.dataCb.isSome) :
    (deliveries env r effects).map (fun x => x.2.2) = packets := by
  induction effects generalizing r packets with
  | nil =>
    cases hCarries
    rfl
  | cons effect effects ih =>
    obtain ⟨hEffect, hEffects⟩ := List.forall_mem_cons.mp hEffects
    rw [deliveries, List.map_append]
    cases hInd : effect.ind with
    | none =>
      have hInds : handledInds (effect :: effects) = handledInds effects := by
        simp [handledInds, hInd]
      rw [hInds] at hCarries
      rw [ih hCarries hEffects (serve_registered (fun ind hSome => by rw [hInd] at hSome; cases hSome) hEffect h)]
      cases effect with
      | handle => cases hInd
      | _ => rfl
    | some ind =>
      have hInds : handledInds (effect :: effects) = ind :: handledInds effects := by
        simp [handledInds, hInd]
      rw [hInds] at hCarries
      obtain ⟨packet, rest, hPacket, hRest, rfl⟩ := List.forall₂_cons_left_iff.mp hCarries
      have hRegistered : (serve (services env) r effect).handlers.receiver.dataCb.isSome := by
        refine serve_registered ?_ hEffect h
        intro ind' hSome
        rw [hInd] at hSome
        cases hSome
        exact ⟨packet, hPacket⟩
      rw [ih hRest hEffects hRegistered]
      cases effect with
      | handle ind' answers start finish =>
        cases hInd
        obtain ⟨cb, hCb⟩ := Option.isSome_iff_exists.mp h
        rw [delivery, (dispatched_carried hPacket).2, hCb]
        rfl
      | collect now => cases hInd
      | configure setting => cases hInd

end Carried

theorem effects_registered {ν : Type} {s : State (Memory UInt8) (Store ν)}
    {e : Event (Memory UInt8) Answers (Setting ν)} (h : e ≠ .configure .unregisterForData) :
    ∀ effect ∈ s.effects e, effect ≠ .configure .unregisterForData := by
  rintro effect hEffect rfl
  cases e with
  | configure setting =>
    obtain hSame := List.mem_singleton.mp hEffect
    cases hSame
    exact h rfl
  | handle _ _ _ => cases List.mem_singleton.mp hEffect
  | wakeUp _ => cases List.mem_singleton.mp hEffect
  | _ => cases hEffect

/-- Packets that come in one frame each: however the threads take turns, the packets that are handed
to the gateway layer are these, in the order in which their frames came in, as many as were handled,
and the events that the application gets are read as them, but for those that do not lead to an
event. -/
theorem data_frames_published {ν : Type} {env : Environment ν} {reads : RoomReads} {r : Store ν} {clock : Nat}
    {events : List (Event (Memory UInt8) Answers (Setting ν))} {s : State (Memory UInt8) (Store ν)}
    {packets : List Received} (hFirst : r.published = []) (hRegistered : r.handlers.receiver.dataCb.isSome)
    (hKept : ∀ e ∈ events, e ≠ .configure .unregisterForData)
    (hRun : run (State.step (services env) reads) (State.init r clock) events = some s)
    (hCarries : List.Forall₂ Carries s.indications.inserted packets) :
    s.HasHandled (handledInds (served env reads r clock events)).length ∧
      (deliveries env r (served env reads r clock events)).map (fun x => x.2.2) =
        packets.take (handledInds (served env reads r clock events)).length ∧
      s.receiver.published.map (fun e => readPacketReceivedEvent e.encoded) =
        ((deliveries env r (served env reads r clock events)).filter fun x => (event x).isSome).map
          fun x => some (published x.1 x.2.1 x.2.2) := by
  have hServes := State.serves_run (State.serves_init (services env) r clock) hRun
  rw [List.nil_append] at hServes
  have hEffects : ∀ effect ∈ served env reads r clock events, effect ≠ .configure .unregisterForData :=
    forall_mem_journal fun t e he => effects_registered (hKept e he)
  have hPrefix := List.prefix_iff_eq_take.mp hServes.inOrder
  have hCarried := List.forall₂_take (handledInds (served env reads r clock events)).length hCarries
  rw [← hPrefix] at hCarried
  refine ⟨hServes.handled, deliveries_carried hCarried hEffects hRegistered, ?_⟩
  rw [hServes.receiver, serveAll_published, hFirst, List.nil_append, events_read]

def onePacket : DataPacket := ⟨1, 2, 3, 4, 1, 128, [0xAA], by decide⟩

def oneFrame : Memory UInt8 :=
  Wpc.Indications.onIndicationReceivedLocked (fun _ => 0xFF)
    (Wpc.Indications.slipCopy (fun _ => 0xFE) (onePacket.frame 7 0))

def registered : Store Unit where
  handlers := ⟨⟨Reassembly.init, fun _ => 0, some 0⟩, IndicationTable.init, none, none, none, none⟩
  world := ⟨⟨60, 102⟩, { Gateway.initialized .zero with rxEventCb := true }, ()⟩
  published := []

def onePolled : List (Event (Memory UInt8) Answers (Setting Unit)) :=
  List.replicate 7 .poll ++
    [.pollAnswer .pending, .indicate oneFrame 100 0, .configure (.setMaxFragmentDuration 5), .dispatch,
      .handle ⟨.all, ⟨true, true, 5, 6, 7⟩⟩ 10 10]

theorem published_in_order_onePolled :
    ∃ s, run (State.step (services silentNode) .again) (State.init registered 0) onePolled = some s ∧
      s.HasHandled 1 ∧ handledInds (served silentNode .again registered 0 onePolled) <+: s.indications.inserted ∧
        s.HasHandled (handledInds (served silentNode .again registered 0 onePolled)).length ∧
        s.receiver = serveAll (services silentNode) registered (served silentNode .again registered 0 onePolled) ∧
        s.receiver.published.map (fun e => readPacketReceivedEvent e.encoded) =
          ((deliveries silentNode registered (served silentNode .again registered 0 onePolled)).filter
            fun x => (event x).isSome).map fun x => some (published x.1 x.2.1 x.2.2) := by
  have hRun : run (State.step (services silentNode) .again) (State.init registered 0) onePolled = some _ := rfl
  exact ⟨_, hRun, .inl rfl, published_in_order rfl hRun⟩

theorem data_frames_published_onePolled :
    ∃ s, run (State.step (services silentNode) .again) (State.init registered 0) onePolled = some s ∧
      handledInds (served silentNode .again registered 0 onePolled) = [⟨oneFrame, 100⟩] ∧
        s.HasHandled (handledInds (served silentNode .again registered 0 onePolled)).length ∧
        (deliveries silentNode registered (served silentNode .again registered 0 onePolled)).map (fun x => x.2.2) =
          [onePacket.received 100].take (handledInds (served silentNode .again registered 0 onePolled)).length ∧
        s.receiver.published.map (fun e => readPacketReceivedEvent e.encoded) =
          ((deliveries silentNode registered (served silentNode .again registered 0 onePolled)).filter
            fun x => (event x).isSome).map fun x => some (published x.1 x.2.1 x.2.2) := by
  have hRun : run (State.step (services silentNode) .again) (State.init registered 0) onePolled = some _ := rfl
  have hKept : ∀ e ∈ onePolled, e ≠ .configure .unregisterForData := by
    rintro e he rfl
    simp [onePolled] at he
  refine ⟨_, hRun, rfl, data_frames_published rfl rfl hKept hRun ?_⟩
  exact .cons ⟨onePacket, 7, 0, fun _ => 0xFF, fun _ => 0xFE, rfl, rfl⟩ .nil

end Pipeline

end CMeshApi.Proto
