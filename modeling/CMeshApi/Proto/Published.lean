import CMeshApi.Foundations.WireReading
import CMeshApi.Proto.ReceivedEvent

/-!
# What is read of the published packets

The events that `onDataReceived` gives to the callback, read back as `wp_PacketReceivedEvent`s.
-/

namespace CMeshApi.Proto

open Wire

/-- A packet, with what the event says of the gateway that has received it. -/
structure Published where
  gwId : List UInt8
  sinkId : Option (List UInt8)
  eventId : UInt64
  timeMsEpoch : Option UInt64
  networkAddress : Option UInt32
  packet : Received
deriving DecidableEq, Repr

def readPacket (event : List Field) : Option Received := do
  return {
    bytes := ← bytes? 9 event
    srcAddr := .ofNat (← number? 2 event)
    dstAddr := .ofNat (← number? 3 event)
    qos := .ofNat (← number? 8 event)
    srcEp := .ofNat (← number? 4 event)
    dstEp := .ofNat (← number? 5 event)
    travelTime := .ofNat (← number? 6 event)
    hopCount := .ofNat (← number? 11 event)
    timestampMs := .ofNat (← number? 7 event) }

def readPacketReceivedEvent (input : List UInt8) : Option Published := do
  let generic ← read input
  let wirepas ← message? 1 generic
  let event ← message? 8 wirepas
  let header ← message? 1 event
  let packet ← readPacket event
  return {
    gwId := ← bytes? 1 header
    sinkId := bytes? 2 header
    eventId := .ofNat (← number? 3 header)
    timeMsEpoch := (number? 4 header).map .ofNat
    networkAddress := (number? 12 event).map .ofNat
    packet := packet }

def published (g : Gateway) (o : Occasion) (p : Received) : Published where
  gwId := g.ids.gatewayId.chars
  sinkId := if g.ids.sinkId.chars.isEmpty then none else some g.ids.sinkId.chars
  eventId := eventId o
  timeMsEpoch := some o.timestampMsEpoch
  networkAddress := some g.sinkConfig.networkAddress
  packet := p

section Event

variable (g : Gateway) (o : Occasion) (p : Received)

theorem readPacket_fields : readPacket (packetReceivedFields g o p) = some p := by
  simp [readPacket, packetReceivedFields, number?, bytes?, lookup, uint, bytes, submessage,
    Value.number, Value.content]

theorem message?_header : message? 1 (packetReceivedFields g o p) = some (eventHeaderFields g o) := by
  simp [message?, packetReceivedFields, bytes?, lookup, uint, bytes, submessage, Value.content]

theorem number?_networkAddress :
    number? 12 (packetReceivedFields g o p) = some g.sinkConfig.networkAddress.toNat := by
  simp [packetReceivedFields, number?, lookup, uint, Value.number]

theorem readPacketReceivedEvent_receivedMessage :
    readPacketReceivedEvent (receivedMessage g o p) = some (published g o p) := by
  have hGwId : bytes? 1 (eventHeaderFields g o) = some g.ids.gatewayId.chars := by
    simp [bytes?, eventHeaderFields, lookup, uint, bytes, Value.content]
  have hSinkId : bytes? 2 (eventHeaderFields g o) =
      if g.ids.sinkId.chars.isEmpty then none else some g.ids.sinkId.chars := by
    cases hEmpty : g.ids.sinkId.chars.isEmpty <;>
      simp [bytes?, eventHeaderFields, lookup, uint, bytes, Value.content, hEmpty]
  have hEventId : number? 3 (eventHeaderFields g o) = some (eventId o).toNat := by
    simp [number?, eventHeaderFields, lookup, uint, bytes, Value.number]
  have hTime : number? 4 (eventHeaderFields g o) = some o.timestampMsEpoch.toNat := by
    simp [number?, eventHeaderFields, lookup, uint, bytes, Value.number]
  rw [readPacketReceivedEvent, receivedMessage, read_encode]
  simp [message?_submessage, readPacket_fields, message?_header, number?_networkAddress, hGwId, hSinkId,
    hEventId, hTime, published]

theorem onDataReceived_event {e : RxEvent} (h : (onDataReceived g o p).2 = some e) :
    e = ⟨receivedMessage g o p, g.sinkConfig.networkAddress, p.srcEp, p.dstEp⟩ := by
  unfold onDataReceived at h
  split at h
  · cases h
  · next hSize =>
    rw [packetReceivedEvent_fields g o p (Nat.le_of_not_lt hSize)] at h
    split at h
    · cases h
    · split at h
      · cases h
      · split at h
        · cases h
        · next hEncoded =>
          obtain ⟨-, hSame⟩ := Option.ite_none_right_eq_some.mp hEncoded
          cases hSame
          obtain ⟨-, hEvent⟩ := Option.ite_none_right_eq_some.mp h
          exact (Option.some.inj hEvent).symm

end Event

/-- The event that a packet leads to in the state that the gateway is in. -/
def event (x : Gateway × Occasion × Received) : Option RxEvent := (onDataReceived x.1 x.2.1 x.2.2).2

/-- Of the packets that are received one after the other, those that lead to events are read from
these, in their order and as they were received. -/
theorem events_read (xs : List (Gateway × Occasion × Received)) :
    (xs.filterMap event).map (fun e => readPacketReceivedEvent e.encoded) =
      (xs.filter fun x => (event x).isSome).map fun x => some (published x.1 x.2.1 x.2.2) := by
  induction xs with
  | nil => rfl
  | cons x xs ih =>
    cases hEvent : event x with
    | none => simp [hEvent, ih]
    | some e =>
      have hRead : readPacketReceivedEvent e.encoded = some (published x.1 x.2.1 x.2.2) := by
        rw [onDataReceived_event x.1 x.2.1 x.2.2 hEvent]
        exact readPacketReceivedEvent_receivedMessage ..
      simp [hEvent, hRead, ih]

end CMeshApi.Proto
