import CMeshApi.Proto.Encoding

/-!
# The event of a received packet

`onDataReceived` wraps each packet into an event and encodes it into a buffer of the
size of the payload and a constant. The other fields of the event and the keys and
lengths around them have to fit into that constant, and their widths vary with every
value.
-/

namespace CMeshApi.Proto

open Wire Wpc

def wpcProtoOffsetDataSize : Nat := 100

/-- `member_size(wp_PacketReceivedEvent_payload_t, bytes)`. -/
def maxReceivedPayload : Nat := 1500

/-- The arguments of the callback for received data. -/
structure Received where
  bytes : List UInt8
  srcAddr : UInt32
  dstAddr : UInt32
  qos : UInt32
  srcEp : UInt8
  dstEp : UInt8
  travelTime : UInt32
  hopCount : UInt8
  timestampMs : UInt64
deriving DecidableEq, Repr

/-- What the platform answers while one packet is handled: the two allocations, the clock and the
two random numbers. -/
structure Occasion where
  eventAllocated : Bool
  bufferAllocated : Bool
  timestampMsEpoch : UInt64
  rand : UInt32
  rand' : UInt32
deriving DecidableEq, Repr

/-- The arguments of `m_rx_event_cb`. -/
structure RxEvent where
  encoded : List UInt8
  networkAddress : UInt32
  srcEp : UInt8
  dstEp : UInt8
deriving DecidableEq, Repr

def packetReceivedEvent (g : Gateway) (o : Occasion) (p : Received) : Raw.PacketReceivedEvent where
  header := commonFillEventHeader g.ids o.timestampMsEpoch o.rand o.rand' true
  sourceAddress := p.srcAddr
  destinationAddress := p.dstAddr
  sourceEndpoint := p.srcEp.toUInt32
  destinationEndpoint := p.dstEp.toUInt32
  travelTimeMs := p.travelTime
  rxTimeMsEpoch := p.timestampMs
  qos := p.qos
  hasPayload := true
  payload := p.bytes
  hasPayloadSize := false
  payloadSize := 0
  hasHopCount := true
  hopCount := p.hopCount.toUInt32
  hasNetworkAddress := true
  networkAddress := g.sinkConfig.networkAddress.toUInt64

/-- The result, and the call of `m_rx_event_cb`. -/
def onDataReceived (g : Gateway) (o : Occasion) (p : Received) : Bool × Option RxEvent :=
  if maxReceivedPayload < p.bytes.length then (false, none)
  else if !o.eventAllocated then (false, none)
  else if !o.bufferAllocated then (false, none)
  else
    match pbEncode (wpcProtoOffsetDataSize + p.bytes.length)
        (genericMessage 8 (packetReceivedEvent g o p).fields) with
    | none => (true, none)
    | some encoded =>
      (true, if g.rxEventCb then some ⟨encoded, g.sinkConfig.networkAddress, p.srcEp, p.dstEp⟩ else none)

section Size

variable (g : Gateway) (o : Occasion) (p : Received)

def eventId : UInt64 := o.rand.toUInt64 + (o.rand'.toUInt64 <<< 32)

def eventHeaderFields : List Field :=
  [bytes 1 g.ids.gatewayId.chars] ++
    Field.optional (!g.ids.sinkId.chars.isEmpty) (bytes 2 g.ids.sinkId.chars) ++
    [uint 3 (eventId o).toNat, uint 4 o.timestampMsEpoch.toNat]

def packetReceivedFields : List Field :=
  [submessage 1 (eventHeaderFields g o), uint 2 p.srcAddr.toNat, uint 3 p.dstAddr.toNat,
    uint 4 p.srcEp.toNat, uint 5 p.dstEp.toNat, uint 6 p.travelTime.toNat,
    uint 7 p.timestampMs.toNat, uint 8 p.qos.toNat, bytes 9 p.bytes, uint 11 p.hopCount.toNat,
    uint 12 g.sinkConfig.networkAddress.toNat]

def receivedMessage : List UInt8 := encode [submessage 1 [submessage 8 (packetReceivedFields g o p)]]

theorem commonFillEventHeader_fields :
    (commonFillEventHeader g.ids o.timestampMsEpoch o.rand o.rand' true).fields =
      some (eventHeaderFields g o) := by
  have hGateway : string 1 (strncpy (fun _ => 0) g.ids.gatewayId.chars gatewayIdMaxSize) =
      some [bytes 1 g.ids.gatewayId.chars] := string_strncpy 1 _ g.ids.gatewayId
  have hSink : string 2 (strncpy (fun _ => 0) g.ids.sinkId.chars sinkIdMaxSize) =
      some [bytes 2 g.ids.sinkId.chars] := string_strncpy 2 _ g.ids.sinkId
  unfold Raw.EventHeader.fields commonFillEventHeader eventHeaderFields eventId
  simp only [Bool.and_true, hGateway]
  cases g.ids.sinkId.chars.isEmpty with
  | true => rfl
  | false =>
    simp only [Bool.not_false, if_true, hSink]
    rfl

theorem packetReceivedEvent_fields (h : p.bytes.length ≤ maxReceivedPayload) :
    (packetReceivedEvent g o p).fields = some (packetReceivedFields g o p) := by
  have hSize : p.bytes.length ≤ 1500 := h
  unfold Raw.PacketReceivedEvent.fields packetReceivedEvent packetReceivedFields
  simp only [commonFillEventHeader_fields, hSize, if_true]
  rfl

/-- An event that fits is given to the callback, and one that does not is lost without an error. -/
theorem onDataReceived_eq (h : p.bytes.length ≤ maxReceivedPayload) (hEvent : o.eventAllocated = true)
    (hBuffer : o.bufferAllocated = true) (hCb : g.rxEventCb = true) :
    onDataReceived g o p =
      (true, if (receivedMessage g o p).length ≤ wpcProtoOffsetDataSize + p.bytes.length then
        some ⟨receivedMessage g o p, g.sinkConfig.networkAddress, p.srcEp, p.dstEp⟩ else none) := by
  have hEncoded : pbEncode (wpcProtoOffsetDataSize + p.bytes.length)
      (genericMessage 8 (packetReceivedEvent g o p).fields) =
      if (receivedMessage g o p).length ≤ wpcProtoOffsetDataSize + p.bytes.length then
        some (receivedMessage g o p) else none := by
    rw [packetReceivedEvent_fields g o p h]
    rfl
  unfold onDataReceived
  rw [if_neg (Nat.not_lt.mpr h), hEncoded]
  simp only [hEvent, hBuffer, hCb, Bool.not_true, Bool.false_eq_true, if_false, if_true]
  by_cases hLength : (receivedMessage g o p).length ≤ wpcProtoOffsetDataSize + p.bytes.length
  · rw [if_pos hLength, if_pos hLength]
  · rw [if_neg hLength, if_neg hLength]

/-- What the two names take in the header, apart from the key and the length of the first. -/
def nameLengths : Nat :=
  g.ids.gatewayId.chars.length +
    if g.ids.sinkId.chars.isEmpty then 0 else 2 + g.ids.sinkId.chars.length

def headerWidths : Nat := width (eventId o).toNat + width o.timestampMsEpoch.toNat

def packetWidths : Nat :=
  width p.srcAddr.toNat + width p.dstAddr.toNat + width p.srcEp.toNat + width p.dstEp.toNat +
    width p.travelTime.toNat + width p.timestampMs.toNat + width p.qos.toNat +
    width p.hopCount.toNat + width g.sinkConfig.networkAddress.toNat

/-- The size of the event, without the key and the length that its message has for it. -/
def packetReceivedSize : Nat :=
  16 + nameLengths g + headerWidths o + packetWidths g p + width p.bytes.length + p.bytes.length

theorem length_eventHeaderFields :
    (encode (eventHeaderFields g o)).length = 4 + nameLengths g + headerWidths o := by
  have hGateway := g.ids.gatewayId.fits
  have hSink := g.ids.sinkId.fits
  have hGatewayWidth : width g.ids.gatewayId.chars.length = 1 := width_small (by omega)
  have hSinkWidth : width g.ids.sinkId.chars.length = 1 := width_small (by omega)
  have hSinkField : (encode (Field.optional (!g.ids.sinkId.chars.isEmpty)
      (bytes 2 g.ids.sinkId.chars))).length =
      if g.ids.sinkId.chars.isEmpty then 0 else 2 + g.ids.sinkId.chars.length := by
    rw [length_encode_optional, length_encode_bytes (by decide), hSinkWidth]
    cases g.ids.sinkId.chars.isEmpty with
    | true => rfl
    | false => rfl
  unfold eventHeaderFields nameLengths headerWidths
  rw [encode_append, encode_append, List.length_append, List.length_append, hSinkField]
  simp only [encode_cons, encode_nil, List.length_append, List.length_nil,
    length_encode_bytes (by decide : 1 < 16), length_encode_uint (by decide : 3 < 16),
    length_encode_uint (by decide : 4 < 16), hGatewayWidth]
  omega

theorem eventHeader_small : 4 + nameLengths g + headerWidths o < 128 := by
  have hGateway := g.ids.gatewayId.fits
  have hSink := g.ids.sinkId.fits
  have hId : width (eventId o).toNat ≤ 9 + 1 :=
    width_le (Nat.lt_of_lt_of_le (eventId o).toNat_lt (by decide))
  have hTime : width o.timestampMsEpoch.toNat ≤ 9 + 1 :=
    width_le (Nat.lt_of_lt_of_le o.timestampMsEpoch.toNat_lt (by decide))
  unfold nameLengths headerWidths
  split
  · omega
  · omega

theorem length_packetReceivedFields :
    (encode (packetReceivedFields g o p)).length = packetReceivedSize g o p := by
  have hHeader : (submessage 1 (eventHeaderFields g o)).encode.length =
      6 + nameLengths g + headerWidths o := by
    rw [length_encode_submessage (by decide), length_eventHeaderFields,
      width_small (eventHeader_small g o)]
    omega
  unfold packetReceivedFields packetReceivedSize packetWidths
  simp only [encode_cons, encode_nil, List.length_append, List.length_nil, hHeader,
    length_encode_bytes (by decide : 9 < 16), length_encode_uint (by decide : 2 < 16),
    length_encode_uint (by decide : 3 < 16), length_encode_uint (by decide : 4 < 16),
    length_encode_uint (by decide : 5 < 16), length_encode_uint (by decide : 6 < 16),
    length_encode_uint (by decide : 7 < 16), length_encode_uint (by decide : 8 < 16),
    length_encode_uint (by decide : 11 < 16), length_encode_uint (by decide : 12 < 16)]
  omega

/-- The keys and lengths of the event in its message, and of this message in the generic one. -/
theorem length_receivedMessage : (receivedMessage g o p).length =
    2 + width (packetReceivedSize g o p) +
      width (1 + width (packetReceivedSize g o p) + packetReceivedSize g o p) +
      packetReceivedSize g o p := by
  have hWirepas : (encode [submessage 8 (packetReceivedFields g o p)]).length =
      1 + width (packetReceivedSize g o p) + packetReceivedSize g o p := by
    rw [encode_cons, encode_nil, List.append_nil, length_encode_submessage (by decide),
      length_packetReceivedFields]
  rw [receivedMessage, encode_cons, encode_nil, List.append_nil,
    length_encode_submessage (by decide), hWirepas]
  omega

/-- The message has at most the size of its buffer, so that a packet is not lost as long as there
is memory for it. -/
def FitsBuffer : Prop :=
  (receivedMessage g o p).length ≤ wpcProtoOffsetDataSize + p.bytes.length ∧
    (o.eventAllocated = true → o.bufferAllocated = true → g.rxEventCb = true →
      ((onDataReceived g o p).2.map RxEvent.encoded) = some (receivedMessage g o p))

/-- The two names, the widths of the values and those of the three lengths that vary take no more
than the constant less its 18 bytes for the keys and the other lengths. -/
def WidthsFit : Prop :=
  nameLengths g + headerWidths o + packetWidths g p + width p.bytes.length +
      width (packetReceivedSize g o p) +
      width (1 + width (packetReceivedSize g o p) + packetReceivedSize g o p) ≤
    wpcProtoOffsetDataSize - 18

theorem length_le_iff_widthsFit :
    (receivedMessage g o p).length ≤ wpcProtoOffsetDataSize + p.bytes.length ↔ WidthsFit g o p := by
  have hConstant : wpcProtoOffsetDataSize = 100 := rfl
  have hSize : packetReceivedSize g o p = 16 + nameLengths g + headerWidths o + packetWidths g p +
    width p.bytes.length + p.bytes.length := rfl
  rw [length_receivedMessage]
  unfold WidthsFit
  omega

theorem fitsBuffer_iff_widthsFit (h : p.bytes.length ≤ maxReceivedPayload) :
    FitsBuffer g o p ↔ WidthsFit g o p := by
  constructor
  · intro hFits
    exact (length_le_iff_widthsFit g o p).mp hFits.1
  · intro hWidths
    have hLength := (length_le_iff_widthsFit g o p).mpr hWidths
    refine ⟨hLength, ?_⟩
    intro hEvent hBuffer hCb
    rw [onDataReceived_eq g o p h hEvent hBuffer hCb, if_pos hLength]
    rfl

end Size

def letters (n : Nat) : List UInt8 := List.replicate n 0x61

def namedGateway (gatewayId sinkId : List UInt8) (networkAddress : UInt32) : Gateway where
  ids := commonInit gatewayId [] [] sinkId
  sinkConfig := { SinkConfig.zero with networkAddress := networkAddress }
  onProtoEventStatusCb := false
  statusEvents := []
  rxEventCb := true
  stackStatusCb := true
  scratchpadLoadCurrentSeq := invalidCurrentSeq
  restartAfterLoad := false

/-- The 20th of March 2024, with a random number that `RAND_MAX` allows. -/
def someOccasion : Occasion := ⟨true, true, 1710892800000, 0x6b8b4567, 0x327b23c6⟩

def somePacket (bytes : List UInt8) : Received :=
  ⟨bytes, 0x1234567, 0xffffffff, 0, 240, 255, 4096, 3, 1710892799000⟩

theorem fitsBuffer_iff_widthsFit_short : (somePacket [1, 2, 3]).bytes.length ≤ maxReceivedPayload ∧
    (FitsBuffer (namedGateway (letters 8) (letters 5) 0xabcdef) someOccasion (somePacket [1, 2, 3]) ↔
      WidthsFit (namedGateway (letters 8) (letters 5) 0xabcdef) someOccasion (somePacket [1, 2, 3])) :=
  ⟨by decide, fitsBuffer_iff_widthsFit _ _ _ (by decide)⟩

instance (g : Gateway) (o : Occasion) (p : Received) : Decidable (WidthsFit g o p) :=
  inferInstanceAs (Decidable (_ ≤ _))

theorem long_names_exceed_buffer : ¬ FitsBuffer
    (namedGateway (letters 31) (letters 15) 0xabcdef) someOccasion (somePacket [1, 2, 3]) := by
  intro h
  have hWidths := (length_le_iff_widthsFit _ _ _).mp h.1
  exact absurd hWidths (by decide)

end CMeshApi.Proto
