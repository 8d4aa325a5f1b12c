import CMeshApi.Foundations.Wire
import CMeshApi.Proto.Gateway

/-!
# Encoding the messages

What `pb_encode` writes of each structure, after its generated field list. It reads
the presence flags and the counts, and only what these make present; it fails for a
string without its terminating zero, for a count above the size of its array, and for
a message that is too long for its buffer.
-/

namespace CMeshApi.Proto

open Wire

/-- The fields that are written, or none where `pb_encode` fails. -/
abbrev Encoding := Option (List Field)

section Fields

def concat : List Encoding → Encoding
  | [] => some []
  | part :: parts => part.bind fun fields => (concat parts).map (fields ++ ·)

def optional (present : Bool) (part : Encoding) : Encoding := if present then part else some []

def uint32 (number : Nat) (v : UInt32) : Encoding := some [uint number v.toNat]

def uint64 (number : Nat) (v : UInt64) : Encoding := some [uint number v.toNat]

def bool (number : Nat) (v : Bool) : Encoding := some [uint number v.toNat]

/-- A signed enumeration, extended to 64 bits. -/
def enum (number : Nat) (v : UInt32) : Encoding :=
  some [uint number (if v.toNat < 2 ^ 31 then v.toNat else 2 ^ 64 - 2 ^ 32 + v.toNat)]

def message (number : Nat) (part : Encoding) : Encoding :=
  part.map fun fields => [submessage number fields]

def string {n : Nat} (number : Nat) (a : CArray UInt8 n) : Encoding :=
  if 0 ∈ List.ofFn a then some [bytes number (cString a)] else none

def byteArray {n : Nat} (number : Nat) (size : UInt16) (a : CArray UInt8 n) : Encoding :=
  if size.toNat ≤ n then some [bytes number ((List.ofFn a).take size.toNat)] else none

def repeatedEnum {n : Nat} (number : Nat) (count : UInt16) (values : CArray UInt32 n) : Encoding :=
  if count.toNat ≤ n then
    some (packed number (((List.ofFn values).take count.toNat).map UInt32.toNat))
  else none

def repeatedMessage {α : Type} {n : Nat} (number : Nat) (count : UInt16) (items : CArray α n)
    (fields : α → Encoding) : Encoding :=
  if count.toNat ≤ n then
    concat (((List.ofFn items).take count.toNat).map fun item => message number (fields item))
  else none

end Fields

namespace Raw

def ResponseHeader.fields (h : ResponseHeader) : Encoding :=
  concat [uint64 1 h.reqId, string 2 h.gwId, optional h.hasSinkId (string 3 h.sinkId), enum 4 h.res,
    optional h.hasTimeMsEpoch (uint64 5 h.timeMsEpoch)]

def EventHeader.fields (h : EventHeader) : Encoding :=
  concat [string 1 h.gwId, optional h.hasSinkId (string 2 h.sinkId), uint64 3 h.eventId,
    optional h.hasTimeMsEpoch (uint64 4 h.timeMsEpoch)]

def NodeRole.fields (r : NodeRole) : Encoding :=
  concat [uint32 1 r.role, repeatedEnum 2 r.flagsCount r.flags]

def ChannelRange.fields (r : ChannelRange) : Encoding :=
  concat [uint32 1 r.minChannel, uint32 2 r.maxChannel]

def AppConfigData.fields (c : AppConfigData) : Encoding :=
  concat [uint32 1 c.diagIntervalS, byteArray 2 c.appConfigDataSize c.appConfigDataBytes,
    uint32 3 c.seq]

def FirmwareVersion.fields (v : FirmwareVersion) : Encoding :=
  concat [uint32 1 v.major, uint32 2 v.minor, uint32 3 v.maint, uint32 4 v.dev]

def ScratchpadInfo.fields (i : ScratchpadInfo) : Encoding :=
  concat [uint32 1 i.len, uint32 2 i.crc, uint32 3 i.seq]

def TargetScratchpadAndAction.fields (t : TargetScratchpadAndAction) : Encoding :=
  concat [uint32 1 t.action, optional t.hasTargetSequence (uint32 2 t.targetSequence),
    optional t.hasTargetCrc (uint32 3 t.targetCrc), optional (t.whichParam == 4) (uint32 4 t.param),
    optional (t.whichParam == 5) (uint32 5 t.param)]

end Raw

def AccessCycleRange.fields (r : AccessCycleRange) : Encoding :=
  concat [uint32 1 r.minMs, uint32 2 r.maxMs]

namespace Raw

/-- The array of the configuration data has no elements. -/
def SinkReadConfig.fields (c : SinkReadConfig) : Encoding :=
  concat [string 1 c.sinkId,
    optional c.hasNodeRole (message 2 c.nodeRole.fields),
    optional c.hasNodeAddress (uint32 3 c.nodeAddress),
    optional c.hasNetworkAddress (uint64 4 c.networkAddress),
    optional c.hasNetworkChannel (uint32 5 c.networkChannel),
    optional c.hasAppConfig (message 6 c.appConfig.fields),
    optional c.hasChannelMap (uint32 7 c.channelMap),
    optional c.hasAreKeysSet (bool 8 c.areKeysSet),
    optional c.hasCurrentAcRange (message 9 c.currentAcRange.fields),
    optional c.hasAcLimits (message 10 c.acLimits.fields),
    optional c.hasMaxMtu (uint32 11 c.maxMtu),
    optional c.hasChannelLimits (message 12 c.channelLimits.fields),
    optional c.hasHwMagic (uint32 13 c.hwMagic),
    optional c.hasStackProfile (uint32 14 c.stackProfile),
    optional c.hasAppConfigMaxSize (uint32 15 c.appConfigMaxSize),
    optional c.hasFirmwareVersion (message 16 c.firmwareVersion.fields),
    optional c.hasSinkState (uint32 17 c.sinkState),
    optional c.hasStoredScratchpad (message 18 c.storedScratchpad.fields),
    optional c.hasStoredStatus (uint32 19 c.storedStatus),
    optional c.hasStoredType (uint32 20 c.storedType),
    optional c.hasProcessedScratchpad (message 21 c.processedScratchpad.fields),
    optional c.hasFirmwareAreaId (uint32 22 c.firmwareAreaId),
    optional c.hasTargetAndAction (message 23 c.targetAndAction.fields),
    if c.configurationDataContentCount = 0 then some [] else none]

def StatusEvent.fields (e : StatusEvent) : Encoding :=
  concat [message 1 e.header.fields, uint32 2 e.version, uint32 3 e.state,
    repeatedMessage 4 e.configsCount e.configs SinkReadConfig.fields,
    optional e.hasGwModel (string 5 e.gwModel), optional e.hasGwVersion (string 6 e.gwVersion),
    optional e.hasMaxScratchpadSize (uint32 7 e.maxScratchpadSize),
    repeatedEnum 8 e.gwFeaturesCount e.gwFeatures]

def GetConfigsResp.fields (r : GetConfigsResp) : Encoding :=
  concat [message 1 r.header.fields,
    repeatedMessage 2 r.configsCount r.configs SinkReadConfig.fields]

def SetConfigResp.fields (r : SetConfigResp) : Encoding :=
  concat [message 1 r.header.fields, message 2 r.config.fields]

def SendPacketResp.fields (r : SendPacketResp) : Encoding := concat [message 1 r.header.fields]

def GetScratchpadStatusResp.fields (r : GetScratchpadStatusResp) : Encoding :=
  concat [message 1 r.header.fields,
    optional r.hasStoredScratchpad (message 2 r.storedScratchpad.fields),
    optional r.hasStoredStatus (uint32 3 r.storedStatus),
    optional r.hasStoredType (uint32 4 r.storedType),
    optional r.hasProcessedScratchpad (message 5 r.processedScratchpad.fields),
    optional r.hasFirmwareAreaId (uint32 6 r.firmwareAreaId),
    optional r.hasTargetAndAction (message 7 r.targetAndAction.fields)]

def UploadScratchpadResp.fields (r : UploadScratchpadResp) : Encoding :=
  concat [message 1 r.header.fields]

def ProcessScratchpadResp.fields (r : ProcessScratchpadResp) : Encoding :=
  concat [message 1 r.header.fields]

def GatewayInfo.fields (i : GatewayInfo) : Encoding :=
  concat [uint64 1 i.currentTimeSEpoch, optional i.hasGwModel (string 2 i.gwModel),
    optional i.hasGwVersion (string 3 i.gwVersion),
    optional i.hasImplementedApiVersion (uint32 4 i.implementedApiVersion),
    optional i.hasMaxScratchpadSize (uint32 5 i.maxScratchpadSize),
    repeatedEnum 6 i.gwFeaturesCount i.gwFeatures]

def GetGwInfoResp.fields (r : GetGwInfoResp) : Encoding :=
  concat [message 1 r.header.fields, message 2 r.info.fields]

def SetScratchpadTargetAndActionResp.fields (r : SetScratchpadTargetAndActionResp) : Encoding :=
  concat [message 1 r.header.fields]

def PacketReceivedEvent.fields (e : PacketReceivedEvent) : Encoding :=
  concat [message 1 e.header.fields, uint32 2 e.sourceAddress, uint32 3 e.destinationAddress,
    uint32 4 e.sourceEndpoint, uint32 5 e.destinationEndpoint, uint32 6 e.travelTimeMs,
    uint64 7 e.rxTimeMsEpoch, uint32 8 e.qos,
    optional e.hasPayload (if e.payload.length ≤ 1500 then some [bytes 9 e.payload] else none),
    optional e.hasPayloadSize (uint32 10 e.payloadSize),
    optional e.hasHopCount (uint32 11 e.hopCount),
    optional e.hasNetworkAddress (uint64 12 e.networkAddress)]

end Raw

/-- The message of a `wp_GenericMessage` whose `wp_WirepasMessage` has this one as the field
`number`. -/
def genericMessage (number : Nat) (part : Encoding) : Encoding := message 1 (message number part)

def pbEncode (size : Nat) (part : Encoding) : Option (List UInt8) :=
  part.bind fun fields => if (encode fields).length ≤ size then some (encode fields) else none

theorem zero_mem_strncpy {n : Nat} (dest : CArray UInt8 n) (s : CString n) :
    0 ∈ List.ofFn (strncpy dest s.chars n) := by
  rw [List.mem_ofFn]
  refine ⟨⟨s.chars.length, s.fits⟩, ?_⟩
  rw [strncpy, if_pos s.fits, List.getD_eq_default _ _ (Nat.le_refl _)]

@[simp] theorem string_strncpy {n : Nat} (number : Nat) (dest : CArray UInt8 n) (s : CString n) :
    string number (strncpy dest s.chars n) = some [bytes number s.chars] := by
  rw [string, if_pos (zero_mem_strncpy dest s), cString_strncpy]

theorem zero_mem_strcpy {n : Nat} (dest : CArray UInt8 n) (s : CString n) :
    0 ∈ List.ofFn (strcpy dest s.chars) := by
  rw [List.mem_ofFn]
  refine ⟨⟨s.chars.length, s.fits⟩, ?_⟩
  rw [strcpy, List.getD_append_right _ _ _ _ (Nat.le_refl _), Nat.sub_self]
  rfl

@[simp] theorem string_strcpy {n : Nat} (number : Nat) (dest : CArray UInt8 n) (s : CString n) :
    string number (strcpy dest s.chars) = some [bytes number s.chars] := by
  rw [string, if_pos (zero_mem_strcpy dest s), cString_strcpy]

end CMeshApi.Proto
