import Mathlib.Data.List.GetD
import Mathlib.Data.List.TakeWhile

/-!
# The messages of the gateway

The structures that nanopb generates. A request is given as it was decoded, each
optional field with its presence and each enumeration by the number that was received.
A response is given as it lies in memory, with its presence flags, counts and arrays,
whatever they contain.
-/

namespace CMeshApi.Proto

abbrev CArray (α : Type) (n : Nat) := Fin n → α

/-- A string that fits with its terminating zero into an array of `size` characters. -/
structure CString (size : Nat) where
  chars : List UInt8
  ended : 0 ∉ chars
  fits : chars.length < size
deriving DecidableEq, Repr

/-- The string up to the first zero. -/
def cString {n : Nat} (a : CArray UInt8 n) : List UInt8 := (List.ofFn a).takeWhile (· ≠ 0)

def strncpy {n : Nat} (dest : CArray UInt8 n) (source : List UInt8) (count : Nat) : CArray UInt8 n :=
  fun i => if i < count then source.getD i 0 else dest i

def strcpy {n : Nat} (dest : CArray UInt8 n) (source : List UInt8) : CArray UInt8 n :=
  fun i => (source ++ [0]).getD i (dest i)

/-- `strncpy` with the last byte set to zero. -/
def CString.copied (size : Nat) (h : 0 < size) (source : List UInt8) : CString size where
  chars := (source.takeWhile (· ≠ 0)).take (size - 1)
  ended := by
    intro hMem
    have hNonzero := List.mem_takeWhile_imp (List.mem_of_mem_take hMem)
    exact absurd rfl (of_decide_eq_true hNonzero)
  fits := by
    have hLength := List.length_take_le (size - 1) (source.takeWhile (· ≠ 0))
    omega

theorem cString_of_prefix {n : Nat} {a : CArray UInt8 n} (s : CString n)
    (hChars : ∀ i : Fin n, (h : i.val < s.chars.length) → a i = s.chars[i.val])
    (hEnd : ∀ i : Fin n, i.val = s.chars.length → a i = 0) : cString a = s.chars := by
  have hSplit : List.ofFn a = s.chars ++ 0 :: (List.ofFn a).drop (s.chars.length + 1) := by
    apply List.ext_getElem
    · have hFits := s.fits
      simp only [List.length_ofFn, List.length_append, List.length_cons, List.length_drop]
      omega
    · intro i hi hi'
      rw [List.length_ofFn] at hi
      rw [List.getElem_ofFn]
      rcases Nat.lt_trichotomy i s.chars.length with h | h | h
      · rw [List.getElem_append_left h]
        exact hChars ⟨i, hi⟩ h
      · rw [hEnd ⟨i, hi⟩ h, List.getElem_append_right (by omega)]
        simp only [h, Nat.sub_self, List.getElem_cons_zero]
      · rw [List.getElem_append_right (by omega)]
        obtain ⟨k, hk⟩ : ∃ k, i - s.chars.length = k + 1 := ⟨i - s.chars.length - 1, by omega⟩
        simp only [hk, List.getElem_cons_succ, List.getElem_drop, List.getElem_ofFn]
        exact congrArg a (Fin.ext (show i = s.chars.length + 1 + k by omega))
  have hNonzero : ∀ c ∈ s.chars, decide (c ≠ 0) = true := by
    intro c hc
    exact decide_eq_true fun hZero => s.ended (hZero ▸ hc)
  rw [cString, hSplit, List.takeWhile_append_of_pos hNonzero, List.takeWhile_cons_of_neg (by simp),
    List.append_nil]

@[simp] theorem cString_strncpy {n : Nat} (dest : CArray UInt8 n) (s : CString n) :
    cString (strncpy dest s.chars n) = s.chars := by
  apply cString_of_prefix s
  · intro i h
    rw [strncpy, if_pos i.isLt, List.getD_eq_getElem _ _ h]
  · intro i h
    rw [strncpy, if_pos i.isLt, List.getD_eq_default _ _ (by omega)]

@[simp] theorem cString_strcpy {n : Nat} (dest : CArray UInt8 n) (s : CString n) :
    cString (strcpy dest s.chars) = s.chars := by
  apply cString_of_prefix s
  · intro i h
    rw [strcpy, List.getD_append _ _ _ _ h, List.getD_eq_getElem _ _ h]
  · intro i h
    rw [strcpy, List.getD_append_right _ _ _ _ (by omega)]
    simp only [h, Nat.sub_self, List.getD_cons_zero]

inductive ErrorCode where
  | unknownErrorCode
  | ok
  | internalError
  | invalidSinkId
  | invalidRole
  | invalidNetworkAddress
  | invalidNetworkChannel
  | invalidChannelMap
  | invalidNetworkKeys
  | invalidAcRange
  | invalidSinkState
  | invalidDestAddress
  | invalidDestEndpoint
  | invalidSrcEndpoint
  | invalidQos
  | invalidDataPayload
  | invalidScratchpad
  | invalidScratchpadSize
  | invalidSequenceNumber
  | invalidRebootDelay
  | invalidDiagInterval
  | invalidAppConfig
  | invalidParam
  | noScratchpadPresent
  | accessDenied
  | requestNeedsSinkId
  | invalidMaxHopCount
  | sinkOutOfMemory
  | sinkTimeout
  | invalidScratchpadChunkOffset
  | invalidScratchpadChunkSize
deriving DecidableEq, Repr

def ErrorCode.value (e : ErrorCode) : UInt32 := .ofNat e.ctorIdx - 1

theorem ErrorCode.value_injective {e e' : ErrorCode} (h : e.value = e'.value) : e = e' := by
  cases e <;> cases e' <;> first | rfl | exact absurd h (by decide)

inductive OnOffState where
  | on
  | off
deriving DecidableEq, Repr

def OnOffState.value (s : OnOffState) : UInt32 := .ofNat (s.ctorIdx + 1)

inductive RoleFlags where
  | lowLatency
  | autorole
deriving DecidableEq, Repr

def RoleFlags.value (f : RoleFlags) : UInt32 := .ofNat (f.ctorIdx + 1)

inductive ScratchpadType where
  | blank
  | present
  | process
deriving DecidableEq, Repr

def ScratchpadType.value (t : ScratchpadType) : UInt32 := .ofNat (t.ctorIdx + 1)

inductive ScratchpadStatus where
  | success
  | new
  | error
deriving DecidableEq, Repr

def ScratchpadStatus.value (s : ScratchpadStatus) : UInt32 := .ofNat (s.ctorIdx + 1)

inductive ScratchpadAction where
  | unknownAction
  | noOtap
  | propagateOnly
  | propagateAndProcess
  | propagateAndProcessWithDelay
  | legacyOtap
deriving DecidableEq, Repr

def ScratchpadAction.value (a : ScratchpadAction) : UInt32 := .ofNat a.ctorIdx

inductive ProcessingDelay where
  | unknownDelay
  | tenMinutes
  | thirtyMinutes
  | oneHour
  | sixHours
  | oneDay
  | twoDays
  | fiveDays
deriving DecidableEq, Repr

def ProcessingDelay.value (d : ProcessingDelay) : UInt32 := .ofNat d.ctorIdx

structure RequestHeader where
  reqId : UInt64
deriving DecidableEq, Repr

structure NodeRole where
  role : UInt32
  flags : List UInt32
deriving DecidableEq, Repr

structure AccessCycleRange where
  minMs : UInt32
  maxMs : UInt32
deriving DecidableEq, Repr

structure AppConfigData where
  diagIntervalS : UInt32
  appConfigData : List UInt8
  seq : UInt32
deriving DecidableEq, Repr

structure NetworkKeys where
  cipher : List UInt8
  authentication : List UInt8
deriving DecidableEq, Repr

structure SinkNewConfig where
  sinkId : CString 16
  nodeRole : Option NodeRole
  nodeAddress : Option UInt32
  networkAddress : Option UInt64
  networkChannel : Option UInt32
  appConfig : Option AppConfigData
  keys : Option NetworkKeys
  currentAcRange : Option AccessCycleRange
  sinkState : Option UInt32
deriving DecidableEq, Repr

structure GetConfigsReq where
  header : RequestHeader
deriving DecidableEq, Repr

structure SetConfigReq where
  header : RequestHeader
  config : SinkNewConfig
deriving DecidableEq, Repr

structure SendPacketReq where
  header : RequestHeader
  destinationAddress : UInt32
  sourceEndpoint : UInt32
  destinationEndpoint : UInt32
  qos : UInt32
  payload : List UInt8
deriving DecidableEq, Repr

structure GetScratchpadStatusReq where
  header : RequestHeader
deriving DecidableEq, Repr

structure ChunkInfo where
  scratchpadTotalSize : UInt32
  startOffset : UInt32
deriving DecidableEq, Repr

structure UploadScratchpadReq where
  header : RequestHeader
  seq : UInt32
  scratchpad : Option (List UInt8)
  chunkInfo : Option ChunkInfo
deriving DecidableEq, Repr

structure ProcessScratchpadReq where
  header : RequestHeader
deriving DecidableEq, Repr

structure GetGwInfoReq where
  header : RequestHeader
deriving DecidableEq, Repr

/-- The member of the union that `which_param` tells. -/
inductive TargetParam where
  | none
  | delay (delay : UInt32)
  | raw (raw : UInt32)
deriving DecidableEq, Repr

structure TargetScratchpadAndAction where
  action : UInt32
  targetSequence : Option UInt32
  targetCrc : Option UInt32
  param : TargetParam
deriving DecidableEq, Repr

structure SetScratchpadTargetAndActionReq where
  header : RequestHeader
  targetAndAction : TargetScratchpadAndAction
deriving DecidableEq, Repr

namespace Raw

structure ResponseHeader where
  reqId : UInt64
  gwId : CArray UInt8 32
  hasSinkId : Bool
  sinkId : CArray UInt8 16
  res : UInt32
  hasTimeMsEpoch : Bool
  timeMsEpoch : UInt64

structure EventHeader where
  gwId : CArray UInt8 32
  hasSinkId : Bool
  sinkId : CArray UInt8 16
  eventId : UInt64
  hasTimeMsEpoch : Bool
  timeMsEpoch : UInt64

structure NodeRole where
  role : UInt32
  flagsCount : UInt16
  flags : CArray UInt32 2

structure ChannelRange where
  minChannel : UInt32
  maxChannel : UInt32

structure AppConfigData where
  diagIntervalS : UInt32
  appConfigDataSize : UInt16
  appConfigDataBytes : CArray UInt8 80
  seq : UInt32

structure FirmwareVersion where
  major : UInt32
  minor : UInt32
  maint : UInt32
  dev : UInt32

structure ScratchpadInfo where
  len : UInt32
  crc : UInt32
  seq : UInt32

/-- The members of the union share their memory. -/
structure TargetScratchpadAndAction where
  action : UInt32
  hasTargetSequence : Bool
  targetSequence : UInt32
  hasTargetCrc : Bool
  targetCrc : UInt32
  whichParam : UInt16
  param : UInt32

structure SinkReadConfig where
  sinkId : CArray UInt8 16
  hasNodeRole : Bool
  nodeRole : NodeRole
  hasNodeAddress : Bool
  nodeAddress : UInt32
  hasNetworkAddress : Bool
  networkAddress : UInt64
  hasNetworkChannel : Bool
  networkChannel : UInt32
  hasAppConfig : Bool
  appConfig : AppConfigData
  hasChannelMap : Bool
  channelMap : UInt32
  hasAreKeysSet : Bool
  areKeysSet : Bool
  hasCurrentAcRange : Bool
  currentAcRange : AccessCycleRange
  hasAcLimits : Bool
  acLimits : AccessCycleRange
  hasMaxMtu : Bool
  maxMtu : UInt32
  hasChannelLimits : Bool
  channelLimits : ChannelRange
  hasHwMagic : Bool
  hwMagic : UInt32
  hasStackProfile : Bool
  stackProfile : UInt32
  hasAppConfigMaxSize : Bool
  appConfigMaxSize : UInt32
  hasFirmwareVersion : Bool
  firmwareVersion : FirmwareVersion
  hasSinkState : Bool
  sinkState : UInt32
  hasStoredScratchpad : Bool
  storedScratchpad : ScratchpadInfo
  hasStoredStatus : Bool
  storedStatus : UInt32
  hasStoredType : Bool
  storedType : UInt32
  hasProcessedScratchpad : Bool
  processedScratchpad : ScratchpadInfo
  hasFirmwareAreaId : Bool
  firmwareAreaId : UInt32
  hasTargetAndAction : Bool
  targetAndAction : TargetScratchpadAndAction
  configurationDataContentCount : UInt16

structure StatusEvent where
  header : EventHeader
  version : UInt32
  state : UInt32
  configsCount : UInt16
  configs : CArray SinkReadConfig 1
  hasGwModel : Bool
  gwModel : CArray UInt8 64
  hasGwVersion : Bool
  gwVersion : CArray UInt8 32
  hasMaxScratchpadSize : Bool
  maxScratchpadSize : UInt32
  gwFeaturesCount : UInt16
  gwFeatures : CArray UInt32 2

structure GetConfigsResp where
  header : ResponseHeader
  configsCount : UInt16
  configs : CArray SinkReadConfig 1

structure SetConfigResp where
  header : ResponseHeader
  config : SinkReadConfig

structure SendPacketResp where
  header : ResponseHeader

structure GetScratchpadStatusResp where
  header : ResponseHeader
  hasStoredScratchpad : Bool
  storedScratchpad : ScratchpadInfo
  hasStoredStatus : Bool
  storedStatus : UInt32
  hasStoredType : Bool
  storedType : UInt32
  hasProcessedScratchpad : Bool
  processedScratchpad : ScratchpadInfo
  hasFirmwareAreaId : Bool
  firmwareAreaId : UInt32
  hasTargetAndAction : Bool
  targetAndAction : TargetScratchpadAndAction

structure UploadScratchpadResp where
  header : ResponseHeader

structure ProcessScratchpadResp where
  header : ResponseHeader

structure GatewayInfo where
  currentTimeSEpoch : UInt64
  hasGwModel : Bool
  gwModel : CArray UInt8 64
  hasGwVersion : Bool
  gwVersion : CArray UInt8 32
  hasImplementedApiVersion : Bool
  implementedApiVersion : UInt32
  hasMaxScratchpadSize : Bool
  maxScratchpadSize : UInt32
  gwFeaturesCount : UInt16
  gwFeatures : CArray UInt32 2

structure GetGwInfoResp where
  header : ResponseHeader
  info : GatewayInfo

structure SetScratchpadTargetAndActionResp where
  header : ResponseHeader

structure PacketReceivedEvent where
  header : EventHeader
  sourceAddress : UInt32
  destinationAddress : UInt32
  sourceEndpoint : UInt32
  destinationEndpoint : UInt32
  travelTimeMs : UInt32
  rxTimeMsEpoch : UInt64
  qos : UInt32
  hasPayload : Bool
  payload : List UInt8
  hasPayloadSize : Bool
  payloadSize : UInt32
  hasHopCount : Bool
  hopCount : UInt32
  hasNetworkAddress : Bool
  networkAddress : UInt64

end Raw

end CMeshApi.Proto
