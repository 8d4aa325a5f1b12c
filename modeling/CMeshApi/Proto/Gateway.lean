import CMeshApi.Proto.Messages
import CMeshApi.Wpc.Environment

/-!
# The gateway layer

The static variables of `common.c`, `proto_config.c`, `proto_otap.c` and
`proto_data.c`, and the functions of `common.c`.
-/

namespace CMeshApi.Proto

open Wpc

abbrev gatewayIdMaxSize : Nat := 32
abbrev gatewayModelMaxSize : Nat := 64
abbrev gatewayVersionMaxSize : Nat := 32
abbrev sinkIdMaxSize : Nat := 16

theorem sinkIdMaxSize_pos : 0 < sinkIdMaxSize := by decide

/-- `INVALID_CURRENT_SEQ`. -/
def invalidCurrentSeq : UInt32 := -1

/-- The static strings of `common.c`. -/
structure Ids where
  gatewayId : CString 32
  gatewayModel : CString 64
  gatewayVersion : CString 32
  sinkId : CString 16
deriving DecidableEq, Repr

def commonInit (gatewayId gatewayModel gatewayVersion sinkId : List UInt8) : Ids where
  gatewayId := .copied gatewayIdMaxSize (by decide) gatewayId
  gatewayModel := .copied gatewayModelMaxSize (by decide) gatewayModel
  gatewayVersion := .copied gatewayVersionMaxSize (by decide) gatewayVersion
  sinkId := .copied sinkIdMaxSize (by decide) sinkId

/-- `sink_config_t`, the cached configuration. -/
structure SinkConfig where
  nodeAddress : UInt32
  networkAddress : UInt32
  cipherKeySet : Bool
  authenticationKeySet : Bool
  stackProfile : UInt16
  hwMagic : UInt16
  acLimitMin : UInt16
  acLimitMax : UInt16
  appConfigMaxSize : UInt16
  version : CArray UInt16 4
  acRangeMinCur : UInt16
  acRangeMaxCur : UInt16
  maxMtu : UInt8
  chRangeMin : UInt8
  chRangeMax : UInt8
  pduBufferSize : UInt8
  stackStatus : UInt8
  networkChannel : UInt8
  appNodeRole : UInt8
  otapStatus : AppScratchpadStatus
  target : ScratchpadTarget

def SinkConfig.zero : SinkConfig where
  nodeAddress := 0
  networkAddress := 0
  cipherKeySet := false
  authenticationKeySet := false
  stackProfile := 0
  hwMagic := 0
  acLimitMin := 0
  acLimitMax := 0
  appConfigMaxSize := 0
  version := fun _ => 0
  acRangeMinCur := 0
  acRangeMaxCur := 0
  maxMtu := 0
  chRangeMin := 0
  chRangeMax := 0
  pduBufferSize := 0
  stackStatus := 0
  networkChannel := 0
  appNodeRole := 0
  otapStatus := ⟨0, 0, 0, 0, 0, 0, 0, 0, 0⟩
  target := ⟨0, 0, 0, 0⟩

/-- The static variables. Of a callback they tell if it is registered; the status events that
the callback was given are kept in `statusEvents`. -/
structure Gateway where
  ids : Ids
  sinkConfig : SinkConfig
  onProtoEventStatusCb : Bool
  statusEvents : List (List UInt8)
  rxEventCb : Bool
  stackStatusCb : Bool
  scratchpadLoadCurrentSeq : UInt32
  restartAfterLoad : Bool

def appErrorCodeLut : List ErrorCode :=
  [.ok, .invalidSinkState, .invalidSinkState, .invalidSinkState, .invalidParam, .invalidRole,
    .invalidSinkState, .invalidNetworkAddress, .invalidNetworkChannel, .invalidSinkState,
    .invalidRole, .invalidDestAddress, .invalidAppConfig, .internalError, .invalidParam,
    .invalidParam, .accessDenied, .invalidDataPayload, .invalidSinkState, .invalidScratchpad,
    .invalidRole, .sinkOutOfMemory, .invalidDiagInterval, .invalidSequenceNumber, .invalidParam,
    .invalidParam, .invalidScratchpad, .invalidRebootDelay, .internalError]

/-- The table has no entry for `APP_RES_OPERATION_NOT_SUPPORTED`, which no request answers. -/
def commonConvertErrorCode (error : AppRes) : ErrorCode :=
  (appErrorCodeLut[error.ctorIdx]?).getD .internalError

theorem commonConvertErrorCode_eq_ok {error : AppRes} :
    commonConvertErrorCode error = .ok ↔ error = .ok := by
  cases error <;> decide

/-- The sum of two random numbers in `event_id` is over 64 bits. -/
def commonFillEventHeader (ids : Ids) (timestampMsEpoch : UInt64) (rand rand' : UInt32)
    (hasSinkId : Bool) : Raw.EventHeader where
  gwId := strncpy (fun _ => 0) ids.gatewayId.chars gatewayIdMaxSize
  hasSinkId := !ids.sinkId.chars.isEmpty && hasSinkId
  sinkId :=
    if !ids.sinkId.chars.isEmpty && hasSinkId then
      strncpy (fun _ => 0) ids.sinkId.chars sinkIdMaxSize
    else fun _ => 0
  eventId := rand.toUInt64 + (rand'.toUInt64 <<< 32)
  hasTimeMsEpoch := true
  timeMsEpoch := timestampMsEpoch

def commonFillResponseHeader (ids : Ids) (timestampMsEpoch : UInt64) (reqId : UInt64)
    (res : ErrorCode) : Raw.ResponseHeader where
  reqId := reqId
  gwId := strncpy (fun _ => 0) ids.gatewayId.chars gatewayIdMaxSize
  hasSinkId := !ids.sinkId.chars.isEmpty
  sinkId := strncpy (fun _ => 0) ids.sinkId.chars sinkIdMaxSize
  res := res.value
  hasTimeMsEpoch := true
  timeMsEpoch := timestampMsEpoch

def zeroHeader : Raw.ResponseHeader := ⟨0, fun _ => 0, false, fun _ => 0, 0, false, 0⟩

/-- The static variables of an initialized library whose cache has come to `c`. -/
def Gateway.initialized (c : SinkConfig) : Gateway where
  ids := commonInit [0x67] [] [] [0x73]
  sinkConfig := c
  onProtoEventStatusCb := false
  statusEvents := []
  rxEventCb := false
  stackStatusCb := true
  scratchpadLoadCurrentSeq := invalidCurrentSeq
  restartAfterLoad := false

end CMeshApi.Proto
