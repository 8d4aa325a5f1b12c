import CMeshApi.Proto.Encoding
import CMeshApi.Wpc.Management

/-!
# The configuration of the sink

`proto_config.c`: the configuration is cached, read from the node when the stack
starts or the cache is refreshed, and written by the requests, each field only if it
differs from its cached value.
-/

namespace CMeshApi.Proto

open Programs Wpc

/-- `app_proto_res_e`. -/
inductive AppProtoRes where
  | ok
  | wpcNotInitialized
  | alreadyRegistered
  | invalidRequest
  | cannotGenerateResponse
  | responseBufferTooSmall
  | notEnoughMemory
  | notImplemented
  | wrongParameter
deriving DecidableEq, Repr

def gwProtoMessageVersion : UInt32 := 1
def gwProtoApiVersion : UInt32 := 2
def wpcProtoMaxEventStatusSize : Nat := 540

/-- `member_size(wp_UploadScratchpadReq_scratchpad_t, bytes)`. -/
def maxScratchpadSize : UInt32 := 1024

def ignoreStatus : UInt8 := 0xff
def appStackStopped : UInt8 := 1

def appRoleMask : UInt32 := 0xf
def appRoleOptionMask : UInt8 := 0xf0
def appRoleOptionLl : UInt8 := 0x10
def appRoleOptionAutorole : UInt8 := 0x80

/-- The flags are visited from the last on, which makes no difference to their union. -/
def convertRoleToAppFormat (role : NodeRole) : UInt8 :=
  let options := role.flags.foldr (fun flag options =>
    options ||| (if flag = RoleFlags.lowLatency.value then appRoleOptionLl else 0) |||
      (if flag = RoleFlags.autorole.value then appRoleOptionAutorole else 0)) 0
  (role.role &&& appRoleMask).toUInt8 ||| (options &&& appRoleOptionMask)

def Raw.NodeRole.add (r : Raw.NodeRole) (flag : RoleFlags) : Raw.NodeRole where
  role := r.role
  flagsCount := r.flagsCount + 1
  flags := fun i => if i.val = r.flagsCount.toNat then flag.value else r.flags i

def convertRoleToProtoFormat (role : UInt8) : Raw.NodeRole :=
  let base : Raw.NodeRole := ⟨role.toUInt32 &&& appRoleMask, 0, fun _ => 0⟩
  let withLl := if role &&& appRoleOptionLl ≠ 0 then base.add .lowLatency else base
  if role &&& appRoleOptionAutorole ≠ 0 then withLl.add .autorole else withLl

def convertScratTypeToProtoFormat (scratType : UInt8) : ScratchpadType :=
  if scratType = 1 then .present else if scratType = 2 then .process else .blank

def convertScratStatusToProtoFormat (scratStatus : UInt8) : ScratchpadStatus :=
  if scratStatus = 0 then .success else if scratStatus = 255 then .new else .error

/-- `GET_DELAY` of the units minute, hour and day. -/
def getDelay (unit amount : UInt8) : UInt8 := (unit <<< 6) + amount

/-- The delays that have a name, with their values on the node. -/
def namedDelays : List (ProcessingDelay × UInt8) :=
  [(.tenMinutes, getDelay 1 10), (.thirtyMinutes, getDelay 1 30), (.oneHour, getDelay 2 1),
    (.sixHours, getDelay 2 6), (.oneDay, getDelay 3 1), (.twoDays, getDelay 3 2),
    (.fiveDays, getDelay 3 5)]

def convertDelayToProtoFormat (delay : UInt8) : ProcessingDelay :=
  ((namedDelays.find? fun named => named.2 = delay).map Prod.fst).getD .unknownDelay

def convertDelayToAppFormat (delay : UInt32) : UInt8 :=
  ((namedDelays.find? fun named => named.1.value = delay).map Prod.snd).getD 0

section Handlers

variable {ν : Type} (env : Environment ν)

def gateway : Call Gateway ν Gateway := .read World.gateway

def changeConfig (f : SinkConfig → SinkConfig) : Call Gateway ν Unit :=
  .change fun w => { w with gateway.sinkConfig := f w.gateway.sinkConfig }

/-- What is read is stored; the cache keeps its value when the read fails. -/
def getValueFromNode {α : Type} (read : Call Gateway ν (Except AppRes α))
    (store : α → SinkConfig → SinkConfig) : Call Gateway ν Bool := do
  match ← read with
  | .ok value =>
    changeConfig (store value)
    return true
  | .error _ => return false

def initializeOtapVariables : Call Gateway ν Bool := do
  let status ← getValueFromNode (wpcGetLocalScratchpadStatus env) fun v c => { c with otapStatus := v }
  let target ← getValueFromNode (wpcReadTargetScratchpad env) fun v c => { c with target := v }
  return status && target

/-- Also when one read fails the others follow. -/
def readAll : List (Call Gateway ν Bool) → Call Gateway ν Bool
  | [] => return true
  | read :: reads => do
    let res ← read
    let rest ← readAll reads
    return res && rest

/-- The versions that were read before a failure stay. -/
def getFirmwareVersion : Call Gateway ν Bool := do
  let (res, version) ← wpcGetFirmwareVersion env
  changeConfig fun c => { c with version := fun i => version.getD i (c.version i) }
  return res == .ok

/-- The size of the app config is read into the low byte of a variable of two. -/
def configReads : List (Call Gateway ν Bool) :=
  [getValueFromNode (wpcGetStackProfile env) fun v c => { c with stackProfile := v },
    getValueFromNode (wpcGetHwMagic env) fun v c => { c with hwMagic := v },
    getValueFromNode (wpcGetMtu env) fun v c => { c with maxMtu := v },
    getValueFromNode (wpcGetPduBufferSize env) fun v c => { c with pduBufferSize := v },
    getValueFromNode (wpcGetChannelLimits env) fun v c =>
      { c with chRangeMin := v.1, chRangeMax := v.2 },
    getValueFromNode (wpcGetAccessCycleLimits env) fun v c =>
      { c with acLimitMin := v.1, acLimitMax := v.2 },
    getValueFromNode (wpcGetAppConfigDataSize env) fun v c =>
      { c with appConfigMaxSize := (c.appConfigMaxSize &&& 0xff00) ||| v.toUInt16 },
    getValueFromNode (wpcIsCipherKeySet env) fun v c => { c with cipherKeySet := v },
    getValueFromNode (wpcIsAuthenticationKeySet env) fun v c => { c with authenticationKeySet := v },
    getValueFromNode (wpcGetStackStatus env) fun v c => { c with stackStatus := v },
    getValueFromNode (wpcGetAccessCycleRange env) fun v c =>
      { c with acRangeMinCur := v.1, acRangeMaxCur := v.2 },
    getValueFromNode (wpcGetNodeAddress env) fun v c => { c with nodeAddress := v },
    getValueFromNode (wpcGetRole env) fun v c => { c with appNodeRole := v },
    getValueFromNode (wpcGetNetworkAddress env) fun v c => { c with networkAddress := v },
    getValueFromNode (wpcGetNetworkChannel env) fun v c => { c with networkChannel := v },
    getFirmwareVersion env]

def initializeConfigVariables : Call Gateway ν Bool := readAll (configReads env)

def refreshFullStackState : Call Gateway ν Bool := do
  let config ← initializeConfigVariables env
  let otap ← initializeOtapVariables env
  return config && otap

def fillTargetAndAction (c : SinkConfig) : Raw.TargetScratchpadAndAction :=
  let delay := convertDelayToProtoFormat c.target.param
  let withDelay := c.target.action = 3
  { action := c.target.action.toUInt32 + ScratchpadAction.noOtap.value
    hasTargetSequence := true
    targetSequence := c.target.sequence.toUInt32
    hasTargetCrc := true
    targetCrc := c.target.crc.toUInt32
    whichParam := if withDelay then (if delay ≠ .unknownDelay then 4 else 5) else 0
    param :=
      if withDelay then (if delay ≠ .unknownDelay then delay.value else c.target.param.toUInt32)
      else 0 }

def storedScratchpad (s : AppScratchpadStatus) : Raw.ScratchpadInfo :=
  ⟨s.scratLen, s.scratCrc.toUInt32, s.scratSeqNumber.toUInt32⟩

def processedScratchpad (s : AppScratchpadStatus) : Raw.ScratchpadInfo :=
  ⟨s.processedScratLen, s.processedScratCrc.toUInt32, s.processedScratSeqNumber.toUInt32⟩

/-- `fill_sink_read_config` up to the app config. -/
def cachedSinkReadConfig (ids : Ids) (c : SinkConfig) : Raw.SinkReadConfig where
  sinkId := strncpy (fun _ => 0) ids.sinkId.chars sinkIdMaxSize
  hasNodeRole := true
  nodeRole := convertRoleToProtoFormat c.appNodeRole
  hasNodeAddress := true
  nodeAddress := c.nodeAddress
  hasNetworkAddress := true
  networkAddress := c.networkAddress.toUInt64
  hasNetworkChannel := true
  networkChannel := c.networkChannel.toUInt32
  hasAppConfig := true
  appConfig := ⟨0, 0, fun _ => 0, 0⟩
  hasChannelMap := false
  channelMap := 0
  hasAreKeysSet := true
  areKeysSet := c.cipherKeySet && c.authenticationKeySet
  hasCurrentAcRange := c.acRangeMinCur ≠ 0
  currentAcRange := ⟨c.acRangeMinCur.toUInt32, c.acRangeMaxCur.toUInt32⟩
  hasAcLimits := true
  acLimits := ⟨c.acLimitMin.toUInt32, c.acLimitMax.toUInt32⟩
  hasMaxMtu := true
  maxMtu := c.maxMtu.toUInt32
  hasChannelLimits := true
  channelLimits := ⟨c.chRangeMin.toUInt32, c.chRangeMax.toUInt32⟩
  hasHwMagic := true
  hwMagic := c.hwMagic.toUInt32
  hasStackProfile := true
  stackProfile := c.stackProfile.toUInt32
  hasAppConfigMaxSize := true
  appConfigMaxSize := c.appConfigMaxSize.toUInt32
  hasFirmwareVersion := true
  firmwareVersion := ⟨(c.version 0).toUInt32, (c.version 1).toUInt32, (c.version 2).toUInt32,
    (c.version 3).toUInt32⟩
  hasSinkState := true
  sinkState := (if c.stackStatus &&& appStackStopped ≠ 0 then OnOffState.off else .on).value
  hasStoredScratchpad := true
  storedScratchpad := storedScratchpad c.otapStatus
  hasStoredStatus := true
  storedStatus := (convertScratStatusToProtoFormat c.otapStatus.scratStatus).value
  hasStoredType := true
  storedType := (convertScratTypeToProtoFormat c.otapStatus.scratType).value
  hasProcessedScratchpad := true
  processedScratchpad := processedScratchpad c.otapStatus
  hasFirmwareAreaId := true
  firmwareAreaId := c.otapStatus.firmwareMemoryAreaId
  hasTargetAndAction := true
  targetAndAction := fillTargetAndAction c
  configurationDataContentCount := 0

/-- Only an app config that fits into the response is read. -/
def fillSinkReadConfig : Call Gateway ν Raw.SinkReadConfig := do
  let g ← gateway
  let config := cachedSinkReadConfig g.ids g.sinkConfig
  if g.sinkConfig.appConfigMaxSize.toNat ≤ maximumAppConfigSize then
    match ← wpcGetAppConfigData env maximumAppConfigSize with
    | .ok conf =>
      return { config with
        appConfig := ⟨conf.diagDataInterval.toUInt32, g.sinkConfig.appConfigMaxSize,
          fun i => conf.appConfigData.getD i 0, conf.sequenceNumber.toUInt32⟩ }
    | .error _ => return { config with hasAppConfig := false }
  else return config

def zeroSinkReadConfig : Raw.SinkReadConfig where
  sinkId := fun _ => 0
  hasNodeRole := false
  nodeRole := ⟨0, 0, fun _ => 0⟩
  hasNodeAddress := false
  nodeAddress := 0
  hasNetworkAddress := false
  networkAddress := 0
  hasNetworkChannel := false
  networkChannel := 0
  hasAppConfig := false
  appConfig := ⟨0, 0, fun _ => 0, 0⟩
  hasChannelMap := false
  channelMap := 0
  hasAreKeysSet := false
  areKeysSet := false
  hasCurrentAcRange := false
  currentAcRange := ⟨0, 0⟩
  hasAcLimits := false
  acLimits := ⟨0, 0⟩
  hasMaxMtu := false
  maxMtu := 0
  hasChannelLimits := false
  channelLimits := ⟨0, 0⟩
  hasHwMagic := false
  hwMagic := 0
  hasStackProfile := false
  stackProfile := 0
  hasAppConfigMaxSize := false
  appConfigMaxSize := 0
  hasFirmwareVersion := false
  firmwareVersion := ⟨0, 0, 0, 0⟩
  hasSinkState := false
  sinkState := 0
  hasStoredScratchpad := false
  storedScratchpad := ⟨0, 0, 0⟩
  hasStoredStatus := false
  storedStatus := 0
  hasStoredType := false
  storedType := 0
  hasProcessedScratchpad := false
  processedScratchpad := ⟨0, 0, 0⟩
  hasFirmwareAreaId := false
  firmwareAreaId := 0
  hasTargetAndAction := false
  targetAndAction := ⟨0, false, 0, false, 0, 0, 0⟩
  configurationDataContentCount := 0

def fillStatusEvent (state : OnOffState) (configCount : UInt16) :
    Call Gateway ν Raw.StatusEvent := do
  let config ← (if configCount = 1 then fillSinkReadConfig env else pure zeroSinkReadConfig)
  let g ← gateway
  let now ← ask env.timestampMsEpoch
  let rand ← ask env.rand
  let rand' ← ask env.rand
  return {
    header := commonFillEventHeader g.ids (.ofNat now) rand rand' false
    version := gwProtoMessageVersion
    state := state.value
    configsCount := configCount
    configs := fun _ => config
    hasGwModel := !g.ids.gatewayModel.chars.isEmpty
    gwModel := strncpy (fun _ => 0) g.ids.gatewayModel.chars gatewayModelMaxSize
    hasGwVersion := !g.ids.gatewayVersion.chars.isEmpty
    gwVersion := strncpy (fun _ => 0) g.ids.gatewayVersion.chars gatewayVersionMaxSize
    hasMaxScratchpadSize := true
    maxScratchpadSize := maxScratchpadSize
    gwFeaturesCount := 0
    gwFeatures := fun _ => 0 }

def reportEvent (event : Raw.StatusEvent) : Call Gateway ν Unit :=
  .change fun w =>
    match pbEncode wpcProtoMaxEventStatusSize (genericMessage 1 event.fields) with
    | none => w
    | some encoded =>
      if w.gateway.onProtoEventStatusCb then
        { w with gateway.statusEvents := w.gateway.statusEvents ++ [encoded] }
      else w

/-- The event is left out if there is no memory for it. -/
def sendStatusEvent : Call Gateway ν Unit := do
  if ← ask env.malloc then
    if ← ask env.malloc then
      let event ← fillStatusEvent env .on 1
      reportEvent event
    else return ()
  else return ()

/-- The status is only logged: all is read again from the node. -/
def onStackStatusReceived (_status : UInt8) : Call Gateway ν Unit := do
  let _ ← refreshFullStackState env
  sendStatusEvent env

def protoConfigRefreshOtapInfos : Call Gateway ν Unit := onStackStatusReceived env ignoreStatus

/-- A failed refresh does not end it, a callback that is registered already does. -/
def protoConfigInit : Call Gateway ν Bool := do
  let _ ← refreshFullStackState env
  let g ← gateway
  if g.stackStatusCb then return false
  else do
    .change fun w => { w with gateway.stackStatusCb := true }
    return true

/-- `WPC_start_stack` with the callback that is registered for the stack status. -/
def startStack : Call Gateway ν AppRes := do
  let g ← gateway
  wpcStartStack env (if g.stackStatusCb then some (onStackStatusReceived env) else none)

def fillResponseHeader (req : RequestHeader) (res : ErrorCode) : Call Gateway ν Raw.ResponseHeader := do
  let now ← ask env.timestampMsEpoch
  let g ← gateway
  return commonFillResponseHeader g.ids (.ofNat now) req.reqId res

theorem returns_fillResponseHeader {req : RequestHeader} {res : ErrorCode} {header : Raw.ResponseHeader}
    {w t : World Gateway ν} (h : Returns (fillResponseHeader env req res) w header t) :
    header.res = res.value ∧ t = { w with node := (env.timestampMsEpoch w.node).2 } := by
  obtain ⟨now, u, hNow, hFill⟩ := returns_bind.mp h
  obtain ⟨-, rfl⟩ := returns_ask.mp hNow
  obtain ⟨g, v, hRead, hPure⟩ := returns_bind.mp hFill
  obtain ⟨-, rfl⟩ := returns_read.mp hRead
  obtain ⟨rfl, rfl⟩ := returns_pure.mp hPure
  exact ⟨rfl, rfl⟩

theorem ok_of_responseHeader {req : RequestHeader} {res : AppRes} {header : Raw.ResponseHeader}
    {w t : World Gateway ν}
    (h : Returns (fillResponseHeader env req (commonConvertErrorCode res)) w header t)
    (hOk : header.res = ErrorCode.ok.value) : res = .ok := by
  rw [(returns_fillResponseHeader env h).1] at hOk
  exact commonConvertErrorCode_eq_ok.mp (ErrorCode.value_injective hOk)

def protoConfigHandleGetScratchpadStatus (req : GetScratchpadStatusReq)
    (_resp : Raw.GetScratchpadStatusResp) :
    Call Gateway ν (AppProtoRes × Raw.GetScratchpadStatusResp) := do
  let g ← gateway
  let s := g.sinkConfig.otapStatus
  let header ← fillResponseHeader env req.header (commonConvertErrorCode .ok)
  return (.ok, {
    header := header
    hasStoredScratchpad := true
    storedScratchpad := storedScratchpad s
    hasStoredStatus := true
    storedStatus := (convertScratStatusToProtoFormat s.scratStatus).value
    hasStoredType := true
    storedType := (convertScratTypeToProtoFormat s.scratType).value
    hasProcessedScratchpad := true
    processedScratchpad := processedScratchpad s
    hasFirmwareAreaId := true
    firmwareAreaId := s.firmwareMemoryAreaId
    hasTargetAndAction := true
    targetAndAction := fillTargetAndAction g.sinkConfig })

def protoConfigHandleGetConfigs (req : GetConfigsReq) (resp : Raw.GetConfigsResp) :
    Call Gateway ν (AppProtoRes × Raw.GetConfigsResp) := do
  let _ ← getValueFromNode (wpcGetStackStatus env) fun v c => { c with stackStatus := v }
  let header ← fillResponseHeader env req.header .ok
  let config ← fillSinkReadConfig env
  return (.ok, { resp with header := header, configsCount := 1, configs := fun _ => config })

/-- Each field is stored on its own, and a string only up to its terminating zero. -/
def protoConfigHandleGetGatewayInfoRequest (req : GetGwInfoReq) (resp : Raw.GetGwInfoResp) :
    Call Gateway ν (AppProtoRes × Raw.GetGwInfoResp) := do
  let header ← fillResponseHeader env req.header .ok
  let now ← ask env.timestampMsEpoch
  let g ← gateway
  return (.ok, { resp with
    header := header
    info := { resp.info with
      currentTimeSEpoch := .ofNat now / 1000
      hasGwModel := true
      gwModel := strcpy resp.info.gwModel g.ids.gatewayModel.chars
      hasGwVersion := true
      gwVersion := strcpy resp.info.gwVersion g.ids.gatewayVersion.chars
      hasImplementedApiVersion := true
      implementedApiVersion := gwProtoApiVersion
      hasMaxScratchpadSize := true
      maxScratchpadSize := maxScratchpadSize } })

/-- What `Proto_config_handle_set_config` knows of the fields written so far. -/
structure Progress where
  globalRes : AppRes
  configHasChanged : Bool
deriving DecidableEq, Repr

def Progress.failed (p : Progress) : Progress := { p with globalRes := .invalidValue }

def Progress.changed (p : Progress) : Progress := { p with configHasChanged := true }

/-- A write, and what is done after it succeeded. -/
def setValue (write : Call Gateway ν AppRes) (store : Call Gateway ν Unit) (p : Progress) :
    Call Gateway ν Progress := do
  let res ← write
  if res ≠ .ok then return p.failed
  else
    store
    return p.changed

/-- The steps that follow from the stack status and the request: stop, restart, and a change. -/
structure StackActions where
  stopStack : Bool
  restartStack : Bool
  configHasChanged : Bool
deriving DecidableEq, Repr

/-- The fields that are written only while the stack is stopped. -/
def SinkNewConfig.needsStop (cfg : SinkNewConfig) : Bool :=
  cfg.nodeRole.isSome || cfg.nodeAddress.isSome || cfg.networkAddress.isSome ||
    cfg.networkChannel.isSome || cfg.keys.isSome || cfg.currentAcRange.isSome

def stackActions (stackStatus : UInt8) (cfg : SinkNewConfig) : StackActions :=
  if stackStatus &&& appStackStopped ≠ 0 then
    if cfg.sinkState = some OnOffState.on.value then ⟨false, true, true⟩ else ⟨false, false, false⟩
  else if cfg.sinkState = some OnOffState.off.value then ⟨true, false, true⟩
  else ⟨cfg.needsStop, cfg.needsStop, false⟩

def stopForConfig (p : Progress) : Call Gateway ν Progress := do
  let _ ← wpcSetAutostart env 0
  setValue (wpcStopStack env)
    (changeConfig fun c => { c with stackStatus := c.stackStatus ||| appStackStopped }) p

/-- A field that the request carries is written if it differs from its cached value, and refused
if the node has no room for it. -/
def setField {α : Type} (field : Option α) (cached : SinkConfig → α → Bool) (inRange : α → Bool)
    (write : α → Call Gateway ν AppRes) (store : α → SinkConfig → SinkConfig) (p : Progress) :
    Call Gateway ν Progress := do
  let g ← gateway
  match field with
  | none => return p
  | some value =>
    if cached g.sinkConfig value then return p
    else if inRange value then setValue (write value) (changeConfig (store value)) p
    else return p.failed

def setNodeRole (cfg : SinkNewConfig) : Progress → Call Gateway ν Progress :=
  setField (cfg.nodeRole.map convertRoleToAppFormat) (fun c role => role == c.appNodeRole)
    (fun _ => true) (wpcSetRole env) fun role c => { c with appNodeRole := role }

def setNodeAddress (cfg : SinkNewConfig) : Progress → Call Gateway ν Progress :=
  setField cfg.nodeAddress (fun c address => address == c.nodeAddress) (fun _ => true)
    (wpcSetNodeAddress env) fun address c => { c with nodeAddress := address }

def setNetworkAddress (cfg : SinkNewConfig) : Progress → Call Gateway ν Progress :=
  setField cfg.networkAddress (fun c address => address == c.networkAddress.toUInt64)
    (fun address => address ≤ 0xffffffff) (fun address => wpcSetNetworkAddress env address.toUInt32)
    fun address c => { c with networkAddress := address.toUInt32 }

def setNetworkChannel (cfg : SinkNewConfig) : Progress → Call Gateway ν Progress :=
  setField cfg.networkChannel (fun c channel => channel == c.networkChannel.toUInt32)
    (fun channel => channel ≤ 0xff) (fun channel => wpcSetNetworkChannel env channel.toUInt8)
    fun channel c => { c with networkChannel := channel.toUInt8 }

def setAppConfig (cfg : SinkNewConfig) (p : Progress) : Call Gateway ν Progress :=
  match cfg.appConfig with
  | none => return p
  | some config =>
    if 0xff < config.seq then return p.failed
    else if 0xffff < config.diagIntervalS then return p.failed
    else
      setValue
        (wpcSetAppConfigData env config.seq.toUInt8 config.diagIntervalS.toUInt16 config.appConfigData)
        (pure ()) p

/-- Both keys are written, also when the first is refused. -/
def setKeys (cfg : SinkNewConfig) (p : Progress) : Call Gateway ν Progress :=
  match cfg.keys with
  | none => return p
  | some keys => do
    let p ← setValue (wpcSetCipherKey env keys.cipher)
      (do let _ ← getValueFromNode (wpcIsCipherKeySet env) fun v c => { c with cipherKeySet := v }) p
    setValue (wpcSetAuthenticationKey env keys.authentication)
      (do let _ ← getValueFromNode (wpcIsAuthenticationKeySet env) fun v c =>
            { c with authenticationKeySet := v }) p

def AccessCycleRange.inRange (range : AccessCycleRange) : Bool :=
  range.minMs ≤ 0xffff && range.maxMs ≤ 0xffff

def AccessCycleRange.cached (c : SinkConfig) (range : AccessCycleRange) : Bool :=
  range.minMs == c.acRangeMinCur.toUInt32 && range.maxMs == c.acRangeMaxCur.toUInt32

/-- Here the range is checked first. -/
def setAcRange (cfg : SinkNewConfig) (p : Progress) : Call Gateway ν Progress := do
  let g ← gateway
  match cfg.currentAcRange with
  | none => return p
  | some range =>
    if range.inRange then
      if range.cached g.sinkConfig then return p
      else
        setValue (wpcSetAccessCycleRange env range.minMs.toUInt16 range.maxMs.toUInt16)
          (changeConfig fun c =>
            { c with acRangeMinCur := range.minMs.toUInt16, acRangeMaxCur := range.maxMs.toUInt16 }) p
    else return p.failed

/-- A cached range is in range, so that the order of the two checks makes no difference. -/
theorem setAcRange_eq (cfg : SinkNewConfig) : setAcRange env cfg =
    setField cfg.currentAcRange AccessCycleRange.cached AccessCycleRange.inRange
      (fun range => wpcSetAccessCycleRange env range.minMs.toUInt16 range.maxMs.toUInt16)
      fun range c => { c with acRangeMinCur := range.minMs.toUInt16, acRangeMaxCur := range.maxMs.toUInt16 } := by
  funext p
  unfold setAcRange setField
  congr
  funext g
  cases hField : cfg.currentAcRange with
  | none => rfl
  | some range =>
    have hCached : range.cached g.sinkConfig = true → range.inRange = true := by
      intro h
      unfold AccessCycleRange.cached at h
      rw [Bool.and_eq_true, beq_iff_eq, beq_iff_eq] at h
      have hMin := g.sinkConfig.acRangeMinCur.toNat_lt
      have hMax := g.sinkConfig.acRangeMaxCur.toNat_lt
      unfold AccessCycleRange.inRange
      rw [Bool.and_eq_true, decide_eq_true_eq, decide_eq_true_eq, h.1, h.2, UInt32.le_iff_toNat_le,
        UInt32.le_iff_toNat_le, UInt16.toNat_toUInt32, UInt16.toNat_toUInt32]
      exact ⟨Nat.le_of_lt_succ hMin, Nat.le_of_lt_succ hMax⟩
    dsimp only
    split
    · rfl
    · next hRange =>
      rw [if_neg fun h => hRange (hCached h)]

/-- A failed start is reported only if nothing failed before. -/
def restartForConfig (p : Progress) : Call Gateway ν Progress := do
  let res ← startStack env
  if res ≠ .ok then
    return { p with globalRes := if p.globalRes = .ok then res else p.globalRes }
  else
    let _ ← wpcSetAutostart env 1
    changeConfig fun c => { c with stackStatus := c.stackStatus &&& ~~~appStackStopped }
    return p

def setFields (cfg : SinkNewConfig) (p : Progress) : Call Gateway ν Progress := do
  let p ← setNodeRole env cfg p
  let p ← setNodeAddress env cfg p
  let p ← setNetworkAddress env cfg p
  let p ← setNetworkChannel env cfg p
  let p ← setAppConfig env cfg p
  let p ← setKeys env cfg p
  setAcRange env cfg p

/-- A request for this sink, up to its response. -/
def applyConfig (cfg : SinkNewConfig) : Call Gateway ν AppRes := do
  let _ ← getValueFromNode (wpcGetStackStatus env) fun v c => { c with stackStatus := v }
  let g ← gateway
  let actions := stackActions g.sinkConfig.stackStatus cfg
  let p : Progress := ⟨.ok, actions.configHasChanged⟩
  let p ← (if actions.stopStack then stopForConfig env p else pure p)
  let p ← setFields env cfg p
  let p ← (if actions.restartStack then restartForConfig env p else pure p)
  (if p.configHasChanged then onStackStatusReceived env ignoreStatus else pure ())
  return p.globalRes

/-- The configuration of the response is left as it is for another sink. -/
def protoConfigHandleSetConfig (req : SetConfigReq) (resp : Raw.SetConfigResp) :
    Call Gateway ν (AppProtoRes × Raw.SetConfigResp) := do
  let g ← gateway
  if req.config.sinkId.chars ≠ g.ids.sinkId.chars then
    let header ← fillResponseHeader env req.header .invalidSinkId
    return (.ok, { resp with header := header })
  else
    let globalRes ← applyConfig env req.config
    let header ← fillResponseHeader env req.header (commonConvertErrorCode globalRes)
    let config ← fillSinkReadConfig env
    return (.ok, { resp with header := header, config := config })

def delayParam : TargetParam → Option UInt8
  | .none => none
  | .delay delay => if convertDelayToAppFormat delay = 0 then none else some (convertDelayToAppFormat delay)
  | .raw raw => if 0xff < raw then none else some raw.toUInt8

/-- The given value if it is in range, and without one the value of the cache. -/
def targetSequence (c : SinkConfig) (t : TargetScratchpadAndAction) : Option UInt8 :=
  match t.targetSequence with
  | some sequence => if 0xff < sequence then none else some sequence.toUInt8
  | none => if c.otapStatus.scratSeqNumber ≠ 0 then some c.otapStatus.scratSeqNumber else none

def targetCrc (c : SinkConfig) (t : TargetScratchpadAndAction) : Option UInt16 :=
  match t.targetCrc with
  | some crc => if 0xffff < crc then none else some crc.toUInt16
  | none => some c.otapStatus.scratCrc

/-- The target that is written for the action, if the request is valid. -/
def requestedTarget (c : SinkConfig) (t : TargetScratchpadAndAction) : Option ScratchpadTarget :=
  let target (param : UInt8) : Option ScratchpadTarget :=
    match targetSequence c t, targetCrc c t with
    | some sequence, some crc =>
      some ⟨sequence, crc, (t.action - ScratchpadAction.noOtap.value).toUInt8, param⟩
    | _, _ => none
  if t.action = ScratchpadAction.noOtap.value then some ⟨0, 0, 0, 0⟩
  else if t.action = ScratchpadAction.propagateAndProcessWithDelay.value then
    (delayParam t.param).bind target
  else if t.action = ScratchpadAction.propagateOnly.value ∨
      t.action = ScratchpadAction.propagateAndProcess.value then target 0
  else none

def writeTarget : Option ScratchpadTarget → Call Gateway ν AppRes
  | some target => wpcWriteTargetScratchpad env target
  | none => pure .invalidValue

def protoConfigHandleSetScratchpadTargetAndActionRequest (req : SetScratchpadTargetAndActionReq)
    (resp : Raw.SetScratchpadTargetAndActionResp) :
    Call Gateway ν (AppProtoRes × Raw.SetScratchpadTargetAndActionResp) := do
  let g ← gateway
  let res ← writeTarget env (requestedTarget g.sinkConfig req.targetAndAction)
  protoConfigRefreshOtapInfos env
  let header ← fillResponseHeader env req.header (commonConvertErrorCode res)
  return (.ok, { resp with header := header })

end Handlers

end CMeshApi.Proto
