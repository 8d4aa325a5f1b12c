import CMeshApi.Proto.Otap
import CMeshApi.Dsap.Transmission

/-!
# Handling a request

`WPC_Proto_handle_request` after the decoding. The first request of the message gets a
response in memory as it was allocated, the handler fills it, and the response is
encoded. Two handlers leave parts of it unfilled that are encoded.
-/

namespace CMeshApi.Proto

open Programs Wpc Wire

/-- The requests of a decoded `wp_WirepasMessage`. -/
structure WirepasMessage where
  getConfigsReq : Option GetConfigsReq
  setConfigReq : Option SetConfigReq
  sendPacketReq : Option SendPacketReq
  getScratchpadStatusReq : Option GetScratchpadStatusReq
  uploadScratchpadReq : Option UploadScratchpadReq
  processScratchpadReq : Option ProcessScratchpadReq
  getGatewayInfoReq : Option GetGwInfoReq
  setScratchpadTargetAndActionReq : Option SetScratchpadTargetAndActionReq

/-- What `Platform_malloc` returns, as the response of each type that may lie there. -/
structure ResponseMemory where
  getConfigs : Raw.GetConfigsResp
  setConfig : Raw.SetConfigResp
  sendPacket : Raw.SendPacketResp
  getScratchpadStatus : Raw.GetScratchpadStatusResp
  uploadScratchpad : Raw.UploadScratchpadResp
  processScratchpad : Raw.ProcessScratchpadResp
  getGatewayInfo : Raw.GetGwInfoResp
  setScratchpadTargetAndAction : Raw.SetScratchpadTargetAndActionResp

inductive ProtoRequest where
  | getConfigs (req : GetConfigsReq)
  | setConfig (req : SetConfigReq)
  | sendPacket (req : SendPacketReq)
  | getScratchpadStatus (req : GetScratchpadStatusReq)
  | uploadScratchpad (req : UploadScratchpadReq)
  | processScratchpad (req : ProcessScratchpadReq)
  | getGatewayInfo (req : GetGwInfoReq)
  | setScratchpadTargetAndAction (req : SetScratchpadTargetAndActionReq)
deriving DecidableEq, Repr

def WirepasMessage.request (m : WirepasMessage) : Option ProtoRequest :=
  m.getConfigsReq.map .getConfigs <|> m.setConfigReq.map .setConfig <|>
    m.sendPacketReq.map .sendPacket <|> m.getScratchpadStatusReq.map .getScratchpadStatus <|>
    m.uploadScratchpadReq.map .uploadScratchpad <|> m.processScratchpadReq.map .processScratchpad <|>
    m.getGatewayInfoReq.map .getGatewayInfo <|>
    m.setScratchpadTargetAndActionReq.map .setScratchpadTargetAndAction

inductive ProtoResponse where
  | getConfigs (resp : Raw.GetConfigsResp)
  | setConfig (resp : Raw.SetConfigResp)
  | sendPacket (resp : Raw.SendPacketResp)
  | getScratchpadStatus (resp : Raw.GetScratchpadStatusResp)
  | uploadScratchpad (resp : Raw.UploadScratchpadResp)
  | processScratchpad (resp : Raw.ProcessScratchpadResp)
  | getGatewayInfo (resp : Raw.GetGwInfoResp)
  | setScratchpadTargetAndAction (resp : Raw.SetScratchpadTargetAndActionResp)

def ProtoResponse.number : ProtoResponse → Nat
  | .getConfigs _ => 3
  | .setConfig _ => 5
  | .sendPacket _ => 7
  | .getScratchpadStatus _ => 10
  | .uploadScratchpad _ => 12
  | .processScratchpad _ => 14
  | .getGatewayInfo _ => 16
  | .setScratchpadTargetAndAction _ => 18

def ProtoResponse.fields : ProtoResponse → Encoding
  | .getConfigs resp => resp.fields
  | .setConfig resp => resp.fields
  | .sendPacket resp => resp.fields
  | .getScratchpadStatus resp => resp.fields
  | .uploadScratchpad resp => resp.fields
  | .processScratchpad resp => resp.fields
  | .getGatewayInfo resp => resp.fields
  | .setScratchpadTargetAndAction resp => resp.fields

def sendDataErrorCodeLut : List AppRes :=
  [.ok, .stackIsStopped, .invalidValue, .invalidValue, .outOfMemory, .unknownDest, .invalidValue,
    .internalError, .internalError, .invalidValue, .accessDenied]

def appQosHigh : UInt32 := 1

section Handlers

-- What `dsap_data_tx_request` answers for the MTU and the packet is left open; the static
-- variables of `dsap.c` belong to the state.
variable {ν : Type} (env : Environment ν) (dsapDataTxRequest : UInt8 → Dsap.DataTx → ν → Int × ν)

/-- `WPC_send_data`, without a callback and without a delay. -/
def wpcSendData (bytes : List UInt8) (dstAddr qos : UInt32) (srcEp dstEp : UInt8) :
    Call Gateway ν AppRes := do
  let mtu ← .read fun w => w.statics.wpcIntGetMtu
  let res ← ask (dsapDataTxRequest mtu {
    buffer := bytes
    pduId := 0
    destAdd := dstAddr
    qos := if qos &&& 0xff = appQosHigh then 1 else 0
    srcEp := srcEp
    destEp := dstEp
    onDataSentCb := none
    bufferingDelay := msToInternalTime 0
    isUnackCsmaCa := false
    hopLimit := 0 })
  return convertErrorCode sendDataErrorCodeLut res

def protoDataHandleSendData (req : SendPacketReq) (resp : Raw.SendPacketResp) :
    Call Gateway ν (AppProtoRes × Raw.SendPacketResp) := do
  let res ← (if 0xff < req.sourceEndpoint ∨ 0xff < req.destinationEndpoint then pure .invalidValue
    else wpcSendData dsapDataTxRequest req.payload req.destinationAddress req.qos
      req.sourceEndpoint.toUInt8 req.destinationEndpoint.toUInt8)
  let header ← fillResponseHeader env req.header (commonConvertErrorCode res)
  return (.ok, { resp with header := header })

def ProtoRequest.handle (memory : ResponseMemory) : ProtoRequest → Call Gateway ν (AppProtoRes × ProtoResponse)
  | .getConfigs req => do
    let (res, resp) ← protoConfigHandleGetConfigs env req memory.getConfigs
    return (res, .getConfigs resp)
  | .setConfig req => do
    let (res, resp) ← protoConfigHandleSetConfig env req memory.setConfig
    return (res, .setConfig resp)
  | .sendPacket req => do
    let (res, resp) ← protoDataHandleSendData env dsapDataTxRequest req memory.sendPacket
    return (res, .sendPacket resp)
  | .getScratchpadStatus req => do
    let (res, resp) ← protoConfigHandleGetScratchpadStatus env req memory.getScratchpadStatus
    return (res, .getScratchpadStatus resp)
  | .uploadScratchpad req => do
    let (res, resp) ← protoOtapHandleUploadScratchpad env req memory.uploadScratchpad
    return (res, .uploadScratchpad resp)
  | .processScratchpad req => do
    let (res, resp) ← protoOtapHandleProcessScratchpad env req memory.processScratchpad
    return (res, .processScratchpad resp)
  | .getGatewayInfo req => do
    let (res, resp) ← protoConfigHandleGetGatewayInfoRequest env req memory.getGatewayInfo
    return (res, .getGatewayInfo resp)
  | .setScratchpadTargetAndAction req => do
    let (res, resp) ← protoConfigHandleSetScratchpadTargetAndActionRequest env req
      memory.setScratchpadTargetAndAction
    return (res, .setScratchpadTargetAndAction resp)

/-- The request is handled if there is memory for its response. -/
def handleMessage (m : WirepasMessage) (memory : ResponseMemory) :
    Call Gateway ν (AppProtoRes × Option ProtoResponse) :=
  match m.request with
  | none => return (.invalidRequest, none)
  | some request => do
    if ← ask env.malloc then
      let (res, resp) ← request.handle env dsapDataTxRequest memory
      return (res, some resp)
    else return (.notEnoughMemory, none)

/-- What is encoded into a buffer of the size. -/
def encodeResponse (responseSize : Nat) : AppProtoRes × Option ProtoResponse → AppProtoRes × List UInt8
  | (.ok, some resp) =>
    match pbEncode responseSize (genericMessage resp.number resp.fields) with
    | some encoded => (.ok, encoded)
    | none => (.cannotGenerateResponse, [])
  | (res, _) => (res, [])

def wpcProtoHandleRequest (m : WirepasMessage) (memory : ResponseMemory) (responseSize : Nat) :
    Call Gateway ν (AppProtoRes × List UInt8) := do
  let handled ← handleMessage env dsapDataTxRequest m memory
  return encodeResponse responseSize handled

end Handlers

end CMeshApi.Proto
