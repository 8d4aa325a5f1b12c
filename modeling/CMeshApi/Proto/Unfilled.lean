import CMeshApi.Proto.Requests

/-!
# Responses that are not filled

Most handlers assign their response as a whole, or each of its members. The gateway
information keeps the number of features that was in the memory before, and the answer
to a new configuration for another sink keeps its configuration.
-/

namespace CMeshApi.Proto

open Programs Wpc Wire

section Handlers

variable {ν : Type} (env : Environment ν) (dsapDataTxRequest : UInt8 → Dsap.DataTx → ν → Int × ν)

/-- Whatever the memory for the response contained, the same fields are encoded. -/
def FieldsDetermined (m : WirepasMessage) (w : World Gateway ν) : Prop :=
  ∀ memory memory' resp resp' t t',
    Returns (handleMessage env dsapDataTxRequest m memory) w (.ok, some resp) t →
    Returns (handleMessage env dsapDataTxRequest m memory') w (.ok, some resp') t' →
    resp.number = resp'.number ∧ resp.fields = resp'.fields

def LeavesUnfilled (g : Gateway) : ProtoRequest → Prop
  | .getGatewayInfo _ => True
  | .setConfig req => req.config.sinkId.chars ≠ g.ids.sinkId.chars
  | _ => False

variable {env} {dsapDataTxRequest}

theorem handle_congr {request : ProtoRequest} {w : World Gateway ν}
    (h : ¬ LeavesUnfilled w.gateway request) (memory memory' : ResponseMemory) :
    request.handle env dsapDataTxRequest memory w = request.handle env dsapDataTxRequest memory' w := by
  cases request with
  | getConfigs req => rfl
  | setConfig req =>
    apply bind_congr_at
    change (if req.config.sinkId.chars ≠ w.gateway.ids.sinkId.chars then _ else _ : Call _ _ _) w =
      (if req.config.sinkId.chars ≠ w.gateway.ids.sinkId.chars then _ else _ : Call _ _ _) w
    have hSink : ¬ req.config.sinkId.chars ≠ w.gateway.ids.sinkId.chars := h
    rw [if_neg hSink, if_neg hSink]
  | sendPacket req => rfl
  | getScratchpadStatus req => rfl
  | uploadScratchpad req => rfl
  | processScratchpad req => rfl
  | getGatewayInfo req => exact absurd trivial h
  | setScratchpadTargetAndAction req => rfl

theorem handleMessage_congr {m : WirepasMessage} {w : World Gateway ν}
    (h : ¬ ((env.malloc w.node).1 = true ∧ ∃ request ∈ m.request, LeavesUnfilled w.gateway request))
    (memory memory' : ResponseMemory) :
    handleMessage env dsapDataTxRequest m memory w = handleMessage env dsapDataTxRequest m memory' w := by
  unfold handleMessage
  cases hRequest : m.request with
  | none => rfl
  | some request =>
    change (if (env.malloc w.node).1 = true then _ else _ : Call _ _ _) _ =
      (if (env.malloc w.node).1 = true then _ else _ : Call _ _ _) _
    cases hMalloc : (env.malloc w.node).1 with
    | false => rfl
    | true =>
      apply bind_congr_at
      apply handle_congr
      exact fun hUnfilled => h ⟨hMalloc, request, hRequest, hUnfilled⟩

theorem fieldsDetermined_of_congr {m : WirepasMessage} {w : World Gateway ν}
    (h : ∀ memory memory', handleMessage env dsapDataTxRequest m memory w =
      handleMessage env dsapDataTxRequest m memory' w) :
    FieldsDetermined env dsapDataTxRequest m w := by
  intro memory memory' resp resp' t t' hFirst hSecond
  have hSame : Returns (handleMessage env dsapDataTxRequest m memory) w (.ok, some resp') t' :=
    (h memory memory').trans hSecond
  obtain ⟨hResp, -⟩ := hFirst.unique hSame
  obtain rfl : resp = resp' := Option.some.inj (congrArg Prod.snd hResp)
  exact ⟨rfl, rfl⟩

end Handlers

theorem commonFillResponseHeader_fields (ids : Ids) (timestampMsEpoch reqId : UInt64)
    (res : ErrorCode) :
    ∃ fields, (commonFillResponseHeader ids timestampMsEpoch reqId res).fields = some fields := by
  have hGateway : string 2 (strncpy (fun _ => 0) ids.gatewayId.chars gatewayIdMaxSize) =
      some [bytes 2 ids.gatewayId.chars] := string_strncpy 2 _ ids.gatewayId
  have hSink : string 3 (strncpy (fun _ => 0) ids.sinkId.chars sinkIdMaxSize) =
      some [bytes 3 ids.sinkId.chars] := string_strncpy 3 _ ids.sinkId
  unfold Raw.ResponseHeader.fields commonFillResponseHeader
  simp only [hGateway]
  cases ids.sinkId.chars.isEmpty with
  | true => exact ⟨_, rfl⟩
  | false =>
    simp only [Bool.not_false, hSink]
    exact ⟨_, rfl⟩

theorem member_encoded {header : Raw.ResponseHeader} {fields part part' : List Field}
    (hHeader : header.fields = some fields)
    (h : concat [message 1 header.fields, message 2 (some part)] =
      concat [message 1 header.fields, message 2 (some part')]) : encode part = encode part' := by
  rw [hHeader] at h
  have hFields : [submessage 1 fields, submessage 2 part] = [submessage 1 fields, submessage 2 part'] :=
    Option.some.inj h
  have hMember : submessage 2 part = submessage 2 part' := by
    rw [List.cons.injEq, List.cons.injEq] at hFields
    exact hFields.2.1
  have hValue : Value.lengthDelimited (encode part) = .lengthDelimited (encode part') :=
    congrArg Field.value hMember
  exact Value.lengthDelimited.inj hValue

def infoFields (ids : Ids) (now : UInt64) : List Field :=
  [uint 1 (now / 1000).toNat, bytes 2 ids.gatewayModel.chars, bytes 3 ids.gatewayVersion.chars,
    uint 4 gwProtoApiVersion.toNat, uint 5 maxScratchpadSize.toNat]

def filledInfo (ids : Ids) (now : UInt64) (info : Raw.GatewayInfo) : Raw.GatewayInfo :=
  { info with
    currentTimeSEpoch := now / 1000
    hasGwModel := true
    gwModel := strcpy info.gwModel ids.gatewayModel.chars
    hasGwVersion := true
    gwVersion := strcpy info.gwVersion ids.gatewayVersion.chars
    hasImplementedApiVersion := true
    implementedApiVersion := gwProtoApiVersion
    hasMaxScratchpadSize := true
    maxScratchpadSize := maxScratchpadSize }

theorem filledInfo_fields (ids : Ids) (now : UInt64) {info : Raw.GatewayInfo} {features : List Field}
    (h : repeatedEnum 6 info.gwFeaturesCount info.gwFeatures = some features) :
    (filledInfo ids now info).fields = some (infoFields ids now ++ features) := by
  unfold Raw.GatewayInfo.fields filledInfo
  simp only [h, string_strcpy]
  exact congrArg (fun rest => some (_ :: _ :: _ :: _ :: _ :: rest)) (List.append_nil features)

def zeroInfo : Raw.GatewayInfo :=
  ⟨0, false, fun _ => 0, false, fun _ => 0, false, 0, false, 0, 0, fun _ => 0⟩

/-- Memory with a count of features, and with a channel map or not. -/
def someMemory (gwFeaturesCount : UInt16) (hasChannelMap : Bool) : ResponseMemory where
  getConfigs := ⟨zeroHeader, 0, fun _ => zeroSinkReadConfig⟩
  setConfig := ⟨zeroHeader, { zeroSinkReadConfig with hasChannelMap := hasChannelMap }⟩
  sendPacket := ⟨zeroHeader⟩
  getScratchpadStatus := ⟨zeroHeader, false, ⟨0, 0, 0⟩, false, 0, false, 0, false, ⟨0, 0, 0⟩, false, 0,
    false, ⟨0, false, 0, false, 0, 0, 0⟩⟩
  uploadScratchpad := ⟨zeroHeader⟩
  processScratchpad := ⟨zeroHeader⟩
  getGatewayInfo := ⟨zeroHeader, { zeroInfo with gwFeaturesCount := gwFeaturesCount }⟩
  setScratchpadTargetAndAction := ⟨zeroHeader⟩

section Handlers

variable {ν : Type} {env : Environment ν} {dsapDataTxRequest : UInt8 → Dsap.DataTx → ν → Int × ν}

theorem returns_handleMessage {m : WirepasMessage} {request : ProtoRequest} {memory : ResponseMemory}
    {w t : World Gateway ν} {res : AppProtoRes} {resp : ProtoResponse}
    (hMalloc : (env.malloc w.node).1 = true) (hRequest : m.request = some request)
    (h : Returns (request.handle env dsapDataTxRequest memory)
      { w with node := (env.malloc w.node).2 } (res, resp) t) :
    Returns (handleMessage env dsapDataTxRequest m memory) w (res, some resp) t := by
  unfold handleMessage
  rw [hRequest]
  refine returns_bind.mpr ⟨true, _, returns_ask.mpr ⟨hMalloc.symm, rfl⟩, ?_⟩
  exact returns_bind.mpr ⟨(res, resp), t, h, returns_pure.mpr ⟨rfl, rfl⟩⟩

theorem not_fieldsDetermined_getGatewayInfo {m : WirepasMessage} {req : GetGwInfoReq}
    {w : World Gateway ν} (hMalloc : (env.malloc w.node).1 = true)
    (hRequest : m.request = some (.getGatewayInfo req)) :
    ¬ FieldsDetermined env dsapDataTxRequest m w := by
  intro hDetermined
  obtain ⟨-, hFields⟩ := hDetermined (someMemory 0 false) (someMemory 1 false) _ _ _ _
    (returns_handleMessage hMalloc hRequest rfl) (returns_handleMessage hMalloc hRequest rfl)
  let start := env.timestampMsEpoch (env.malloc w.node).2
  let now : UInt64 := .ofNat (env.timestampMsEpoch start.2).1
  let header := commonFillResponseHeader w.gateway.ids (.ofNat start.1) req.header.reqId .ok
  obtain ⟨fields, hHeader⟩ : ∃ fields, header.fields = some fields :=
    commonFillResponseHeader_fields _ _ _ _
  have hNone : (filledInfo w.gateway.ids now { zeroInfo with gwFeaturesCount := 0 }).fields =
      some (infoFields w.gateway.ids now ++ []) := filledInfo_fields _ _ rfl
  have hOne : (filledInfo w.gateway.ids now { zeroInfo with gwFeaturesCount := 1 }).fields =
      some (infoFields w.gateway.ids now ++ [bytes 6 ([0].flatMap varint)]) := filledInfo_fields _ _ rfl
  have hSame : concat [message 1 header.fields, message 2
        (filledInfo w.gateway.ids now { zeroInfo with gwFeaturesCount := 0 }).fields] =
      concat [message 1 header.fields, message 2
        (filledInfo w.gateway.ids now { zeroInfo with gwFeaturesCount := 1 }).fields] := hFields
  rw [hNone, hOne] at hSame
  exact encode_append_cons_ne (member_encoded hHeader hSame)

theorem not_fieldsDetermined_setConfig {m : WirepasMessage} {req : SetConfigReq}
    {w : World Gateway ν} (hMalloc : (env.malloc w.node).1 = true)
    (hRequest : m.request = some (.setConfig req))
    (hOther : req.config.sinkId.chars ≠ w.gateway.ids.sinkId.chars) :
    ¬ FieldsDetermined env dsapDataTxRequest m w := by
  intro hDetermined
  let start := env.timestampMsEpoch (env.malloc w.node).2
  let header := commonFillResponseHeader w.gateway.ids (.ofNat start.1) req.header.reqId .invalidSinkId
  have hReturns : ∀ memory : ResponseMemory,
      Returns ((ProtoRequest.setConfig req).handle env dsapDataTxRequest memory)
        { w with node := (env.malloc w.node).2 }
        (.ok, .setConfig { memory.setConfig with header := header }) { w with node := start.2 } := by
    intro memory
    refine returns_bind.mpr ⟨(.ok, { memory.setConfig with header := header }), _, ?_, rfl⟩
    refine returns_bind.mpr ⟨w.gateway, _, rfl, ?_⟩
    rw [if_pos hOther]
    rfl
  obtain ⟨-, hFields⟩ := hDetermined (someMemory 0 false) (someMemory 0 true) _ _ _ _
    (returns_handleMessage hMalloc hRequest (hReturns _))
    (returns_handleMessage hMalloc hRequest (hReturns _))
  obtain ⟨fields, hHeader⟩ : ∃ fields, header.fields = some fields :=
    commonFillResponseHeader_fields _ _ _ _
  have hWithout : { zeroSinkReadConfig with hasChannelMap := false }.fields =
      some ([bytes 1 []] ++ []) := rfl
  have hWith : { zeroSinkReadConfig with hasChannelMap := true }.fields =
      some ([bytes 1 []] ++ [uint 7 0]) := rfl
  have hSame : concat [message 1 header.fields,
        message 2 { zeroSinkReadConfig with hasChannelMap := false }.fields] =
      concat [message 1 header.fields,
        message 2 { zeroSinkReadConfig with hasChannelMap := true }.fields] := hFields
  rw [hWithout, hWith] at hSame
  exact encode_append_cons_ne (member_encoded hHeader hSame)

theorem fieldsDetermined_iff {m : WirepasMessage} {w : World Gateway ν} :
    FieldsDetermined env dsapDataTxRequest m w ↔
      ¬ ((env.malloc w.node).1 = true ∧ ∃ request ∈ m.request, LeavesUnfilled w.gateway request) := by
  constructor
  · rintro hDetermined ⟨hMalloc, request, hRequest, hUnfilled⟩
    cases request with
    | getGatewayInfo req =>
      exact not_fieldsDetermined_getGatewayInfo hMalloc hRequest hDetermined
    | setConfig req => exact not_fieldsDetermined_setConfig hMalloc hRequest hUnfilled hDetermined
    | getConfigs req => exact hUnfilled
    | sendPacket req => exact hUnfilled
    | getScratchpadStatus req => exact hUnfilled
    | uploadScratchpad req => exact hUnfilled
    | processScratchpad req => exact hUnfilled
    | setScratchpadTargetAndAction req => exact hUnfilled
  · intro hFilled
    exact fieldsDetermined_of_congr fun memory memory' => handleMessage_congr hFilled memory memory'

end Handlers

def silentNode : Environment Unit where
  request _ n := (-1, n)
  attributeRead _ _ n := ((-1, []), n)
  appConfigDataRead n := ((-1, ⟨0, 0, []⟩), n)
  scratchpadStatus n := ((-1, ⟨0, 0, 0, 0, 0, 0, 0, 0, 0⟩), n)
  scratchpadTargetRead n := ((-1, ⟨0, 0, 0, 0⟩), n)
  timestampMsMonotonic n := (0, n)
  timestampMsEpoch n := (0, n)
  malloc n := (true, n)
  rand n := (0, n)
  rounds := 1

def infoMessage : WirepasMessage := ⟨none, none, none, none, none, none, some ⟨⟨1⟩⟩, none⟩

/-- The gateway information tells how many features the memory had. -/
theorem gateway_info_not_determined :
    ¬ FieldsDetermined silentNode (fun _ _ n => (-1, n)) infoMessage
      ⟨⟨60, 102⟩, .initialized .zero, ()⟩ := by
  apply not_fieldsDetermined_getGatewayInfo
  · rfl
  · rfl

end CMeshApi.Proto
