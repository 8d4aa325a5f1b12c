import CMeshApi.Proto.Answers

/-!
# What the other side reads of a configuration

The configuration of the sink in the response of `Proto_config_handle_get_configs`, read back as a
`wp_SinkReadConfig`.
-/

namespace CMeshApi.Proto

open Programs Wpc Wire

/-- In a message of parts with different numbers, a part is read as if it stood alone. -/
theorem lookup_concat {parts : List (Nat × Encoding)} {fields : List Field}
    (hNumbered : ∀ p ∈ parts, Numbered p.1 p.2) (hNodup : (parts.map Prod.fst).Nodup)
    (h : concat (parts.map Prod.snd) = some fields) {number : Nat} {part : Encoding}
    (hMem : (number, part) ∈ parts) : ∃ own, part = some own ∧ lookup number fields = lookup number own := by
  induction parts generalizing fields with
  | nil => cases hMem
  | cons p parts ih =>
    obtain ⟨first, rest, hFirst, hRest, rfl⟩ := concat_cons h
    obtain ⟨hHead, hTail⟩ := List.forall_mem_cons.mp hNumbered
    rw [List.map_cons, List.nodup_cons] at hNodup
    rw [lookup_append]
    rcases List.mem_cons.mp hMem with rfl | hLater
    · have hNone : lookup number rest = none := by
        refine concat_avoids ?_ hRest
        intro part' hPart
        obtain ⟨q, hq, rfl⟩ := List.mem_map.mp hPart
        refine ⟨q.1, ?_, hTail q hq⟩
        rintro rfl
        exact hNodup.1 (List.mem_map.mpr ⟨q, hq, rfl⟩)
      refine ⟨first, hFirst, ?_⟩
      rw [hNone, Option.none_or]
    · obtain ⟨own, hOwn, hLookup⟩ := ih hTail hNodup.2 hRest hLater
      have hOther : p.1 ≠ number := by
        rintro rfl
        exact hNodup.1 (List.mem_map.mpr ⟨_, hLater, rfl⟩)
      refine ⟨own, hOwn, ?_⟩
      rw [hLookup, lookup_none_of_numbered hHead hOther hFirst, Option.or_none]

theorem number?_optional {number : Nat} {present : Bool} {v : Nat} {fields own : List Field}
    (hOwn : optional present (some [uint number v]) = some own) (h : lookup number fields = lookup number own) :
    number? number fields = if present then some v else none := by
  cases present with
  | true =>
    cases hOwn
    simp [number?, h, lookup, uint, Value.number]
  | false =>
    cases hOwn
    simp [number?, h, lookup]

/-- What is read of a nested message, if it is there. -/
def ToldAs (present : Bool) (tells : List Field → Prop) (inner : Option (List Field)) : Prop :=
  if present then ∃ fields, inner = some fields ∧ tells fields else inner = none

theorem toldAs_optional {number : Nat} {present : Bool} {part : Encoding} {fields own : List Field}
    {tells : List Field → Prop} (hTells : ∀ inner, part = some inner → tells inner)
    (hOwn : optional present (message number part) = some own) (h : lookup number fields = lookup number own) :
    ToldAs present tells (message? number fields) := by
  cases present with
  | true =>
    obtain ⟨inner, hInner, rfl⟩ := Option.map_eq_some_iff.mp hOwn
    have hRead : message? number fields = message? number [submessage number inner] := by
      rw [message?, message?, bytes?, bytes?, h]
    exact ⟨inner, hRead.trans (message?_submessage number inner), hTells inner hInner⟩
  | false =>
    cases hOwn
    change message? number fields = none
    simp [message?, bytes?, h, lookup]

structure TellsRole (r : Raw.NodeRole) (fields : List Field) : Prop where
  role : number? 1 fields = some r.role.toNat
  flags : numbers? 2 fields = some (((List.ofFn r.flags).take r.flagsCount.toNat).map UInt32.toNat)

structure TellsAppConfig (c : Raw.AppConfigData) (fields : List Field) : Prop where
  diagIntervalS : number? 1 fields = some c.diagIntervalS.toNat
  appConfigData : bytes? 2 fields = some ((List.ofFn c.appConfigDataBytes).take c.appConfigDataSize.toNat)
  seq : number? 3 fields = some c.seq.toNat

/-- The range of the channels, or of the access cycles. -/
structure TellsRange (min max : UInt32) (fields : List Field) : Prop where
  min : number? 1 fields = some min.toNat
  max : number? 2 fields = some max.toNat

structure TellsVersion (v : Raw.FirmwareVersion) (fields : List Field) : Prop where
  major : number? 1 fields = some v.major.toNat
  minor : number? 2 fields = some v.minor.toNat
  maint : number? 3 fields = some v.maint.toNat
  dev : number? 4 fields = some v.dev.toNat

structure TellsScratchpad (i : Raw.ScratchpadInfo) (fields : List Field) : Prop where
  len : number? 1 fields = some i.len.toNat
  crc : number? 2 fields = some i.crc.toNat
  seq : number? 3 fields = some i.seq.toNat

structure TellsTargetAndAction (t : Raw.TargetScratchpadAndAction) (fields : List Field) : Prop where
  action : number? 1 fields = some t.action.toNat
  targetSequence : number? 2 fields = if t.hasTargetSequence then some t.targetSequence.toNat else none
  targetCrc : number? 3 fields = if t.hasTargetCrc then some t.targetCrc.toNat else none
  delay : number? 4 fields = if t.whichParam == 4 then some t.param.toNat else none
  rawDelay : number? 5 fields = if t.whichParam == 5 then some t.param.toNat else none

theorem Raw.NodeRole.tells {r : Raw.NodeRole} {fields : List Field} (h : r.fields = some fields) :
    TellsRole r fields := by
  obtain ⟨role, rest, hRole, hRest, rfl⟩ := concat_cons h
  obtain ⟨flags, last, hFlags, hLast, rfl⟩ := concat_cons hRest
  cases hRole
  cases hLast
  obtain ⟨-, hSame⟩ := Option.ite_none_right_eq_some.mp hFlags
  cases hSame
  constructor
  · simp [number?, lookup, packed, uint, bytes, Value.number]
  · apply numbers?_packed
    simp [lookup, uint]

theorem Raw.AppConfigData.tells {c : Raw.AppConfigData} {fields : List Field} (h : c.fields = some fields) :
    TellsAppConfig c fields := by
  obtain ⟨diag, rest, hDiag, hRest, rfl⟩ := concat_cons h
  obtain ⟨data, last, hData, hLast, rfl⟩ := concat_cons hRest
  cases hDiag
  cases hLast
  obtain ⟨-, hSame⟩ := Option.ite_none_right_eq_some.mp hData
  cases hSame
  constructor
  all_goals simp [number?, bytes?, lookup, uint, bytes, Value.number, Value.content]

theorem tells_range {min max : UInt32} {fields : List Field}
    (h : concat [uint32 1 min, uint32 2 max] = some fields) : TellsRange min max fields := by
  cases h
  constructor
  all_goals simp [number?, lookup, uint, Value.number]

theorem Raw.FirmwareVersion.tells {v : Raw.FirmwareVersion} {fields : List Field} (h : v.fields = some fields) :
    TellsVersion v fields := by
  cases h
  constructor
  all_goals simp [number?, lookup, uint, Value.number]

theorem Raw.ScratchpadInfo.tells {i : Raw.ScratchpadInfo} {fields : List Field} (h : i.fields = some fields) :
    TellsScratchpad i fields := by
  cases h
  constructor
  all_goals simp [number?, lookup, uint, Value.number]

theorem Raw.TargetScratchpadAndAction.tells {t : Raw.TargetScratchpadAndAction} {fields : List Field}
    (h : t.fields = some fields) : TellsTargetAndAction t fields := by
  have hParts {number v : Nat} {present : Bool} :
      optional present (some [uint number v]) = some (Field.optional present (uint number v)) := by
    cases present <;> rfl
  unfold Raw.TargetScratchpadAndAction.fields at h
  simp only [hParts, uint32, concat, Option.bind_some, Option.map_some] at h
  cases h
  constructor
  all_goals
    simp only [number?, lookup_append, lookup_optional, lookup, uint]
    repeat' split
    all_goals simp_all [Value.number]

/-- The parts of `wp_SinkReadConfig`, by their numbers. -/
def Raw.SinkReadConfig.parts (c : Raw.SinkReadConfig) : List (Nat × Encoding) :=
  [(1, string 1 c.sinkId),
    (2, optional c.hasNodeRole (message 2 c.nodeRole.fields)),
    (3, optional c.hasNodeAddress (uint32 3 c.nodeAddress)),
    (4, optional c.hasNetworkAddress (uint64 4 c.networkAddress)),
    (5, optional c.hasNetworkChannel (uint32 5 c.networkChannel)),
    (6, optional c.hasAppConfig (message 6 c.appConfig.fields)),
    (7, optional c.hasChannelMap (uint32 7 c.channelMap)),
    (8, optional c.hasAreKeysSet (bool 8 c.areKeysSet)),
    (9, optional c.hasCurrentAcRange (message 9 c.currentAcRange.fields)),
    (10, optional c.hasAcLimits (message 10 c.acLimits.fields)),
    (11, optional c.hasMaxMtu (uint32 11 c.maxMtu)),
    (12, optional c.hasChannelLimits (message 12 c.channelLimits.fields)),
    (13, optional c.hasHwMagic (uint32 13 c.hwMagic)),
    (14, optional c.hasStackProfile (uint32 14 c.stackProfile)),
    (15, optional c.hasAppConfigMaxSize (uint32 15 c.appConfigMaxSize)),
    (16, optional c.hasFirmwareVersion (message 16 c.firmwareVersion.fields)),
    (17, optional c.hasSinkState (uint32 17 c.sinkState)),
    (18, optional c.hasStoredScratchpad (message 18 c.storedScratchpad.fields)),
    (19, optional c.hasStoredStatus (uint32 19 c.storedStatus)),
    (20, optional c.hasStoredType (uint32 20 c.storedType)),
    (21, optional c.hasProcessedScratchpad (message 21 c.processedScratchpad.fields)),
    (22, optional c.hasFirmwareAreaId (uint32 22 c.firmwareAreaId)),
    (23, optional c.hasTargetAndAction (message 23 c.targetAndAction.fields)),
    (24, if c.configurationDataContentCount = 0 then some [] else none)]

theorem Raw.SinkReadConfig.fields_eq (c : Raw.SinkReadConfig) : c.fields = concat (c.parts.map Prod.snd) := rfl

theorem numbered_string {n number : Nat} (a : CArray UInt8 n) : Numbered number (string number a) := by
  unfold string
  split
  · exact numbered_one rfl
  · rintro _ ⟨⟩

theorem Raw.SinkReadConfig.parts_numbered (c : Raw.SinkReadConfig) : ∀ p ∈ c.parts, Numbered p.1 p.2 := by
  have hUint {present : Bool} {number v : Nat} : Numbered number (optional present (some [uint number v])) :=
    numbered_optional (numbered_one rfl)
  have hMessage {present : Bool} {number : Nat} {part : Encoding} :
      Numbered number (optional present (message number part)) :=
    numbered_optional (numbered_message number part)
  simp only [Raw.SinkReadConfig.parts, List.forall_mem_cons]
  refine ⟨numbered_string _, hMessage, hUint, hUint, hUint, hMessage, hUint, hUint,
    hMessage, hMessage, hUint, hMessage, hUint, hUint, hUint, hMessage, hUint,
    hMessage, hUint, hUint, hMessage, hUint, hMessage, ?_, by rintro _ ⟨⟩⟩
  split
  · rintro _ ⟨⟩ _ ⟨⟩
  · rintro _ ⟨⟩

theorem Raw.SinkReadConfig.parts_nodup (c : Raw.SinkReadConfig) : (c.parts.map Prod.fst).Nodup := by
  have hNumbers : c.parts.map Prod.fst = List.range' 1 24 := rfl
  rw [hNumbers]
  exact List.nodup_range'

/-- The message says of the configuration what the structure holds and marks as present. -/
structure Tells (c : Raw.SinkReadConfig) (fields : List Field) : Prop where
  sinkId : bytes? 1 fields = some (cString c.sinkId)
  nodeRole : ToldAs c.hasNodeRole (TellsRole c.nodeRole) (message? 2 fields)
  nodeAddress : number? 3 fields = if c.hasNodeAddress then some c.nodeAddress.toNat else none
  networkAddress : number? 4 fields = if c.hasNetworkAddress then some c.networkAddress.toNat else none
  networkChannel : number? 5 fields = if c.hasNetworkChannel then some c.networkChannel.toNat else none
  appConfig : ToldAs c.hasAppConfig (TellsAppConfig c.appConfig) (message? 6 fields)
  channelMap : number? 7 fields = if c.hasChannelMap then some c.channelMap.toNat else none
  areKeysSet : number? 8 fields = if c.hasAreKeysSet then some c.areKeysSet.toNat else none
  currentAcRange : ToldAs c.hasCurrentAcRange (TellsRange c.currentAcRange.minMs c.currentAcRange.maxMs)
    (message? 9 fields)
  acLimits : ToldAs c.hasAcLimits (TellsRange c.acLimits.minMs c.acLimits.maxMs) (message? 10 fields)
  maxMtu : number? 11 fields = if c.hasMaxMtu then some c.maxMtu.toNat else none
  channelLimits : ToldAs c.hasChannelLimits (TellsRange c.channelLimits.minChannel c.channelLimits.maxChannel)
    (message? 12 fields)
  hwMagic : number? 13 fields = if c.hasHwMagic then some c.hwMagic.toNat else none
  stackProfile : number? 14 fields = if c.hasStackProfile then some c.stackProfile.toNat else none
  appConfigMaxSize : number? 15 fields = if c.hasAppConfigMaxSize then some c.appConfigMaxSize.toNat else none
  firmwareVersion : ToldAs c.hasFirmwareVersion (TellsVersion c.firmwareVersion) (message? 16 fields)
  sinkState : number? 17 fields = if c.hasSinkState then some c.sinkState.toNat else none
  storedScratchpad : ToldAs c.hasStoredScratchpad (TellsScratchpad c.storedScratchpad) (message? 18 fields)
  storedStatus : number? 19 fields = if c.hasStoredStatus then some c.storedStatus.toNat else none
  storedType : number? 20 fields = if c.hasStoredType then some c.storedType.toNat else none
  processedScratchpad : ToldAs c.hasProcessedScratchpad (TellsScratchpad c.processedScratchpad)
    (message? 21 fields)
  firmwareAreaId : number? 22 fields = if c.hasFirmwareAreaId then some c.firmwareAreaId.toNat else none
  targetAndAction : ToldAs c.hasTargetAndAction (TellsTargetAndAction c.targetAndAction) (message? 23 fields)

theorem Raw.SinkReadConfig.tells {c : Raw.SinkReadConfig} {fields : List Field} (h : c.fields = some fields) :
    Tells c fields := by
  rw [c.fields_eq] at h
  have hUint {present : Bool} {number v : Nat}
      (hMem : (number, optional present (some [uint number v])) ∈ c.parts) :
      number? number fields = if present then some v else none := by
    obtain ⟨own, hOwn, hLookup⟩ := lookup_concat c.parts_numbered c.parts_nodup h hMem
    exact number?_optional hOwn hLookup
  have hMessage {present : Bool} {number : Nat} {part : Encoding} {tells : List Field → Prop}
      (hTells : ∀ inner, part = some inner → tells inner)
      (hMem : (number, optional present (message number part)) ∈ c.parts) :
      ToldAs present tells (message? number fields) := by
    obtain ⟨own, hOwn, hLookup⟩ := lookup_concat c.parts_numbered c.parts_nodup h hMem
    exact toldAs_optional hTells hOwn hLookup
  have hRange {present : Bool} {number : Nat} {min max : UInt32}
      (hMem : (number, optional present (message number (concat [uint32 1 min, uint32 2 max]))) ∈ c.parts) :
      ToldAs present (TellsRange min max) (message? number fields) := hMessage (fun _ => tells_range) hMem
  constructor
  case sinkId =>
    have hMem : (1, string 1 c.sinkId) ∈ c.parts := List.mem_cons_self
    obtain ⟨own, hOwn, hLookup⟩ := lookup_concat c.parts_numbered c.parts_nodup h hMem
    obtain ⟨-, hSame⟩ := Option.ite_none_right_eq_some.mp hOwn
    cases hSame
    simp [bytes?, hLookup, lookup, bytes, Value.content]
  case nodeRole => exact hMessage (fun _ => Raw.NodeRole.tells) (by simp [Raw.SinkReadConfig.parts])
  case appConfig => exact hMessage (fun _ => Raw.AppConfigData.tells) (by simp [Raw.SinkReadConfig.parts])
  case currentAcRange | acLimits | channelLimits =>
    apply hRange
    simp [Raw.SinkReadConfig.parts, AccessCycleRange.fields, Raw.ChannelRange.fields]
  case firmwareVersion =>
    exact hMessage (fun _ => Raw.FirmwareVersion.tells) (by simp [Raw.SinkReadConfig.parts])
  case storedScratchpad | processedScratchpad =>
    exact hMessage (fun _ => Raw.ScratchpadInfo.tells) (by simp [Raw.SinkReadConfig.parts])
  case targetAndAction =>
    exact hMessage (fun _ => Raw.TargetScratchpadAndAction.tells) (by simp [Raw.SinkReadConfig.parts])
  all_goals
    apply hUint
    simp [Raw.SinkReadConfig.parts, uint32, uint64, bool]

/-- The configuration in a response of `wp_GetConfigsResp`. -/
def readConfig (input : List UInt8) : Option (List Field) := do
  let generic ← read input
  let wirepas ← message? 1 generic
  let resp ← message? 3 wirepas
  message? 2 resp

theorem readConfig_encode {resp : Raw.GetConfigsResp} {fields : List Field} (hCount : resp.configsCount = 1)
    (h : resp.fields = some fields) :
    ∃ told, (resp.configs 0).fields = some told ∧
      readConfig (encode [submessage 1 [submessage 3 fields]]) = some told := by
  obtain ⟨header, rest, hHeader, hRest, rfl⟩ := concat_cons h
  obtain ⟨own, last, hOwn, hLast, rfl⟩ := concat_cons hRest
  cases hLast
  rw [repeatedMessage, hCount, if_pos (by decide)] at hOwn
  obtain ⟨first, nothing, hFirst, hNothing, rfl⟩ := concat_cons
    (show concat [message 2 (resp.configs 0).fields] = some own from hOwn)
  cases hNothing
  obtain ⟨told, hTold, rfl⟩ := Option.map_eq_some_iff.mp hFirst
  refine ⟨told, hTold, ?_⟩
  have hMember : message? 2 (header ++ ([submessage 2 told] ++ [] ++ [])) = some told := by
    simp [message?, bytes?, lookup, submessage, bytes, Value.content]
  simp only [readConfig, read_encode, message?_submessage, Option.bind_eq_bind, Option.bind_some, hMember]

section Handler

variable {ν : Type} {env : Environment ν}

/-- The configuration that is cached, with an app config as the node answers for it. -/
def withAppConfig (g : Gateway) : Except AppRes AppConfigDataConf → Raw.SinkReadConfig
  | .ok conf => { cachedSinkReadConfig g.ids g.sinkConfig with
      appConfig := ⟨conf.diagDataInterval.toUInt32, g.sinkConfig.appConfigMaxSize,
        fun i => conf.appConfigData.getD i 0, conf.sequenceNumber.toUInt32⟩ }
  | .error _ => { cachedSinkReadConfig g.ids g.sinkConfig with hasAppConfig := false }

theorem asks_gateway (env : Environment ν) :
    Asks env fun w t : World Gateway ν => t.gateway = w.gateway where
  composes := composes_eq World.gateway
  attributeRead _ _ _ := rfl
  appConfigDataRead _ := rfl
  scratchpadStatus _ := rfl
  scratchpadTargetRead _ := rfl
  timestampMsMonotonic _ := rfl
  timestampMsEpoch _ := rfl
  malloc _ := rfl
  rand _ := rfl

/-- What is done with a request before the configuration of its response is filled. -/
def beforeConfig (env : Environment ν) (req : GetConfigsReq) : Call Gateway ν Raw.ResponseHeader := do
  let _ ← ask env.malloc
  let _ ← getValueFromNode (wpcGetStackStatus env) fun v c => { c with stackStatus := v }
  fillResponseHeader env req.header .ok

/-- What the configuration in the response to a request is, when the call has come from `w` to its end
in `t`: the cache of then, with the app config that the node answers when it is asked for it next, if
one of the cached size fits. -/
def IsCached (env : Environment ν) (req : GetConfigsReq) (config : Raw.SinkReadConfig) (w t : World Gateway ν) :
    Prop :=
  if t.gateway.sinkConfig.appConfigMaxSize.toNat ≤ maximumAppConfigSize then
    ∃ answer, Returns (wpcGetAppConfigData env maximumAppConfigSize) (beforeConfig env req w).2 answer t ∧
      config = withAppConfig t.gateway answer
  else t = (beforeConfig env req w).2 ∧ config = cachedSinkReadConfig t.gateway.ids t.gateway.sinkConfig

/-- The configuration is the cache, and of the node only the app config, which is not asked for when it
would not fit. -/
theorem config_of_fill {req : GetConfigsReq} {header : Raw.ResponseHeader} {w v t : World Gateway ν}
    {config : Raw.SinkReadConfig} (hBefore : Returns (beforeConfig env req) w header v)
    (h : Returns (fillSinkReadConfig env) v config t) : IsCached env req config w t := by
  unfold IsCached
  rw [hBefore.leaves]
  obtain ⟨g, u, hRead, hRest⟩ := returns_bind.mp h
  obtain ⟨rfl, rfl⟩ := returns_read.mp hRead
  rcases returns_ite.mp hRest with ⟨hFits, hAsk⟩ | ⟨hLarge, hPure⟩
  · obtain ⟨answer, x, hAnswer, hPure⟩ := returns_bind.mp hAsk
    have hSame : x.gateway = u.gateway := ((asks_gateway env).wpcGetAppConfigData _).returns hAnswer
    cases answer with
    | ok conf =>
      obtain ⟨rfl, rfl⟩ := returns_pure.mp hPure
      rw [hSame, if_pos hFits]
      exact ⟨.ok conf, hAnswer, rfl⟩
    | error error =>
      obtain ⟨rfl, rfl⟩ := returns_pure.mp hPure
      rw [hSame, if_pos hFits]
      exact ⟨.error error, hAnswer, rfl⟩
  · obtain ⟨rfl, rfl⟩ := returns_pure.mp hPure
    rw [if_neg hLarge]
    exact ⟨rfl, rfl⟩

theorem configs_of_handler {req : GetConfigsReq} {memory resp : Raw.GetConfigsResp} {res : AppProtoRes}
    {w t : World Gateway ν}
    (h : Returns (protoConfigHandleGetConfigs env req memory) { w with node := (env.malloc w.node).2 }
      (res, resp) t) :
    resp.configsCount = 1 ∧ IsCached env req (resp.configs 0) w t := by
  obtain ⟨done, u, hStatus, hRest⟩ := returns_bind.mp h
  obtain ⟨header, v, hHeader, hConfig⟩ := returns_bind.mp hRest
  obtain ⟨config, x, hFill, hPure⟩ := returns_bind.mp hConfig
  obtain ⟨hResp, rfl⟩ := returns_pure.mp hPure
  cases hResp
  have hBefore : Returns (beforeConfig env req) w header v :=
    returns_bind.mpr ⟨_, _, returns_ask.mpr ⟨rfl, rfl⟩, returns_bind.mpr ⟨done, u, hStatus, hHeader⟩⟩
  exact ⟨rfl, config_of_fill hBefore hFill⟩

/-- What is read of the message that answers a request for the configurations is what the gateway has
cached of its sink in the end, with the app config that the node answers. -/
theorem configs_read_back {dsapDataTxRequest : UInt8 → Dsap.DataTx → ν → Int × ν} {m : WirepasMessage}
    {req : GetConfigsReq} {memory : ResponseMemory} {size : Nat} {w t : World Gateway ν} {encoded : List UInt8}
    (hRequest : m.request = some (.getConfigs req))
    (h : Returns (wpcProtoHandleRequest env dsapDataTxRequest m memory size) w (.ok, encoded) t) :
    ∃ told config, readConfig encoded = some told ∧ Tells config told ∧ IsCached env req config w t := by
  obtain ⟨request, resp, fields, hSome, hHandler, hFields, rfl, -⟩ := returns_message h
  obtain rfl : request = .getConfigs req := Option.some.inj (hSome.symm.trans hRequest)
  obtain ⟨⟨res, filled⟩, v, hGet, hPure⟩ := returns_bind.mp hHandler
  obtain ⟨hSame, rfl⟩ := returns_pure.mp hPure
  cases hSame
  obtain ⟨hCount, hCached⟩ := configs_of_handler hGet
  obtain ⟨told, hTold, hRead⟩ := readConfig_encode hCount hFields
  exact ⟨told, filled.configs 0, hRead, Raw.SinkReadConfig.tells hTold, hCached⟩

end Handler

def getConfigsMessage : WirepasMessage := ⟨some ⟨⟨5⟩⟩, none, none, none, none, none, none, none⟩

theorem configs_read_back_initialized :
    ∃ size encoded t, Returns (wpcProtoHandleRequest silentNode (fun _ _ n => (5, n)) getConfigsMessage
        (someMemory 0 false) size) ⟨⟨60, 102⟩, .initialized .zero, ()⟩ (.ok, encoded) t ∧
      ∃ told config, readConfig encoded = some told ∧ Tells config told ∧
        IsCached silentNode ⟨⟨5⟩⟩ config ⟨⟨60, 102⟩, .initialized .zero, ()⟩ t := by
  obtain ⟨resp, t, fields, hHandled, hFields⟩ : ∃ resp t fields,
      Returns (handleMessage silentNode (fun _ _ n => (5, n)) getConfigsMessage (someMemory 0 false))
        ⟨⟨60, 102⟩, .initialized .zero, ()⟩ (.ok, some resp) t ∧ resp.fields = some fields :=
    ⟨_, _, _, rfl, rfl⟩
  let encoded := encode [submessage 1 [submessage resp.number fields]]
  have hReturns : Returns (wpcProtoHandleRequest silentNode (fun _ _ n => (5, n)) getConfigsMessage
      (someMemory 0 false) encoded.length) ⟨⟨60, 102⟩, .initialized .zero, ()⟩ (.ok, encoded) t := by
    refine returns_bind.mpr ⟨_, _, hHandled, returns_pure.mpr ⟨?_, rfl⟩⟩
    -- the buffer has just the size of the message
    exact (encodeResponse_of_fits hFields (Nat.le_refl _)).symm
  exact ⟨_, _, t, hReturns, configs_read_back rfl hReturns⟩

end CMeshApi.Proto
