import CMeshApi.Foundations.Notes
import CMeshApi.Proto.Frames
import CMeshApi.Proto.Unfilled
import CMeshApi.Wpc.Transactions

/-!
# All of a new configuration is attempted

A new configuration asks the node for a stop, for the fields that differ, and for a
start. The writes of fields that the handler requests of the node follow from the
request, from the cache and from what the node tells of its status and of the size of
its app config, whatever else it answers. The handler is told again with notes of what
it calls and of what it checks, which change nothing of its run: the response is an
error if any of them says so.
-/

namespace CMeshApi.Proto

open Programs Noting Wpc

variable {ν : Type} (env : Environment ν)

/-- The fields that are written, those of the keys one by one. -/
inductive ConfigField where
  | nodeRole
  | nodeAddress
  | networkAddress
  | networkChannel
  | appConfig
  | cipherKey
  | authenticationKey
  | accessCycleRange
deriving DecidableEq, Repr

/-- In the order of the handler. -/
def ConfigField.all : List ConfigField :=
  [.nodeRole, .nodeAddress, .networkAddress, .networkChannel, .appConfig, .cipherKey,
    .authenticationKey, .accessCycleRange]

def SinkNewConfig.has (cfg : SinkNewConfig) : ConfigField → Bool
  | .nodeRole => cfg.nodeRole.isSome
  | .nodeAddress => cfg.nodeAddress.isSome
  | .networkAddress => cfg.networkAddress.isSome
  | .networkChannel => cfg.networkChannel.isSome
  | .appConfig => cfg.appConfig.isSome
  | .cipherKey => cfg.keys.isSome
  | .authenticationKey => cfg.keys.isSome
  | .accessCycleRange => cfg.currentAcRange.isSome

inductive Attempt where
  | stopStack
  | setRole (role : UInt8)
  | setNodeAddress (address : UInt32)
  | setNetworkAddress (address : UInt32)
  | setNetworkChannel (channel : UInt8)
  | setAppConfigData (seq : UInt8) (interval : UInt16) (config : List UInt8)
  | setCipherKey (key : List UInt8)
  | setAuthenticationKey (key : List UInt8)
  | setAccessCycleRange (minAc maxAc : UInt16)
  | startStack
deriving DecidableEq, Repr

namespace Attempt

/-- The field that is written; a stop and a start write none. -/
def field : Attempt → Option ConfigField
  | stopStack => none
  | setRole _ => some .nodeRole
  | setNodeAddress _ => some .nodeAddress
  | setNetworkAddress _ => some .networkAddress
  | setNetworkChannel _ => some .networkChannel
  | setAppConfigData _ _ _ => some .appConfig
  | setCipherKey _ => some .cipherKey
  | setAuthenticationKey _ => some .authenticationKey
  | setAccessCycleRange _ _ => some .accessCycleRange
  | startStack => none

def call : Attempt → Call Gateway ν AppRes
  | stopStack => wpcStopStack env
  | setRole role => wpcSetRole env role
  | setNodeAddress address => wpcSetNodeAddress env address
  | setNetworkAddress address => wpcSetNetworkAddress env address
  | setNetworkChannel channel => wpcSetNetworkChannel env channel
  | setAppConfigData seq interval config => wpcSetAppConfigData env seq interval config
  | setCipherKey key => wpcSetCipherKey env key
  | setAuthenticationKey key => wpcSetAuthenticationKey env key
  | setAccessCycleRange minAc maxAc => wpcSetAccessCycleRange env minAc maxAc
  | startStack => Proto.startStack env

/-- What follows a success. -/
def stored : Attempt → Call Gateway ν Unit
  | stopStack => changeConfig fun c => { c with stackStatus := c.stackStatus ||| appStackStopped }
  | setRole role => changeConfig fun c => { c with appNodeRole := role }
  | setNodeAddress address => changeConfig fun c => { c with nodeAddress := address }
  | setNetworkAddress address => changeConfig fun c => { c with networkAddress := address }
  | setNetworkChannel channel => changeConfig fun c => { c with networkChannel := channel }
  | setAppConfigData _ _ _ => pure ()
  | setCipherKey _ => do
    let _ ← getValueFromNode (wpcIsCipherKeySet env) fun v c => { c with cipherKeySet := v }
  | setAuthenticationKey _ => do
    let _ ← getValueFromNode (wpcIsAuthenticationKeySet env) fun v c =>
      { c with authenticationKeySet := v }
  | setAccessCycleRange minAc maxAc =>
    changeConfig fun c => { c with acRangeMinCur := minAc, acRangeMaxCur := maxAc }
  | startStack => do
    let _ ← wpcSetAutostart env 1
    changeConfig fun c => { c with stackStatus := c.stackStatus &&& ~~~appStackStopped }

end Attempt

/-- The attributes of the fields; the app config has a request of its own. -/
def fieldAttributes : List (ConfigField × Sap × UInt16) :=
  [(.nodeRole, .csap, cNodeRoleId), (.nodeAddress, .csap, cNodeAddressId),
    (.networkAddress, .csap, cNetworkAddressId), (.networkChannel, .csap, cNetworkChannelId),
    (.cipherKey, .csap, cCipherKeyId), (.authenticationKey, .csap, cAuthKeyId),
    (.accessCycleRange, .msap, msapAccessCycleRange)]

/-- The field that is written by a request of the node. -/
def writtenField (q : Wpc.Request) : Option ConfigField :=
  match q.payload with
  | .attributeWrite id _ _ =>
    (fieldAttributes.find? fun a => q.primitiveId == a.2.1.writeRequest && id == a.2.2).map Prod.fst
  | .appConfigDataWrite _ _ _ => some .appConfig
  | _ => none

/-- The writes of fields that were requested of the node, in their order. -/
def fieldWrites (trace : List Transaction) : List Wpc.Request :=
  requestsIn (fun q => (writtenField q).isSome) trace

/-- What the node told first of the size of its app config. -/
def sizeTold (trace : List Transaction) : Option (Int × List UInt8) :=
  firstRead .csap cAppConfigDataSizeId trace

/-- A value that is too long for the request is not sent. -/
def attributeRequest (sap : Sap) (id : UInt16) (value : List UInt8) : Option Wpc.Request :=
  if maxAttributeSize < value.length then none else some (attributeWrite sap id value)

/-- An app config is written only if the node told a size that it fits into. -/
def appConfigRequest (told : Option (Int × List UInt8)) (seq : UInt8) (interval : UInt16)
    (config : List UInt8) : Option Wpc.Request :=
  match told.map (readResult 1 byteDecode) with
  | some (.ok maxSize) =>
    if maxSize.toNat < config.length then none else some (appConfigDataWrite seq interval config)
  | _ => none

/-- The write that an attempt requests of the node. -/
def Attempt.request (told : Option (Int × List UInt8)) : Attempt → Option Wpc.Request
  | stopStack => none
  | setRole role => attributeRequest .csap cNodeRoleId [role]
  | setNodeAddress address => attributeRequest .csap cNodeAddressId (uint32EncodeLe address)
  | setNetworkAddress address =>
    if address >>> 24 ≠ 0 then none
    else attributeRequest .csap cNetworkAddressId ((uint32EncodeLe address).take 3)
  | setNetworkChannel channel => attributeRequest .csap cNetworkChannelId [channel]
  | setAppConfigData seq interval config => appConfigRequest told seq interval config
  | setCipherKey key => attributeRequest .csap cCipherKeyId key
  | setAuthenticationKey key => attributeRequest .csap cAuthKeyId key
  | setAccessCycleRange minAc maxAc =>
    attributeRequest .msap msapAccessCycleRange (uint16EncodeLe minAc ++ uint16EncodeLe maxAc)
  | startStack => none

/-- What is done about one field: checks, and a write at the end if all of them pass. -/
inductive FieldStep where
  | done
  | check (inRange : Bool) (next : FieldStep)
  | write (a : Attempt)
deriving DecidableEq, Repr

/-- A value that differs from its cached one is checked and written. -/
def stepOf {α : Type} (field : Option α) (cached : α → Bool) (step : α → FieldStep) : FieldStep :=
  match field with
  | none => .done
  | some value => if cached value then .done else step value

/-- The step of the request for a field, with this cache. -/
def SinkNewConfig.step (cfg : SinkNewConfig) (c : SinkConfig) : ConfigField → FieldStep
  | .nodeRole =>
    stepOf (cfg.nodeRole.map convertRoleToAppFormat) (fun role => role == c.appNodeRole) fun role =>
      .write (.setRole role)
  | .nodeAddress =>
    stepOf cfg.nodeAddress (fun address => address == c.nodeAddress) fun address =>
      .write (.setNodeAddress address)
  | .networkAddress =>
    stepOf cfg.networkAddress (fun address => address == c.networkAddress.toUInt64) fun address =>
      .check (address ≤ 0xffffffff) (.write (.setNetworkAddress address.toUInt32))
  | .networkChannel =>
    stepOf cfg.networkChannel (fun channel => channel == c.networkChannel.toUInt32) fun channel =>
      .check (channel ≤ 0xff) (.write (.setNetworkChannel channel.toUInt8))
  | .appConfig =>
    stepOf cfg.appConfig (fun _ => false) fun config =>
      .check (config.seq ≤ 0xff) (.check (config.diagIntervalS ≤ 0xffff)
        (.write (.setAppConfigData config.seq.toUInt8 config.diagIntervalS.toUInt16
          config.appConfigData)))
  | .cipherKey =>
    stepOf cfg.keys (fun _ => false) fun keys => .write (.setCipherKey keys.cipher)
  | .authenticationKey =>
    stepOf cfg.keys (fun _ => false) fun keys => .write (.setAuthenticationKey keys.authentication)
  | .accessCycleRange =>
    stepOf cfg.currentAcRange (fun _ => false) fun range =>
      .check range.inRange (if range.cached c then .done
        else .write (.setAccessCycleRange range.minMs.toUInt16 range.maxMs.toUInt16))

/-- A range check that was evaluated, or a call with its result. -/
inductive ConfigEvent where
  | checked (inRange : Bool)
  | called (a : Attempt) (res : AppRes)
deriving DecidableEq, Repr

def ConfigEvent.passed : ConfigEvent → Prop
  | .checked inRange => inRange
  | .called _ res => res = .ok

def ConfigEvent.attempt : ConfigEvent → Option Attempt
  | .checked _ => none
  | .called a _ => some a

/-- Of a list of events, the calls with their values in their order. -/
def attempts (events : List ConfigEvent) : List Attempt := events.filterMap ConfigEvent.attempt

abbrev Noted (ν α : Type) := Noting (World Gateway ν) ConfigEvent α

def notedSetValue (a : Attempt) (p : Progress) : Noted ν Progress := do
  let res ← noting (ConfigEvent.called a) (a.call env)
  if res ≠ .ok then return p.failed
  else
    silently (a.stored env)
    return p.changed

def FieldStep.noted : FieldStep → Progress → Noted ν Progress
  | .done, p => return p
  | .check inRange next, p => do
    note (.checked inRange)
    if inRange then next.noted p else return p.failed
  | .write a, p => notedSetValue env a p

def notedSetField (cfg : SinkNewConfig) (field : ConfigField) (p : Progress) : Noted ν Progress := do
  let g ← silently gateway
  (cfg.step g.sinkConfig field).noted env p

def notedStopForConfig (p : Progress) : Noted ν Progress := do
  let _ ← silently (wpcSetAutostart env 0)
  notedSetValue env .stopStack p

def notedSetFields (cfg : SinkNewConfig) : List ConfigField → Progress → Noted ν Progress
  | [], p => return p
  | field :: fields, p => do
    let p ← notedSetField env cfg field p
    notedSetFields cfg fields p

def notedRestartForConfig (p : Progress) : Noted ν Progress := do
  let res ← noting (ConfigEvent.called .startStack) (startStack env)
  if res ≠ .ok then
    return { p with globalRes := if p.globalRes = .ok then res else p.globalRes }
  else
    silently (Attempt.startStack.stored env)
    return p

def notedApplyConfig (cfg : SinkNewConfig) : Noted ν AppRes := do
  let _ ← silently (getValueFromNode (wpcGetStackStatus env) fun v c => { c with stackStatus := v })
  let g ← silently gateway
  let actions := stackActions g.sinkConfig.stackStatus cfg
  let p : Progress := ⟨.ok, actions.configHasChanged⟩
  let p ← (if actions.stopStack then notedStopForConfig env p else pure p)
  let p ← notedSetFields env cfg ConfigField.all p
  let p ← (if actions.restartStack then notedRestartForConfig env p else pure p)
  silently (if p.configHasChanged then onStackStatusReceived env ignoreStatus else pure ())
  return p.globalRes

def notedSetConfig (req : SetConfigReq) (resp : Raw.SetConfigResp) :
    Noted ν (AppProtoRes × Raw.SetConfigResp) := do
  let g ← silently gateway
  if req.config.sinkId.chars ≠ g.ids.sinkId.chars then
    let header ← silently (fillResponseHeader env req.header .invalidSinkId)
    return (.ok, { resp with header := header })
  else
    let globalRes ← notedApplyConfig env req.config
    let header ← silently (fillResponseHeader env req.header (commonConvertErrorCode globalRes))
    let config ← silently (fillSinkReadConfig env)
    return (.ok, { resp with header := header, config := config })

section Erasure

variable {env}

theorem erases_setValue (a : Attempt) (p : Progress) :
    Erases (notedSetValue env a p) (setValue (a.call env) (a.stored env) p) := by
  apply Erases.bind (.noting _ _)
  intro res
  apply Erases.ite (.pure _)
  exact Erases.bind (.silently _) fun _ => .pure _

/-- A check before a write. -/
theorem erases_check {inRange : Bool} (a : Attempt) (p : Progress) :
    Erases ((FieldStep.check inRange (.write a)).noted env p)
      (if inRange then setValue (a.call env) (a.stored env) p else pure p.failed) :=
  Erases.note_then (Erases.ite (erases_setValue a p) (.pure _))

/-- What is done about a field is told by its step. -/
theorem erases_setField {α : Type} {cfg : SinkNewConfig} {field : ConfigField} {value : Option α}
    {cached : SinkConfig → α → Bool} {inRange : α → Bool} {step : α → FieldStep}
    {write : α → Call Gateway ν AppRes} {store : α → SinkConfig → SinkConfig}
    (hStep : ∀ c, cfg.step c field = stepOf value (cached c) step)
    (hErases : ∀ v p, Erases ((step v).noted env p)
      (if inRange v then setValue (write v) (changeConfig (store v)) p else pure p.failed))
    (p : Progress) :
    Erases (notedSetField env cfg field p) (setField value cached inRange write store p) := by
  apply Erases.bind (.silently _)
  intro g
  rw [hStep]
  unfold stepOf
  cases value with
  | none => exact .pure _
  | some v =>
    dsimp only
    cases cached g.sinkConfig v with
    | true => exact .pure _
    | false => exact hErases v p

theorem erases_setNodeRole (cfg : SinkNewConfig) (p : Progress) :
    Erases (notedSetField env cfg .nodeRole p) (setNodeRole env cfg p) := by
  apply erases_setField
  · exact fun _ => rfl
  · exact fun role => erases_setValue (.setRole role)

theorem erases_setNodeAddress (cfg : SinkNewConfig) (p : Progress) :
    Erases (notedSetField env cfg .nodeAddress p) (setNodeAddress env cfg p) := by
  apply erases_setField
  · exact fun _ => rfl
  · exact fun address => erases_setValue (.setNodeAddress address)

theorem erases_setNetworkAddress (cfg : SinkNewConfig) (p : Progress) :
    Erases (notedSetField env cfg .networkAddress p) (setNetworkAddress env cfg p) := by
  apply erases_setField
  · exact fun _ => rfl
  · exact fun address => erases_check (.setNetworkAddress address.toUInt32)

theorem erases_setNetworkChannel (cfg : SinkNewConfig) (p : Progress) :
    Erases (notedSetField env cfg .networkChannel p) (setNetworkChannel env cfg p) := by
  apply erases_setField
  · exact fun _ => rfl
  · exact fun channel => erases_check (.setNetworkChannel channel.toUInt8)

/-- A check that the source makes the other way round: it looks for what is too large. -/
theorem erases_limit {x max : UInt32} {next : FieldStep} {q : Call Gateway ν Progress} {p : Progress}
    (h : Erases (next.noted env p) q) :
    Erases ((FieldStep.check (x ≤ max) next).noted env p)
      (if max < x then pure p.failed else q) := by
  apply Erases.note_then
  cases hFits : decide (x ≤ max) with
  | true =>
    rw [if_pos rfl, if_neg (UInt32.not_lt.mpr (of_decide_eq_true hFits))]
    exact h
  | false =>
    rw [if_neg Bool.false_ne_true, if_pos (UInt32.not_le.mp (of_decide_eq_false hFits))]
    exact .pure _

theorem erases_setAppConfig (cfg : SinkNewConfig) (p : Progress) :
    Erases (notedSetField env cfg .appConfig p) (setAppConfig env cfg p) := by
  apply Erases.read_then
  intro g
  unfold SinkNewConfig.step stepOf setAppConfig
  cases cfg.appConfig with
  | none => exact .pure _
  | some config =>
    apply erases_limit
    apply erases_limit
    exact erases_setValue _ p

variable (env) in
theorem erases_setKey (cfg : SinkNewConfig) (field : ConfigField) (write : NetworkKeys → Attempt)
    (hStep : ∀ c, cfg.step c field = stepOf cfg.keys (fun _ => false) fun keys => .write (write keys))
    (p : Progress) :
    Erases (notedSetField env cfg field p) (match cfg.keys with
      | none => pure p
      | some keys => setValue ((write keys).call env) ((write keys).stored env) p) := by
  apply Erases.read_then
  intro g
  rw [hStep]
  cases cfg.keys with
  | none => exact .pure _
  | some keys => exact erases_setValue _ p

variable (env) in
/-- Both keys are fields, and one statement of the source. -/
theorem erases_setKeys (cfg : SinkNewConfig) (p : Progress) :
    Erases (do
      let p ← notedSetField env cfg .cipherKey p
      notedSetField env cfg .authenticationKey p) (setKeys env cfg p) := by
  have hBoth := Erases.bind
    (erases_setKey env cfg .cipherKey (fun keys => .setCipherKey keys.cipher) (fun _ => rfl) p)
    (erases_setKey env cfg .authenticationKey (fun keys => .setAuthenticationKey keys.authentication)
      fun _ => rfl)
  unfold setKeys
  cases hKeys : cfg.keys with
  | none =>
    rw [hKeys] at hBoth
    exact hBoth
  | some keys =>
    rw [hKeys] at hBoth
    exact hBoth

variable (env) in
theorem erases_setAcRange (cfg : SinkNewConfig) (p : Progress) :
    Erases (notedSetField env cfg .accessCycleRange p) (setAcRange env cfg p) := by
  apply Erases.bind (.silently _)
  intro g
  unfold SinkNewConfig.step stepOf
  cases cfg.currentAcRange with
  | none => exact .pure _
  | some range =>
    apply Erases.note_then
    apply Erases.ite _ (.pure _)
    cases range.cached g.sinkConfig with
    | true => exact .pure _
    | false => exact erases_setValue _ p

theorem erases_setFields (cfg : SinkNewConfig) (p : Progress) :
    Erases (notedSetFields env cfg ConfigField.all p) (setFields env cfg p) := by
  apply Erases.bind (erases_setNodeRole cfg p)
  intro p
  apply Erases.bind (erases_setNodeAddress cfg p)
  intro p
  apply Erases.bind (erases_setNetworkAddress cfg p)
  intro p
  apply Erases.bind (erases_setNetworkChannel cfg p)
  intro p
  apply Erases.bind (erases_setAppConfig cfg p)
  intro p
  have hLast := Erases.bind (erases_setKeys env cfg p) (erases_setAcRange env cfg)
  rw [bind_assoc] at hLast
  simp only [notedSetFields, bind_pure]
  exact hLast

theorem erases_stopForConfig (p : Progress) :
    Erases (notedStopForConfig env p) (stopForConfig env p) :=
  Erases.bind (.silently _) fun _ => erases_setValue .stopStack p

theorem erases_restartForConfig (p : Progress) :
    Erases (notedRestartForConfig env p) (restartForConfig env p) := by
  apply Erases.bind (.noting _ _)
  intro res
  apply Erases.ite (.pure _)
  have hStored : Erases (do
      silently (Attempt.startStack.stored env)
      return p : Noted ν Progress) (do
        Attempt.startStack.stored env
        return p) := Erases.bind (.silently _) fun _ => .pure p
  simp only [Attempt.stored, bind_assoc] at hStored
  exact hStored

theorem erases_applyConfig (cfg : SinkNewConfig) :
    Erases (notedApplyConfig env cfg) (applyConfig env cfg) := by
  apply Erases.bind (.silently _)
  intro _
  apply Erases.bind (.silently _)
  intro g
  apply Erases.bind (Erases.ite (erases_stopForConfig _) (.pure _))
  intro p
  apply Erases.bind (erases_setFields cfg p)
  intro p
  apply Erases.bind (Erases.ite (erases_restartForConfig p) (.pure p))
  intro p
  exact Erases.bind (.silently _) fun _ => .pure _

/-- Without its notes, it is the handler. -/
theorem erases_setConfig (req : SetConfigReq) (resp : Raw.SetConfigResp) :
    Erases (notedSetConfig env req resp) (protoConfigHandleSetConfig env req resp) := by
  apply Erases.bind (.silently _)
  intro g
  apply Erases.ite
  · exact Erases.bind (.silently _) fun _ => .pure _
  · apply Erases.bind (erases_applyConfig req.config)
    intro globalRes
    apply Erases.bind (.silently _)
    intro header
    exact Erases.bind (.silently _) fun _ => .pure _

end Erasure

/-- What the request does about every other field is as before. -/
def OthersKept (cfg : SinkNewConfig) (own : Option ConfigField) (w t : World Gateway ν) : Prop :=
  ∀ field, own ≠ some field →
    cfg.step t.gateway.sinkConfig field = cfg.step w.gateway.sinkConfig field

/-- The relation holds along all that is read and stored for one field. The size of the app config
is read for the app config only. -/
structure Spares (env : Environment ν) (own : Option ConfigField)
    (r : World Gateway ν → World Gateway ν → Prop) : Prop where
  composes : Composes r
  clock : Along r fun n => (env.timestampMsMonotonic n).2
  attributeRead : ∀ sap id, (id = cAppConfigDataSizeId → own = some .appConfig) →
    Along r fun n => (env.attributeRead sap id n).2
  autostart : ∀ on, Sends env r (attributeWrite .msap msapAutostart [on])
  stores : ∀ f : SinkConfig → SinkConfig,
    (∀ (cfg : SinkNewConfig) c field, own ≠ some field → cfg.step (f c) field = cfg.step c field) →
      Stores r f

theorem spares_of_asks {env : Environment ν} {r : World Gateway ν → World Gateway ν → Prop}
    (h : Asks env r) (hStores : ∀ f, Stores r f)
    (hAutostart : ∀ on, Sends env r (attributeWrite .msap msapAutostart [on]))
    (own : Option ConfigField) : Spares env own r where
  composes := h.composes
  clock := h.timestampMsMonotonic
  attributeRead sap id _ := h.attributeRead sap id
  autostart := hAutostart
  stores f _ := hStores f

theorem composes_othersKept {cfg : SinkNewConfig} (own : Option ConfigField) :
    Composes (OthersKept cfg own : World Gateway ν → World Gateway ν → Prop) where
  refl _ _ _ := rfl
  trans h h' field hOther := (h' field hOther).trans (h field hOther)

theorem spares_othersKept (cfg : SinkNewConfig) (own : Option ConfigField) :
    Spares env own (OthersKept cfg own) where
  composes := composes_othersKept own
  clock _ _ _ := rfl
  attributeRead _ _ _ _ _ _ := rfl
  autostart _ _ _ _ := rfl
  stores _ hStep _ field hOther := hStep cfg _ field hOther

section Frames

variable {env} {cfg : SinkNewConfig} {r : World Gateway ν → World Gateway ν → Prop}

/-- A call that only asks and requests. -/
theorem moves_call {a : Attempt} (h : Spares env a.field r) (hSends : ∀ q, Sends env r q)
    (hStart : a ≠ .startStack) : Moves r (a.call env) := by
  have hr : Composes r := h.composes
  cases a with
  | stopStack => exact moves_wpcStopStack hr h.clock (h.attributeRead _ _ nofun) (hSends _)
  | setRole role => exact moves_writeAttribute hr (hSends _)
  | setNodeAddress address => exact moves_writeAttribute hr (hSends _)
  | setNetworkAddress address => exact moves_wpcSetNetworkAddress hr (hSends _)
  | setNetworkChannel channel => exact moves_writeAttribute hr (hSends _)
  | setAppConfigData seq interval config =>
    exact moves_wpcSetAppConfigData hr (h.attributeRead _ _ fun _ => rfl) (hSends _)
  | setCipherKey key => exact moves_writeAttribute hr (hSends _)
  | setAuthenticationKey key => exact moves_writeAttribute hr (hSends _)
  | setAccessCycleRange minAc maxAc => exact moves_writeAttribute hr (hSends _)
  | startStack => exact absurd rfl hStart

theorem moves_keyStored {own : Option ConfigField} (h : Spares env own r) {id : UInt16}
    (hId : id ≠ cAppConfigDataSizeId) {store : Bool → SinkConfig → SinkConfig}
    (hStore : ∀ v (cfg : SinkNewConfig) c field, own ≠ some field →
      cfg.step (store v c) field = cfg.step c field) :
    Moves r (do
      let _ ← getValueFromNode (isKeySet env id) store) := by
  apply Moves.bind h.composes _ fun _ => .pure h.composes _
  apply Moves.bind h.composes
  · exact moves_isKeySet h.composes (h.attributeRead _ _ fun hSize => absurd hSize hId)
  · intro result
    split
    · exact Moves.bind h.composes (h.stores _ (hStore _)).changeConfig fun _ => .pure h.composes _
    · exact .pure h.composes _

/-- What is stored of one field does not change the step of another. -/
theorem moves_stored (a : Attempt) (h : Spares env a.field r) : Moves r (a.stored env) := by
  cases a
  case setAppConfigData seq interval config => exact .pure h.composes _
  case setCipherKey key =>
    exact moves_keyStored h (by decide) fun v cfg c field hOther => by cases field <;> rfl
  case setAuthenticationKey key =>
    exact moves_keyStored h (by decide) fun v cfg c field hOther => by cases field <;> rfl
  case startStack =>
    apply Moves.bind h.composes (moves_writeAttribute h.composes (h.autostart 1))
    exact fun _ => (h.stores _ fun cfg c field hOther => by cases field <;> rfl).changeConfig
  all_goals
    apply Stores.changeConfig
    apply h.stores
    exact fun cfg c field hOther => by cases field <;> first | rfl | exact absurd rfl hOther

/-- What a step writes, if its checks pass. -/
def FieldStep.writes : FieldStep → Option Attempt
  | .done => none
  | .check _ next => next.writes
  | .write a => some a

theorem writes_stepOf {α : Type} {field : Option α} {cached : α → Bool} {step : α → FieldStep}
    {a : Attempt} (h : a ∈ (stepOf field cached step).writes) :
    ∃ value, field = some value ∧ a ∈ (step value).writes := by
  unfold stepOf at h
  cases field with
  | none => exact absurd h (Option.not_mem_none a)
  | some value =>
    dsimp only at h
    split at h
    · exact absurd h (Option.not_mem_none a)
    · exact ⟨value, rfl, h⟩

/-- The step for a field writes this field, and only if the request has it. -/
theorem writes_step {c : SinkConfig} {field : ConfigField} {a : Attempt}
    (h : a ∈ (cfg.step c field).writes) : a.field = some field ∧ cfg.has field := by
  cases field
  case nodeRole =>
    obtain ⟨role, hRole, hWrite⟩ := writes_stepOf h
    obtain rfl : _ = a := Option.some.inj hWrite
    obtain ⟨value, hValue, -⟩ := Option.map_eq_some_iff.mp hRole
    exact ⟨rfl, Option.isSome_of_mem hValue⟩
  case accessCycleRange =>
    obtain ⟨range, hRange, hWrite⟩ := writes_stepOf h
    unfold FieldStep.writes at hWrite
    split at hWrite
    · exact absurd hWrite (Option.not_mem_none a)
    · obtain rfl : _ = a := Option.some.inj hWrite
      exact ⟨rfl, Option.isSome_of_mem hRange⟩
  all_goals
    obtain ⟨value, hValue, hWrite⟩ := writes_stepOf h
    obtain rfl : _ = a := Option.some.inj hWrite
    exact ⟨rfl, Option.isSome_of_mem hValue⟩

theorem moves_notedSetValue {a : Attempt} (h : Spares env a.field r) (hSends : ∀ q, Sends env r q)
    (hStart : a ≠ .startStack) (p : Progress) :
    Moves (fun s t => r s.1 t.1) (notedSetValue env a p) := by
  have hr : Composes fun s t : World Gateway ν × List ConfigEvent => r s.1 t.1 :=
    composes_noting h.composes
  apply Moves.bind hr (moves_noting (moves_call h hSends hStart))
  intro res
  apply Moves.ite (.pure hr _)
  exact Moves.bind hr (moves_silently (moves_stored a h)) fun _ => .pure hr _

theorem moves_noted {field : ConfigField} (h : Spares env (some field) r)
    (hSends : ∀ q, Sends env r q) {step : FieldStep}
    (hWrites : ∀ a ∈ step.writes, a.field = some field) (p : Progress) :
    Moves (fun s t => r s.1 t.1) (step.noted env p) := by
  have hr : Composes fun s t : World Gateway ν × List ConfigEvent => r s.1 t.1 :=
    composes_noting h.composes
  induction step with
  | done => exact .pure hr _
  | check inRange next ih =>
    apply Moves.bind hr (moves_note h.composes _)
    intro _
    exact Moves.ite (ih hWrites) (.pure hr _)
  | write a =>
    have hField : a.field = some field := hWrites a rfl
    rw [← hField] at h
    apply moves_notedSetValue h hSends
    rintro rfl
    cases hField

theorem moves_notedSetField {field : ConfigField} (h : Spares env (some field) r)
    (hSends : ∀ q, Sends env r q) (p : Progress) :
    Moves (fun s t => r s.1 t.1) (notedSetField env cfg field p) := by
  apply Moves.bind (composes_noting h.composes) (moves_silently (moves_gateway h.composes))
  intro g
  exact moves_noted h hSends (fun a hWrite => (writes_step hWrite).1) p

theorem moves_notedSetFields (h : ∀ field, Spares env (some field) r)
    (hSends : ∀ q, Sends env r q) (fields : List ConfigField) (p : Progress) :
    Moves (fun s t => r s.1 t.1) (notedSetFields env cfg fields p) := by
  have hr : Composes fun s t : World Gateway ν × List ConfigEvent => r s.1 t.1 :=
    composes_noting (h .nodeRole).composes
  induction fields generalizing p with
  | nil => exact .pure hr _
  | cons field fields ih => exact Moves.bind hr (moves_notedSetField (h field) hSends p) ih

theorem moves_notedStopForConfig (h : Spares env none r) (hSends : ∀ q, Sends env r q)
    (p : Progress) : Moves (fun s t => r s.1 t.1) (notedStopForConfig env p) := by
  apply Moves.bind (composes_noting h.composes)
  · exact moves_silently (moves_writeAttribute h.composes (h.autostart 0))
  · intro _
    exact moves_notedSetValue (a := .stopStack) h hSends nofun p

end Frames

section Record

variable {env} {cfg : SinkNewConfig}

/-- A world whose node is followed by a record of what it was asked. -/
abbrev Traced (ν : Type) := World Gateway (List Transaction × ν)

theorem asks_fieldWrites : Asks env.traced fun w t : Traced ν => fieldWrites t.trace = fieldWrites w.trace :=
  asks_requestsIn env _

theorem refreshes_fieldWrites :
    Refreshes env.traced fun w t : Traced ν => fieldWrites t.trace = fieldWrites w.trace :=
  refreshes_of_stores asks_fieldWrites (fun _ _ => rfl) fun _ _ => rfl

theorem spares_fieldWrites (own : Option ConfigField) :
    Spares env.traced own fun w t : Traced ν => fieldWrites t.trace = fieldWrites w.trace :=
  spares_of_asks asks_fieldWrites (fun _ _ => rfl) (fun _ => sends_requestsIn env rfl) own

theorem refreshes_grows : Refreshes env.traced fun w t : Traced ν => w.trace <+: t.trace :=
  refreshes_of_stores (asks_grows env) (fun _ w => List.prefix_refl w.trace)
    fun _ w => List.prefix_refl w.trace

theorem spares_grows (own : Option ConfigField) :
    Spares env.traced own fun w t : Traced ν => w.trace <+: t.trace :=
  spares_of_asks (asks_grows env) (fun _ w => List.prefix_refl w.trace) (fun _ => sends_grows env _) own

/-- What is told of the size of the app config is told for the app config. -/
theorem spares_sizeTold {own : Option ConfigField} (hOwn : own ≠ some .appConfig) :
    Spares env.traced own fun w t : Traced ν => sizeTold t.trace = sizeTold w.trace where
  composes := composes_eq fun w : Traced ν => sizeTold w.trace
  clock _ := rfl
  attributeRead _ _ hSize _ := firstRead_snoc_of_ne fun hId => hOwn (hSize hId)
  autostart _ _ := firstRead_snoc_request _
  stores _ _ _ := rfl

theorem sends_sizeTold (q : Wpc.Request) :
    Sends env.traced (fun w t : Traced ν => sizeTold t.trace = sizeTold w.trace) q :=
  fun _ => firstRead_snoc_request _

variable {w t : Traced ν} {told : Option (Int × List UInt8)}

theorem fieldWrites_request {q : Wpc.Request} {field : ConfigField} (h : writtenField q = some field)
    {res : Int} (hAsked : Returns (ask (env.traced.request q)) w res t) :
    fieldWrites t.trace = fieldWrites w.trace ++ [q] := by
  obtain ⟨-, rfl⟩ := returns_ask.mp hAsked
  exact requestsIn_snoc_of_kind (by rw [h]; rfl) _

theorem fieldWrites_writeAttribute {sap : Sap} {id : UInt16} {value : List UInt8} {field : ConfigField}
    (hField : writtenField (attributeWrite sap id value) = some field) {res : AppRes}
    (h : Returns (writeAttribute env.traced sap id value) w res t) :
    fieldWrites t.trace = fieldWrites w.trace ++ (attributeRequest sap id value).toList := by
  obtain ⟨answer, u, hRequest, hPure⟩ := returns_bind.mp h
  obtain ⟨-, rfl⟩ := returns_pure.mp hPure
  unfold attributeRequest
  rcases returns_ite.mp hRequest with ⟨hLong, hNone⟩ | ⟨hFits, hAsked⟩
  · obtain ⟨-, rfl⟩ := returns_pure.mp hNone
    rw [if_pos hLong]
    exact (List.append_nil _).symm
  · rw [if_neg hFits]
    exact fieldWrites_request hField hAsked

/-- The size is told first, and then the app config is written, if it fits. -/
theorem fieldWrites_wpcSetAppConfigData {seq : UInt8} {interval : UInt16} {config : List UInt8}
    (hNone : sizeTold w.trace = none) (hTold : ∀ answer, sizeTold t.trace = some answer → told = some answer)
    {res : AppRes} (h : Returns (wpcSetAppConfigData env.traced seq interval config) w res t) :
    fieldWrites t.trace = fieldWrites w.trace ++ (appConfigRequest told seq interval config).toList := by
  obtain ⟨result, u, hSize, hRest⟩ := returns_bind.mp h
  obtain ⟨hResult, hRead⟩ := (returns_readAttribute env.traced).mp hSize
  have hKept : fieldWrites u.trace = fieldWrites w.trace := by
    rw [hRead]
    exact requestsIn_snoc_read _ _ _
  have hFirst : sizeTold u.trace = some (env.attributeRead .csap cAppConfigDataSizeId w.node.2).1 := by
    rw [hRead]
    exact firstRead_snoc hNone
  have hGrows : u.trace <+: t.trace := by
    have hr : Composes fun w t : Traced ν => w.trace <+: t.trace := composes_prefix
    refine Moves.returns (r := fun w t : Traced ν => w.trace <+: t.trace) ?_ hRest
    split
    · exact .pure hr _
    · apply Moves.ite (.pure hr _)
      exact Moves.bind hr (sends_grows env _) fun _ => .pure hr _
  have hPermits : told.map (readResult 1 byteDecode) = some result := by
    rw [hTold _ (firstRead_mono hGrows hFirst), hResult]
    rfl
  unfold appConfigRequest
  rw [hPermits, ← hKept]
  cases result with
  | error error =>
    obtain ⟨-, rfl⟩ := returns_pure.mp hRest
    exact (List.append_nil _).symm
  | ok maxSize =>
    dsimp only
    rcases returns_ite.mp hRest with ⟨hLong, hPure⟩ | ⟨hFits, hRest⟩
    · obtain ⟨-, rfl⟩ := returns_pure.mp hPure
      rw [if_pos hLong]
      exact (List.append_nil _).symm
    · obtain ⟨answer, v, hAsked, hPure⟩ := returns_bind.mp hRest
      obtain ⟨-, rfl⟩ := returns_pure.mp hPure
      rw [if_neg hFits]
      exact fieldWrites_request rfl hAsked

/-- An attempt requests its own write of the node, and no other. -/
theorem fieldWrites_call {a : Attempt} (hNone : a.field = some .appConfig → sizeTold w.trace = none)
    (hTold : ∀ answer, sizeTold t.trace = some answer → told = some answer) {res : AppRes}
    (h : Returns (a.call env.traced) w res t) :
    fieldWrites t.trace = fieldWrites w.trace ++ (a.request told).toList := by
  cases a with
  | stopStack =>
    exact ((asks_fieldWrites.wpcStopStack (sends_requestsIn env rfl)).returns h).trans
      (List.append_nil _).symm
  | setRole role => exact fieldWrites_writeAttribute rfl h
  | setNodeAddress address => exact fieldWrites_writeAttribute rfl h
  | setNetworkAddress address =>
    change _ = _ ++ (if address >>> 24 ≠ 0 then none
      else attributeRequest .csap cNetworkAddressId ((uint32EncodeLe address).take 3)).toList
    rcases returns_ite.mp h with ⟨hHigh, hPure⟩ | ⟨hLow, hWrite⟩
    · obtain ⟨-, rfl⟩ := returns_pure.mp hPure
      rw [if_pos hHigh]
      exact (List.append_nil _).symm
    · rw [if_neg hLow]
      exact fieldWrites_writeAttribute rfl hWrite
  | setNetworkChannel channel => exact fieldWrites_writeAttribute rfl h
  | setAppConfigData seq interval config => exact fieldWrites_wpcSetAppConfigData (hNone rfl) hTold h
  | setCipherKey key => exact fieldWrites_writeAttribute rfl h
  | setAuthenticationKey key => exact fieldWrites_writeAttribute rfl h
  | setAccessCycleRange minAc maxAc => exact fieldWrites_writeAttribute rfl h
  | startStack =>
    exact ((refreshes_fieldWrites.startStack (sends_requestsIn env rfl)).returns h).trans
      (List.append_nil _).symm

end Record

/-- Between the two results these calls were attempted: the writes that they request were requested
of the node, and the result is a success if it was one before, and none of what was noted in between
failed. -/
structure Accounts (told : Option (Int × List UInt8)) (attempted : List Attempt) (res res' : AppRes)
    (s t : Traced ν × List ConfigEvent) : Prop where
  noted : ∃ events, t.2 = s.2 ++ events ∧ attempts events = attempted ∧
    (res' = .ok ↔ res = .ok ∧ ∀ e ∈ events, e.passed)
  requested : fieldWrites t.1.trace = fieldWrites s.1.trace ++ attempted.filterMap (Attempt.request told)

namespace Accounts

variable {told : Option (Int × List UInt8)} {as as' : List Attempt} {res res' res'' : AppRes}
  {s t u : Traced ν × List ConfigEvent}

/-- Nothing was noted, and no field written. -/
theorem silent (hNotes : t.2 = s.2) (hWrites : fieldWrites t.1.trace = fieldWrites s.1.trace)
    (res : AppRes) : Accounts told [] res res s t where
  noted := by
    refine ⟨[], hNotes.trans (List.append_nil _).symm, rfl, ?_⟩
    simp only [List.not_mem_nil, false_implies, implies_true, and_true]
  requested := hWrites.trans (List.append_nil _).symm

theorem refl (res : AppRes) (s : Traced ν × List ConfigEvent) : Accounts told [] res res s s :=
  silent rfl rfl res

theorem single {e : ConfigEvent} (h : res' = .ok ↔ res = .ok ∧ e.passed) (hNotes : t.2 = s.2 ++ [e])
    (hWrites : fieldWrites t.1.trace =
      fieldWrites s.1.trace ++ e.attempt.toList.filterMap (Attempt.request told)) :
    Accounts told e.attempt.toList res res' s t where
  noted := by
    refine ⟨[e], hNotes, ?_, ?_⟩
    · unfold attempts
      cases hAttempt : e.attempt with
      | none => rw [List.filterMap_cons_none hAttempt]; rfl
      | some a => rw [List.filterMap_cons_some hAttempt]; rfl
    · rw [List.forall_mem_singleton]
      exact h
  requested := hWrites

theorem checked {inRange : Bool} (h : res' = .ok ↔ res = .ok ∧ inRange)
    (s : Traced ν × List ConfigEvent) :
    Accounts told [] res res' s (s.1, s.2 ++ [.checked inRange]) :=
  single (s := s) (e := .checked inRange) h rfl (List.append_nil (fieldWrites s.1.trace)).symm

theorem trans (h : Accounts told as res res' s t) (h' : Accounts told as' res' res'' t u) :
    Accounts told (as ++ as') res res'' s u where
  noted := by
    obtain ⟨events, hNotes, rfl, hOk⟩ := h.noted
    obtain ⟨events', hNotes', rfl, hOk'⟩ := h'.noted
    refine ⟨events ++ events', ?_, List.filterMap_append, ?_⟩
    · rw [hNotes', hNotes, List.append_assoc]
    · rw [hOk', hOk, List.forall_mem_append, and_assoc]
  requested := by
    rw [h'.requested, h.requested, List.append_assoc, List.filterMap_append]

end Accounts

/-- What a step attempts: its write, if its checks pass. -/
def FieldStep.attempt : FieldStep → Option Attempt
  | .done => none
  | .check inRange next => if inRange then next.attempt else none
  | .write a => some a

theorem FieldStep.writes_of_attempt {step : FieldStep} {a : Attempt} (h : a ∈ step.attempt) :
    a ∈ step.writes := by
  induction step with
  | done => exact h
  | check inRange next ih =>
    unfold FieldStep.attempt at h
    split at h
    · exact ih h
    · exact absurd h (Option.not_mem_none a)
  | write b => exact h

theorem Progress.failed_ne_ok (p : Progress) : p.failed.globalRes ≠ .ok := by
  intro h
  cases h

/-- What was told by the end of a run was told in it. -/
def ToldBy (told : Option (Int × List UInt8)) (trace : List Transaction) : Prop :=
  ∀ answer, sizeTold trace = some answer → told = some answer

theorem ToldBy.of_prefix {told : Option (Int × List UInt8)} {trace trace' : List Transaction}
    (h : ToldBy told trace') (hGrows : trace <+: trace') : ToldBy told trace :=
  fun answer hTold => h answer (firstRead_mono hGrows hTold)

section Accounting

variable {env} {cfg : SinkNewConfig} {told : Option (Int × List UInt8)} {p p' : Progress}
  {s t : Traced ν × List ConfigEvent}

theorem notedSetValue_accounts {a : Attempt}
    (hNone : a.field = some .appConfig → sizeTold s.1.trace = none) (hTold : ToldBy told t.1.trace)
    (h : Returns (notedSetValue env.traced a p) s p' t) :
    Accounts told [a] p.globalRes p'.globalRes s t := by
  obtain ⟨res, u, hCall, hRest⟩ := returns_bind.mp h
  obtain ⟨hCall, hNoted⟩ := returns_noting.mp hCall
  have hSingle : ∀ a : Attempt, [a].filterMap (Attempt.request told) = (a.request told).toList := by
    intro a
    cases hRequest : a.request told with
    | none => exact List.filterMap_cons_none hRequest
    | some q => exact List.filterMap_cons_some hRequest
  rcases returns_ite.mp hRest with ⟨hFailed, hRest⟩ | ⟨hOk, hRest⟩
  · obtain ⟨rfl, rfl⟩ := returns_pure.mp hRest
    apply Accounts.single (e := .called a res) _ hNoted
    · exact (fieldWrites_call hNone hTold hCall).trans (congrArg _ (hSingle a).symm)
    · exact ⟨fun hRes => absurd hRes p.failed_ne_ok, fun hPassed => absurd hPassed.2 hFailed⟩
  · obtain ⟨_, v, hStored, hPure⟩ := returns_bind.mp hRest
    obtain ⟨hStored, hNotes⟩ := returns_silently.mp hStored
    obtain ⟨rfl, rfl⟩ := returns_pure.mp hPure
    have hGrows : u.1.trace <+: t.1.trace :=
      (moves_stored a (spares_grows _)).returns hStored
    have hKept : fieldWrites t.1.trace = fieldWrites u.1.trace :=
      (moves_stored a (spares_fieldWrites _)).returns hStored
    have hOk : res = .ok := not_not.mp hOk
    apply Accounts.single (e := .called a res) _ (hNotes.trans hNoted)
    · rw [hKept]
      exact (fieldWrites_call hNone (hTold.of_prefix hGrows) hCall).trans (congrArg _ (hSingle a).symm)
    · exact ⟨fun hRes => ⟨hRes, hOk⟩, And.left⟩

theorem noted_accounts {step : FieldStep}
    (hNone : ∀ a ∈ step.writes, a.field = some .appConfig → sizeTold s.1.trace = none)
    (hTold : ToldBy told t.1.trace) (h : Returns (step.noted env.traced p) s p' t) :
    Accounts told step.attempt.toList p.globalRes p'.globalRes s t := by
  induction step generalizing s with
  | done =>
    obtain ⟨rfl, rfl⟩ := returns_pure.mp h
    exact .refl _ _
  | check inRange next ih =>
    obtain ⟨_, u, hNote, hRest⟩ := returns_bind.mp h
    obtain rfl := returns_note.mp hNote
    cases inRange with
    | true =>
      have hChecked : Accounts told [] p.globalRes p.globalRes s (s.1, s.2 ++ [.checked true]) :=
        Accounts.checked ⟨fun hRes => ⟨hRes, rfl⟩, And.left⟩ s
      exact hChecked.trans (ih hNone hRest)
    | false =>
      obtain ⟨rfl, rfl⟩ := returns_pure.mp hRest
      apply Accounts.checked
      exact ⟨fun hRes => absurd hRes p.failed_ne_ok, fun hPassed => absurd hPassed.2 Bool.false_ne_true⟩
  | write a => exact notedSetValue_accounts (hNone a rfl) hTold h

theorem notedSetField_accounts {field : ConfigField}
    (hNone : field = .appConfig → sizeTold s.1.trace = none) (hTold : ToldBy told t.1.trace)
    (h : Returns (notedSetField env.traced cfg field p) s p' t) :
    Accounts told (cfg.step s.1.gateway.sinkConfig field).attempt.toList p.globalRes p'.globalRes s t := by
  obtain ⟨g, u, hRead, hStep⟩ := returns_bind.mp h
  obtain ⟨hRead, hNotes⟩ := returns_silently.mp hRead
  obtain ⟨rfl, hSame⟩ := returns_read.mp hRead
  obtain rfl : u = s := Prod.ext hSame hNotes
  refine noted_accounts ?_ hTold hStep
  intro a hWrite hApp
  exact hNone (Option.some.inj ((writes_step hWrite).1.symm.trans hApp))

theorem prefix_notedSetFields {fields : List ConfigField}
    (h : Returns (notedSetFields env.traced cfg fields p) s p' t) : s.1.trace <+: t.1.trace :=
  (moves_notedSetFields (fun _ => spares_grows _) (sends_grows env) fields p).returns h

/-- The steps of the fields follow from the cache before the first of them. -/
theorem notedSetFields_accounts {fields : List ConfigField} (hDistinct : fields.Nodup)
    (hNone : .appConfig ∈ fields → sizeTold s.1.trace = none) (hTold : ToldBy told t.1.trace)
    (h : Returns (notedSetFields env.traced cfg fields p) s p' t) :
    Accounts told (fields.filterMap fun field => (cfg.step s.1.gateway.sinkConfig field).attempt)
      p.globalRes p'.globalRes s t := by
  induction fields generalizing p s with
  | nil =>
    obtain ⟨rfl, rfl⟩ := returns_pure.mp h
    exact .refl _ _
  | cons field fields ih =>
    obtain ⟨q, u, hField, hRest⟩ := returns_bind.mp h
    obtain ⟨hNotIn, hDistinct⟩ := List.nodup_cons.mp hDistinct
    have hKept : OthersKept cfg (some field) s.1 u.1 :=
      (moves_notedSetField (spares_othersKept _ cfg _) (fun _ _ _ _ => rfl) p).returns hField
    have hSame : (fields.filterMap fun field => (cfg.step u.1.gateway.sinkConfig field).attempt) =
        fields.filterMap fun field => (cfg.step s.1.gateway.sinkConfig field).attempt := by
      apply List.filterMap_congr
      intro other hOther
      rw [hKept other fun hEq => hNotIn (Option.some.inj hEq ▸ hOther)]
    have hNoneAfter : .appConfig ∈ fields → sizeTold u.1.trace = none := by
      intro hLater
      have hOther : some field ≠ some .appConfig := fun hEq => hNotIn (Option.some.inj hEq ▸ hLater)
      have hSize : sizeTold u.1.trace = sizeTold s.1.trace :=
        (moves_notedSetField (spares_sizeTold hOther) sends_sizeTold p).returns hField
      rw [hSize]
      exact hNone (List.mem_cons_of_mem field hLater)
    have hFirst := notedSetField_accounts (fun hApp => hNone (hApp ▸ List.mem_cons_self))
      (hTold.of_prefix (prefix_notedSetFields hRest)) hField
    have hAll := hFirst.trans (ih hDistinct hNoneAfter hRest)
    rw [hSame] at hAll
    rw [List.filterMap_cons]
    cases hAttempt : (cfg.step s.1.gateway.sinkConfig field).attempt with
    | none => rwa [hAttempt] at hAll
    | some a => rwa [hAttempt] at hAll

theorem notedStopForConfig_accounts (hTold : ToldBy told t.1.trace)
    (h : Returns (notedStopForConfig env.traced p) s p' t) :
    Accounts told [.stopStack] p.globalRes p'.globalRes s t := by
  obtain ⟨_, u, hAutostart, hStop⟩ := returns_bind.mp h
  obtain ⟨hAutostart, hNotes⟩ := returns_silently.mp hAutostart
  have hWrites : fieldWrites u.1.trace = fieldWrites s.1.trace :=
    (asks_fieldWrites.writeAttribute (sends_requestsIn env rfl)).returns hAutostart
  exact (Accounts.silent hNotes hWrites p.globalRes).trans (notedSetValue_accounts nofun hTold hStop)

theorem notedRestartForConfig_accounts (h : Returns (notedRestartForConfig env.traced p) s p' t) :
    Accounts told [.startStack] p.globalRes p'.globalRes s t := by
  obtain ⟨res, u, hCall, hRest⟩ := returns_bind.mp h
  obtain ⟨hCall, hNoted⟩ := returns_noting.mp hCall
  have hStarted : fieldWrites u.1.trace = fieldWrites s.1.trace :=
    (refreshes_fieldWrites.startStack (sends_requestsIn env rfl)).returns hCall
  rcases returns_ite.mp hRest with ⟨hFailed, hRest⟩ | ⟨hOk, hRest⟩
  · obtain ⟨rfl, rfl⟩ := returns_pure.mp hRest
    apply Accounts.single (e := .called .startStack res) _ hNoted
    · exact hStarted.trans (List.append_nil _).symm
    · constructor
      · intro hRes
        dsimp only at hRes
        split at hRes
        · exact absurd hRes hFailed
        · next hBefore => exact absurd hRes hBefore
      · exact fun hPassed => absurd hPassed.2 hFailed
  · obtain ⟨_, v, hStored, hPure⟩ := returns_bind.mp hRest
    obtain ⟨hStored, hNotes⟩ := returns_silently.mp hStored
    obtain ⟨rfl, rfl⟩ := returns_pure.mp hPure
    have hKept : fieldWrites t.1.trace = fieldWrites u.1.trace :=
      (moves_stored .startStack (spares_fieldWrites _)).returns hStored
    have hOk : res = .ok := not_not.mp hOk
    apply Accounts.single (e := .called .startStack res) _ (hNotes.trans hNoted)
    · exact (hKept.trans hStarted).trans (List.append_nil _).symm
    · exact ⟨fun hRes => ⟨hRes, hOk⟩, And.left⟩

/-- A part that is left out attempts nothing. -/
theorem accounts_of_ite {c : Bool} {q : Noted (List Transaction × ν) Progress} {as : List Attempt}
    (hPart : Returns q s p' t → Accounts told as p.globalRes p'.globalRes s t)
    (h : Returns (if c then q else pure p) s p' t) :
    Accounts told (if c then as else []) p.globalRes p'.globalRes s t := by
  cases c with
  | true => exact hPart h
  | false =>
    obtain ⟨rfl, rfl⟩ := returns_pure.mp h
    exact .refl _ _

end Accounting

/-- The cache after the status was read with this answer of the node. -/
def SinkConfig.withStatus (c : SinkConfig) (answer : Int × List UInt8) : SinkConfig :=
  match readResult 1 byteDecode answer with
  | .ok status => { c with stackStatus := status }
  | .error _ => c

/-- What a request attempts with this cache: a function of the two. -/
def SinkNewConfig.attempts (cfg : SinkNewConfig) (c : SinkConfig) : List Attempt :=
  (if (stackActions c.stackStatus cfg).stopStack then [.stopStack] else []) ++
    ConfigField.all.filterMap (fun field => (cfg.step c field).attempt) ++
      if (stackActions c.stackStatus cfg).restartStack then [.startStack] else []

section Whole

variable {env} {cfg : SinkNewConfig}

theorem returns_status {w t : World Gateway ν} {done : Bool}
    (h : Returns (getValueFromNode (wpcGetStackStatus env) fun v c => { c with stackStatus := v })
      w done t) :
    t.gateway.sinkConfig =
      w.gateway.sinkConfig.withStatus (env.attributeRead .msap msapStackStatus w.node).1 := by
  obtain ⟨result, u, hRead, hRest⟩ := returns_bind.mp h
  obtain ⟨hResult, rfl⟩ := (returns_readAttribute env).mp hRead
  unfold SinkConfig.withStatus
  rw [← hResult]
  cases result with
  | ok status =>
    obtain ⟨_, v, hStore, hPure⟩ := returns_bind.mp hRest
    obtain rfl := returns_change.mp hStore
    obtain ⟨-, rfl⟩ := returns_pure.mp hPure
    rfl
  | error error =>
    obtain ⟨-, rfl⟩ := returns_pure.mp hRest
    rfl

/-- The read of the status tells nothing of the size of the app config. -/
theorem moves_status {r : World Gateway ν → World Gateway ν → Prop} (h : Spares env none r) :
    Moves r (getValueFromNode (wpcGetStackStatus env) fun v c => { c with stackStatus := v }) := by
  apply Moves.bind h.composes
  · exact moves_readAttribute h.composes (h.attributeRead .msap msapStackStatus nofun) _ _
  · intro result
    split
    · exact Moves.bind h.composes
        (h.stores _ fun cfg c field hOther => by cases field <;> rfl).changeConfig
        fun _ => .pure h.composes _
    · exact .pure h.composes _

theorem notedApplyConfig_accounts {told : Option (Int × List UInt8)} {s t : Traced ν × List ConfigEvent}
    {res : AppRes} (hNone : sizeTold s.1.trace = none) (hTold : ToldBy told t.1.trace)
    (h : Returns (notedApplyConfig env.traced cfg) s res t) :
    Accounts told (cfg.attempts (s.1.gateway.sinkConfig.withStatus
      (env.attributeRead .msap msapStackStatus s.1.node.2).1)) .ok res s t := by
  obtain ⟨_, s₁, hStatus, h⟩ := returns_bind.mp h
  obtain ⟨hStatus, hNotes⟩ := returns_silently.mp hStatus
  have hBefore : Accounts told [] .ok .ok s s₁ :=
    Accounts.silent hNotes ((moves_status (spares_fieldWrites none)).returns hStatus) .ok
  have hNone₁ : sizeTold s₁.1.trace = none :=
    ((moves_status (spares_sizeTold nofun)).returns hStatus).trans hNone
  have hCache : s₁.1.gateway.sinkConfig = s.1.gateway.sinkConfig.withStatus
      (env.attributeRead .msap msapStackStatus s.1.node.2).1 := returns_status hStatus
  rw [← hCache]
  obtain ⟨g, s₂, hGateway, h⟩ := returns_bind.mp h
  obtain ⟨hGateway, hNotes⟩ := returns_silently.mp hGateway
  obtain ⟨rfl, hSame⟩ := returns_read.mp hGateway
  obtain rfl : s₂ = s₁ := Prod.ext hSame hNotes
  obtain ⟨p, s₃, hStop, h⟩ := returns_bind.mp h
  obtain ⟨q, s₄, hFields, h⟩ := returns_bind.mp h
  obtain ⟨p', s₅, hRestart, h⟩ := returns_bind.mp h
  obtain ⟨_, s₆, hRefresh, h⟩ := returns_bind.mp h
  obtain ⟨rfl, rfl⟩ := returns_pure.mp h
  obtain ⟨hRefresh, hNotes⟩ := returns_silently.mp hRefresh
  -- What is told by the end is told by the end of the fields, and of the stop before them.
  have hGrows₆ : s₅.1.trace <+: t.1.trace :=
    (Moves.ite (refreshes_grows.onStackStatusReceived _) (.pure composes_prefix _)).returns hRefresh
  have hGrows₅ : s₄.1.trace <+: s₅.1.trace :=
    ((Erases.ite (erases_restartForConfig q) (.pure q)).moves
      (Moves.ite (refreshes_grows.restartForConfig (sends_grows env _) (sends_grows env _) q)
        (.pure composes_prefix q))).returns hRestart
  have hTold₄ : ToldBy told s₄.1.trace := hTold.of_prefix (hGrows₅.trans hGrows₆)
  have hTold₃ : ToldBy told s₃.1.trace := hTold₄.of_prefix (prefix_notedSetFields hFields)
  have hKept : OthersKept cfg none s₂.1 s₃.1 :=
    (Moves.ite (moves_notedStopForConfig (spares_othersKept _ cfg none) (fun _ _ _ _ => rfl) _)
      (.pure (composes_noting (composes_othersKept none)) _)).returns hStop
  have hSteps : (ConfigField.all.filterMap fun field => (cfg.step s₃.1.gateway.sinkConfig field).attempt) =
      ConfigField.all.filterMap fun field => (cfg.step s₂.1.gateway.sinkConfig field).attempt := by
    apply List.filterMap_congr
    intro field _
    rw [hKept field nofun]
  have hNone₃ : sizeTold s₃.1.trace = none :=
    ((Moves.ite (moves_notedStopForConfig (spares_sizeTold nofun) sends_sizeTold _)
      (.pure (composes_noting (composes_eq fun w : Traced ν => sizeTold w.trace)) _)).returns hStop).trans
        hNone₁
  have hFields := notedSetFields_accounts (by decide) (fun _ => hNone₃) hTold₄ hFields
  rw [hSteps] at hFields
  have hAfter : Accounts told [] p'.globalRes p'.globalRes s₅ t :=
    Accounts.silent hNotes ((Moves.ite (refreshes_fieldWrites.onStackStatusReceived _)
      (.pure (composes_eq fun w : Traced ν => fieldWrites w.trace) _)).returns hRefresh) _
  have hAll := (((hBefore.trans (accounts_of_ite (notedStopForConfig_accounts hTold₃) hStop)).trans
    hFields).trans (accounts_of_ite notedRestartForConfig_accounts hRestart)).trans hAfter
  rw [List.append_nil, List.nil_append] at hAll
  exact hAll

end Whole

/-- What is noted of a request. -/
def setConfigEvents (req : SetConfigReq) (resp : Raw.SetConfigResp) (w : World Gateway ν) :
    List ConfigEvent := notes (notedSetConfig env req resp) w

/-- Of a run for this sink, which leaves `t` with the record of what the node was asked. Another run
starts with the same cache and reads the same status of the stack; all else that its node answers
may differ, but for the size of an app config that is to be written. -/
structure AttemptsAll (req : SetConfigReq) (resp : Raw.SetConfigResp) (w : World Gateway ν)
    (answer : AppProtoRes × Raw.SetConfigResp) (t : Traced ν) : Prop where
  /-- With its notes, it is the same run. -/
  noted : Returns (notedSetConfig env.traced req resp) (w.tracing, []) answer
    (t, setConfigEvents env.traced req resp w.tracing)
  requested : fieldWrites t.trace =
    (attempts (setConfigEvents env.traced req resp w.tracing)).filterMap
      (Attempt.request (sizeTold t.trace))
  same : ∀ {ν' : Type} (env' : Environment ν') (resp' : Raw.SetConfigResp) (w' : World Gateway ν')
    (answer' : AppProtoRes × Raw.SetConfigResp) (t' : Traced ν'),
    w'.gateway = w.gateway →
    (env'.attributeRead .msap msapStackStatus w'.node).1 =
      (env.attributeRead .msap msapStackStatus w.node).1 →
    Returns (protoConfigHandleSetConfig env'.traced req resp') w'.tracing answer' t' →
    attempts (setConfigEvents env'.traced req resp' w'.tracing) =
        attempts (setConfigEvents env.traced req resp w.tracing) ∧
      ((req.config.has .appConfig → sizeTold t'.trace = sizeTold t.trace) →
        fieldWrites t'.trace = fieldWrites t.trace)
  succeeds : answer.2.header.res = ErrorCode.ok.value ↔
    ∀ e ∈ setConfigEvents env.traced req resp w.tracing, e.passed
  absent : ∀ q res, .request q res ∈ t.trace → ∀ field, writtenField q = some field →
    req.config.has field

section Runs

variable {env} {req : SetConfigReq} {resp : Raw.SetConfigResp} {w : World Gateway ν}
  {answer : AppProtoRes × Raw.SetConfigResp} {t : Traced ν}

/-- The events of a run, and the result that its response tells. -/
theorem setConfig_accounts (hSink : req.config.sinkId.chars = w.gateway.ids.sinkId.chars)
    (h : Returns (protoConfigHandleSetConfig env.traced req resp) w.tracing answer t) :
    ∃ res, answer.2.header.res = (commonConvertErrorCode res).value ∧
      Returns (notedSetConfig env.traced req resp) (w.tracing, []) answer
        (t, setConfigEvents env.traced req resp w.tracing) ∧
      Accounts (sizeTold t.trace) (req.config.attempts (w.gateway.sinkConfig.withStatus
        (env.attributeRead .msap msapStackStatus w.node).1)) .ok res (w.tracing, [])
        (t, setConfigEvents env.traced req resp w.tracing) := by
  obtain ⟨events, hNoted⟩ := (erases_setConfig req resp).returns h []
  have hEvents : setConfigEvents env.traced req resp w.tracing = events := notes_of_returns hNoted
  rw [hEvents]
  have hWhole := hNoted
  obtain ⟨g, s₁, hGateway, hNoted⟩ := returns_bind.mp hNoted
  obtain ⟨hGateway, hNotes⟩ := returns_silently.mp hGateway
  obtain ⟨rfl, hSame⟩ := returns_read.mp hGateway
  obtain rfl : s₁ = (w.tracing, []) := Prod.ext hSame hNotes
  have hOwn : ¬ req.config.sinkId.chars ≠ w.tracing.gateway.ids.sinkId.chars := not_not.mpr hSink
  dsimp only at hNoted
  rw [if_neg hOwn] at hNoted
  obtain ⟨res, s₂, hApply, hNoted⟩ := returns_bind.mp hNoted
  obtain ⟨header, s₃, hHeader, hNoted⟩ := returns_bind.mp hNoted
  obtain ⟨config, s₄, hConfig, hNoted⟩ := returns_bind.mp hNoted
  obtain ⟨rfl, rfl⟩ := returns_pure.mp hNoted
  obtain ⟨hHeader, hNotes⟩ := returns_silently.mp hHeader
  obtain ⟨hConfig, hNotes'⟩ := returns_silently.mp hConfig
  refine ⟨res, (returns_fillResponseHeader env.traced hHeader).1, hWhole, ?_⟩
  have hGrows : s₂.1.trace <+: t.trace :=
    ((Reading.fillResponseHeader (asks_grows env) _ _).returns hHeader).trans
      ((Reading.fillSinkReadConfig (asks_grows env)).returns hConfig)
  have hKept : fieldWrites t.trace = fieldWrites s₂.1.trace :=
    ((Reading.fillSinkReadConfig asks_fieldWrites).returns hConfig).trans
      ((Reading.fillResponseHeader asks_fieldWrites _ _).returns hHeader)
  have hApplied := notedApplyConfig_accounts rfl
    (ToldBy.of_prefix (fun answer hTold => hTold) hGrows) hApply
  have hAfter : Accounts (sizeTold t.trace) [] res res s₂ (t, events) :=
    Accounts.silent (hNotes'.trans hNotes) hKept res
  have hAll := hApplied.trans hAfter
  rw [List.append_nil] at hAll
  exact hAll

theorem mem_attempts {cfg : SinkNewConfig} {c : SinkConfig} {a : Attempt} (h : a ∈ cfg.attempts c)
    {field : ConfigField} (hField : a.field = some field) : cfg.has field := by
  rcases List.mem_append.mp h with h | hStart
  · rcases List.mem_append.mp h with hStop | hFields
    · obtain rfl : a = .stopStack := by
        split at hStop
        · exact List.mem_singleton.mp hStop
        · exact absurd hStop List.not_mem_nil
      cases hField
    · obtain ⟨field', -, hAttempt⟩ := List.mem_filterMap.mp hFields
      obtain ⟨hOwn, hHas⟩ := writes_step (FieldStep.writes_of_attempt hAttempt)
      obtain rfl : field' = field := Option.some.inj (hOwn.symm.trans hField)
      exact hHas
  · obtain rfl : a = .startStack := by
      split at hStart
      · exact List.mem_singleton.mp hStart
      · exact absurd hStart List.not_mem_nil
    cases hField

theorem attributeRequest_eq_some {sap : Sap} {id : UInt16} {value : List UInt8} {q : Wpc.Request}
    (h : attributeRequest sap id value = some q) : q = attributeWrite sap id value := by
  unfold attributeRequest at h
  split at h
  · cases h
  · exact (Option.some.inj h).symm

/-- The write of an attempt writes its own field. -/
theorem writtenField_request {told : Option (Int × List UInt8)} {a : Attempt} {q : Wpc.Request}
    (h : a.request told = some q) : writtenField q = a.field := by
  cases a with
  | stopStack => cases h
  | startStack => cases h
  | setNetworkAddress address =>
    rcases Option.ite_none_left_eq_some.mp h with ⟨-, h⟩
    rw [attributeRequest_eq_some h]
    rfl
  | setAppConfigData seq interval config =>
    change appConfigRequest told seq interval config = some q at h
    unfold appConfigRequest at h
    split at h
    · obtain ⟨-, h⟩ := Option.ite_none_left_eq_some.mp h
      obtain rfl : _ = q := Option.some.inj h
      rfl
    · cases h
  | setRole role => rw [attributeRequest_eq_some h]; rfl
  | setNodeAddress address => rw [attributeRequest_eq_some h]; rfl
  | setNetworkChannel channel => rw [attributeRequest_eq_some h]; rfl
  | setCipherKey key => rw [attributeRequest_eq_some h]; rfl
  | setAuthenticationKey key => rw [attributeRequest_eq_some h]; rfl
  | setAccessCycleRange minAc maxAc => rw [attributeRequest_eq_some h]; rfl

/-- The size of the app config matters to its own write only. -/
theorem request_congr {told told' : Option (Int × List UInt8)} {a : Attempt}
    (h : a.field = some .appConfig → told = told') : a.request told = a.request told' := by
  cases a
  case setAppConfigData seq interval config => rw [h rfl]
  all_goals rfl

/-- A new configuration is attempted as a whole: what is written does not depend on what fails,
and no failure is lost. -/
theorem setConfig_attemptsAll (hSink : req.config.sinkId.chars = w.gateway.ids.sinkId.chars)
    (h : Returns (protoConfigHandleSetConfig env.traced req resp) w.tracing answer t) :
    AttemptsAll env req resp w answer t := by
  obtain ⟨res, hRes, hNoted, ⟨events, hEvents, hAttempts, hOk⟩, hRequested⟩ := setConfig_accounts hSink h
  rw [List.nil_append] at hEvents
  replace hEvents : setConfigEvents env.traced req resp w.tracing = events := hEvents
  replace hRequested : fieldWrites t.trace = _ := hRequested.trans (List.nil_append _)
  constructor
  · exact hNoted
  · rw [hEvents, hAttempts]
    exact hRequested
  · intro ν' env' resp' w' answer' t' hGateway hStatus h'
    have hSink' : req.config.sinkId.chars = w'.gateway.ids.sinkId.chars := by
      rw [hGateway]
      exact hSink
    obtain ⟨res', -, -, ⟨events', hEvents', hAttempts', -⟩, hRequested'⟩ := setConfig_accounts hSink' h'
    rw [List.nil_append] at hEvents'
    replace hEvents' : setConfigEvents env'.traced req resp' w'.tracing = events' := hEvents'
    replace hRequested' : fieldWrites t'.trace = _ := hRequested'.trans (List.nil_append _)
    rw [hGateway, hStatus] at hAttempts' hRequested'
    refine ⟨by rw [hEvents, hEvents', hAttempts, hAttempts'], ?_⟩
    intro hSize
    rw [hRequested, hRequested']
    apply List.filterMap_congr
    exact fun a ha => request_congr fun hApp => hSize (mem_attempts ha hApp)
  · rw [hEvents, hRes]
    constructor
    · intro hHeader
      exact (hOk.mp (commonConvertErrorCode_eq_ok.mp (ErrorCode.value_injective hHeader))).2
    · intro hPassed
      rw [hOk.mpr ⟨rfl, hPassed⟩]
      rfl
  · intro q res hRequest field hField
    have hWrite : q ∈ fieldWrites t.trace := mem_requestsIn hRequest (by rw [hField]; rfl)
    rw [hRequested] at hWrite
    obtain ⟨a, ha, hAttempt⟩ := List.mem_filterMap.mp hWrite
    exact mem_attempts ha ((writtenField_request hAttempt).symm.trans hField)

end Runs

/-- A node that refuses every request, and answers no other. -/
def refusingNode : Environment Unit := { silentNode with request := fun _ n => (1, n) }

/-- A role, and a network address that is too large. -/
def mixedRequest : SetConfigReq where
  header := ⟨1⟩
  config := ⟨⟨[0x73], by decide, by decide⟩, some ⟨1, []⟩, none, some 0x100000000, none, none, none, none, none⟩

/-- The stop, the role and the start are all refused, and the range check fails: each is noted, and
the role was requested of the node. -/
theorem setConfig_attemptsAll_refused :
    setConfigEvents refusingNode.traced mixedRequest (someMemory 0 false).setConfig
        (World.tracing ⟨⟨60, 102⟩, .initialized .zero, ()⟩) =
      [.called .stopStack .stackAlreadyStopped, .called (.setRole 1) .internalError, .checked false,
        .called .startStack .stackAlreadyStarted] ∧
      ∃ answer t, Returns (protoConfigHandleSetConfig refusingNode.traced mixedRequest
          (someMemory 0 false).setConfig) (World.tracing ⟨⟨60, 102⟩, .initialized .zero, ()⟩) answer t ∧
        fieldWrites t.trace = [attributeWrite .csap cNodeRoleId [1]] ∧
        AttemptsAll refusingNode mixedRequest (someMemory 0 false).setConfig
          ⟨⟨60, 102⟩, .initialized .zero, ()⟩ answer t := by
  constructor
  · decide +kernel
  · exact ⟨_, _, rfl, by decide +kernel, setConfig_attemptsAll rfl rfl⟩

end CMeshApi.Proto
