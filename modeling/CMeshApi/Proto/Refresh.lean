import CMeshApi.Proto.Config

/-!
# What a refresh leaves in the cache

A refresh asks the same, whatever the static variables hold. What the node answers is stored, and
where it does not answer the cache keeps what it had.
-/

namespace CMeshApi.Proto

open Programs Wpc

section Blind

variable {ν α β : Type}

/-- The call neither looks at the static variables of the gateway nor changes them. -/
def Blind (p : Call Gateway ν α) : Prop :=
  ∀ w : World Gateway ν, ∃ (a : α) (t : World Gateway ν), ∀ g,
    Returns p { w with gateway := g } a { t with gateway := g }

theorem Blind.pure (a : α) : Blind (pure a : Call Gateway ν α) :=
  fun w => ⟨a, w, fun _ => returns_pure.mpr ⟨rfl, rfl⟩⟩

theorem Blind.ask (f : ν → α × ν) : Blind (ask f) :=
  fun w => ⟨(f w.node).1, { w with node := (f w.node).2 }, fun _ => returns_ask.mpr ⟨rfl, rfl⟩⟩

theorem Blind.changeStatics (f : Statics → Statics) :
    Blind (.change fun w : World Gateway ν => { w with statics := f w.statics }) :=
  fun w => ⟨(), { w with statics := f w.statics }, fun _ => returns_change.mpr rfl⟩

theorem Blind.bind {p : Call Gateway ν α} {f : α → Call Gateway ν β} (hp : Blind p)
    (hf : ∀ a, Blind (f a)) : Blind (p >>= f) := by
  intro w
  obtain ⟨a, t, hFirst⟩ := hp w
  obtain ⟨b, u, hRest⟩ := hf a t
  exact ⟨b, u, fun g => returns_bind.mpr ⟨a, _, hFirst g, hRest g⟩⟩

theorem Blind.ite {c : Prop} [Decidable c] {p q : Call Gateway ν α} (hp : Blind p) (hq : Blind q) :
    Blind (if c then p else q) := by
  split
  · exact hp
  · exact hq

variable (env : Environment ν)

theorem blind_attributeReadRequest (sap : Sap) (id : UInt16) (length : Nat) :
    Blind (attributeReadRequest env sap id length) := by
  apply Blind.bind (.ask _)
  intro answer
  exact Blind.ite (.pure _) (.pure _)

theorem blind_readAttribute (sap : Sap) (id : UInt16) (length : Nat) (decode : List UInt8 → α) :
    Blind (readAttribute env sap id length decode) := by
  apply Blind.bind (blind_attributeReadRequest env sap id length)
  rintro ⟨res, value⟩
  dsimp only
  split
  · exact .pure _
  · exact .pure _

theorem blind_isKeySet (id : UInt16) : Blind (isKeySet env id) := by
  apply Blind.bind (blind_attributeReadRequest env _ _ _)
  intro answer
  exact Blind.ite (.pure _) (.pure _)

theorem blind_firmwareVersion (ids version : List UInt16) : Blind (firmwareVersion env ids version) := by
  induction ids generalizing version with
  | nil => exact .pure _
  | cons id ids ih =>
    apply Blind.bind (blind_readAttribute env _ _ _ _)
    intro result
    split
    · exact ih _
    · exact .pure _

theorem blind_wpcGetLocalScratchpadStatus : Blind (wpcGetLocalScratchpadStatus env) := by
  apply Blind.bind (.ask _)
  intro answer
  exact Blind.ite (.pure _) (.pure _)

theorem blind_wpcReadTargetScratchpad : Blind (wpcReadTargetScratchpad env) := by
  apply Blind.bind (.ask _)
  intro answer
  exact Blind.ite (.pure _) (.pure _)

end Blind

/-- What the node answered to a refresh, field by field. -/
structure NodeAnswers where
  nodeAddress : Option UInt32
  networkAddress : Option UInt32
  cipherKeySet : Option Bool
  authenticationKeySet : Option Bool
  stackProfile : Option UInt16
  hwMagic : Option UInt16
  acLimits : Option (UInt16 × UInt16)
  appConfigMaxSize : Option UInt8
  version : CArray (Option UInt16) 4
  acRange : Option (UInt16 × UInt16)
  maxMtu : Option UInt8
  chRange : Option (UInt8 × UInt8)
  pduBufferSize : Option UInt8
  stackStatus : Option UInt8
  networkChannel : Option UInt8
  appNodeRole : Option UInt8
  otapStatus : Option AppScratchpadStatus
  target : Option ScratchpadTarget

def NodeAnswers.none : NodeAnswers where
  nodeAddress := .none
  networkAddress := .none
  cipherKeySet := .none
  authenticationKeySet := .none
  stackProfile := .none
  hwMagic := .none
  acLimits := .none
  appConfigMaxSize := .none
  version := fun _ => .none
  acRange := .none
  maxMtu := .none
  chRange := .none
  pduBufferSize := .none
  stackStatus := .none
  networkChannel := .none
  appNodeRole := .none
  otapStatus := .none
  target := .none

/-- The size of the app config is stored into the low byte. -/
def storeAppConfigMaxSize (old : UInt16) (v : UInt8) : UInt16 := (old &&& 0xff00) ||| v.toUInt16

def NodeAnswers.store (a : NodeAnswers) (c : SinkConfig) : SinkConfig where
  nodeAddress := a.nodeAddress.getD c.nodeAddress
  networkAddress := a.networkAddress.getD c.networkAddress
  cipherKeySet := a.cipherKeySet.getD c.cipherKeySet
  authenticationKeySet := a.authenticationKeySet.getD c.authenticationKeySet
  stackProfile := a.stackProfile.getD c.stackProfile
  hwMagic := a.hwMagic.getD c.hwMagic
  acLimitMin := (a.acLimits.map Prod.fst).getD c.acLimitMin
  acLimitMax := (a.acLimits.map Prod.snd).getD c.acLimitMax
  appConfigMaxSize := (a.appConfigMaxSize.map (storeAppConfigMaxSize c.appConfigMaxSize)).getD c.appConfigMaxSize
  version := fun i => (a.version i).getD (c.version i)
  acRangeMinCur := (a.acRange.map Prod.fst).getD c.acRangeMinCur
  acRangeMaxCur := (a.acRange.map Prod.snd).getD c.acRangeMaxCur
  maxMtu := a.maxMtu.getD c.maxMtu
  chRangeMin := (a.chRange.map Prod.fst).getD c.chRangeMin
  chRangeMax := (a.chRange.map Prod.snd).getD c.chRangeMax
  pduBufferSize := a.pduBufferSize.getD c.pduBufferSize
  stackStatus := a.stackStatus.getD c.stackStatus
  networkChannel := a.networkChannel.getD c.networkChannel
  appNodeRole := a.appNodeRole.getD c.appNodeRole
  otapStatus := a.otapStatus.getD c.otapStatus
  target := a.target.getD c.target

theorem highByte_getElem : ∀ i : Fin 16, (UInt16.toBitVec 0xff00)[i] = decide (8 ≤ i.val) := by decide

theorem storeAppConfigMaxSize_getElem (old : UInt16) (v : UInt8) {i : Nat} (hi : i < 16) :
    (storeAppConfigMaxSize old v).toBitVec[i] = if 8 ≤ i then old.toBitVec[i] else v.toBitVec.getLsbD i := by
  have hMask : (UInt16.toBitVec 0xff00)[i] = decide (8 ≤ i) := highByte_getElem ⟨i, hi⟩
  simp only [storeAppConfigMaxSize, UInt16.toBitVec_or, UInt16.toBitVec_and, UInt8.toBitVec_toUInt16,
    BitVec.getElem_or, BitVec.getElem_and, BitVec.getElem_setWidth, hMask]
  rcases Nat.lt_or_ge i 8 with hLow | hHigh
  · simp [Nat.not_le.mpr hLow]
  · simp [hHigh]

theorem storeAppConfigMaxSize_again (old : UInt16) (u v : UInt8) :
    storeAppConfigMaxSize (storeAppConfigMaxSize old u) v = storeAppConfigMaxSize old v := by
  apply UInt16.toBitVec_inj.mp
  ext i hi
  simp only [storeAppConfigMaxSize_getElem _ _ hi]
  split <;> rfl

/-- What the node does not tell is zero in the cache. Of the size of the app config it tells the low
byte only. -/
structure UntoldIsZero (a : NodeAnswers) (c : SinkConfig) : Prop where
  nodeAddress : a.nodeAddress = .none → c.nodeAddress = 0
  networkAddress : a.networkAddress = .none → c.networkAddress = 0
  cipherKeySet : a.cipherKeySet = .none → c.cipherKeySet = false
  authenticationKeySet : a.authenticationKeySet = .none → c.authenticationKeySet = false
  stackProfile : a.stackProfile = .none → c.stackProfile = 0
  hwMagic : a.hwMagic = .none → c.hwMagic = 0
  acLimits : a.acLimits = .none → c.acLimitMin = 0 ∧ c.acLimitMax = 0
  appConfigMaxSize : a.appConfigMaxSize = .none → c.appConfigMaxSize = 0
  appConfigMaxSizeHigh : c.appConfigMaxSize &&& 0xff00 = 0
  version : ∀ i, a.version i = .none → c.version i = 0
  acRange : a.acRange = .none → c.acRangeMinCur = 0 ∧ c.acRangeMaxCur = 0
  maxMtu : a.maxMtu = .none → c.maxMtu = 0
  chRange : a.chRange = .none → c.chRangeMin = 0 ∧ c.chRangeMax = 0
  pduBufferSize : a.pduBufferSize = .none → c.pduBufferSize = 0
  stackStatus : a.stackStatus = .none → c.stackStatus = 0
  networkChannel : a.networkChannel = .none → c.networkChannel = 0
  appNodeRole : a.appNodeRole = .none → c.appNodeRole = 0
  otapStatus : a.otapStatus = .none → c.otapStatus = ⟨0, 0, 0, 0, 0, 0, 0, 0, 0⟩
  target : a.target = .none → c.target = ⟨0, 0, 0, 0⟩

theorem getD_eq_getD_iff {β : Type} {o : Option β} {b b' : β} :
    o.getD b = o.getD b' ↔ (o = .none → b = b') := by
  cases o with
  | none => exact ⟨fun h _ => h, fun h => h rfl⟩
  | some x => exact ⟨fun _ h => (Option.some_ne_none x h).elim, fun _ => rfl⟩

theorem storeAppConfigMaxSize_high (old : UInt16) (v : UInt8) :
    storeAppConfigMaxSize old v &&& 0xff00 = old &&& 0xff00 := by
  apply UInt16.toBitVec_inj.mp
  ext i hi
  have hMask : (UInt16.toBitVec 0xff00)[i] = decide (8 ≤ i) := highByte_getElem ⟨i, hi⟩
  simp only [UInt16.toBitVec_and, BitVec.getElem_and, storeAppConfigMaxSize_getElem _ _ hi, hMask]
  split <;> simp [*]

theorem storeAppConfigMaxSize_eq_iff {old : UInt16} {v : UInt8} :
    storeAppConfigMaxSize old v = storeAppConfigMaxSize 0 v ↔ old &&& 0xff00 = 0 := by
  constructor
  · intro h
    rw [← storeAppConfigMaxSize_high old v, h, storeAppConfigMaxSize_high, UInt16.zero_and]
  · intro h
    rw [storeAppConfigMaxSize, storeAppConfigMaxSize, h, UInt16.zero_and]

theorem store_eq_store_zero_iff {a : NodeAnswers} {c : SinkConfig} :
    a.store c = a.store .zero ↔ UntoldIsZero a c := by
  have hSize : (a.appConfigMaxSize.map (storeAppConfigMaxSize c.appConfigMaxSize)).getD c.appConfigMaxSize =
      (a.appConfigMaxSize.map (storeAppConfigMaxSize 0)).getD 0 ↔
        (a.appConfigMaxSize = .none → c.appConfigMaxSize = 0) ∧ c.appConfigMaxSize &&& 0xff00 = 0 := by
    cases a.appConfigMaxSize with
    | none =>
      refine ⟨fun h => ⟨fun _ => h, ?_⟩, fun h => h.1 rfl⟩
      rw [show c.appConfigMaxSize = 0 from h, UInt16.zero_and]
    | some v =>
      exact storeAppConfigMaxSize_eq_iff.trans
        ⟨fun h => ⟨fun hNone => (Option.some_ne_none v hNone).elim, h⟩, And.right⟩
  have hVersion : ((fun i => (a.version i).getD (c.version i)) = fun i => (a.version i).getD 0) ↔
      ∀ i, a.version i = .none → c.version i = 0 := by
    rw [funext_iff]
    exact forall_congr' fun i => getD_eq_getD_iff
  simp only [NodeAnswers.store, SinkConfig.zero, SinkConfig.mk.injEq, hSize, hVersion, getD_eq_getD_iff,
    Option.map_eq_none_iff]
  constructor
  · rintro ⟨hNode, hNetwork, hCipher, hAuthentication, hProfile, hMagic, hLimitMin, hLimitMax,
      ⟨hSize, hHigh⟩, hVersion, hRangeMin, hRangeMax, hMtu, hChMin, hChMax, hBuffer, hStatus, hChannel,
      hRole, hOtap, hTarget⟩
    exact ⟨hNode, hNetwork, hCipher, hAuthentication, hProfile, hMagic, fun h => ⟨hLimitMin h, hLimitMax h⟩,
      hSize, hHigh, hVersion, fun h => ⟨hRangeMin h, hRangeMax h⟩, hMtu, fun h => ⟨hChMin h, hChMax h⟩,
      hBuffer, hStatus, hChannel, hRole, hOtap, hTarget⟩
  · intro h
    exact ⟨h.nodeAddress, h.networkAddress, h.cipherKeySet, h.authenticationKeySet, h.stackProfile,
      h.hwMagic, fun hNone => (h.acLimits hNone).1, fun hNone => (h.acLimits hNone).2,
      ⟨h.appConfigMaxSize, h.appConfigMaxSizeHigh⟩, h.version, fun hNone => (h.acRange hNone).1,
      fun hNone => (h.acRange hNone).2, h.maxMtu, fun hNone => (h.chRange hNone).1,
      fun hNone => (h.chRange hNone).2, h.pduBufferSize, h.stackStatus, h.networkChannel, h.appNodeRole,
      h.otapStatus, h.target⟩

section Refresh

variable {ν α : Type}

def Answered (w : World Gateway ν) (g : Gateway) (a : NodeAnswers) : World Gateway ν :=
  { w with gateway := { g with sinkConfig := a.store g.sinkConfig } }

/-- The call adds answers to those that are cached, the same for all static variables. -/
def Answers (p : Call Gateway ν α) : Prop :=
  ∀ w a, ∃ b t a', ∀ g, Returns p (Answered w g a) b (Answered t g a')

theorem Answers.pure (b : α) : Answers (pure b : Call Gateway ν α) :=
  fun w a => ⟨b, w, a, fun _ => returns_pure.mpr ⟨rfl, rfl⟩⟩

theorem Answers.bind {β : Type} {p : Call Gateway ν α} {f : α → Call Gateway ν β} (hp : Answers p)
    (hf : ∀ b, Answers (f b)) : Answers (p >>= f) := by
  intro w a
  obtain ⟨b, t, a', hFirst⟩ := hp w a
  obtain ⟨b', u, a'', hRest⟩ := hf b t a'
  exact ⟨b', u, a'', fun g => returns_bind.mpr ⟨b, _, hFirst g, hRest g⟩⟩

theorem Blind.answers {p : Call Gateway ν α} (h : Blind p) : Answers p := by
  intro w a
  obtain ⟨b, t, hp⟩ := h w
  exact ⟨b, t, a, fun g => hp _⟩

theorem answers_changeConfig {f : SinkConfig → SinkConfig} (put : NodeAnswers → NodeAnswers)
    (hPut : ∀ a c, f (NodeAnswers.store a c) = (put a).store c) :
    Answers (changeConfig f : Call Gateway ν Unit) := by
  intro w a
  refine ⟨(), w, put a, fun g => returns_change.mpr ?_⟩
  unfold Answered
  rw [← hPut]

theorem answers_getValueFromNode {read : Call Gateway ν (Except AppRes α)} (hRead : Blind read)
    {store : α → SinkConfig → SinkConfig} (put : α → NodeAnswers → NodeAnswers)
    (hPut : ∀ v a c, store v (NodeAnswers.store a c) = (put v a).store c) :
    Answers (getValueFromNode read store) := by
  apply Answers.bind hRead.answers
  intro result
  split
  · exact Answers.bind (answers_changeConfig (put _) (hPut _)) fun _ => .pure _
  · exact .pure _

theorem answers_readAll {reads : List (Call Gateway ν Bool)} (h : ∀ p ∈ reads, Answers p) :
    Answers (readAll reads) := by
  induction reads with
  | nil => exact .pure _
  | cons p reads ih =>
    obtain ⟨hHead, hTail⟩ := List.forall_mem_cons.mp h
    apply Answers.bind hHead
    intro res
    exact Answers.bind (ih hTail) fun rest => .pure _

variable (env : Environment ν)

/-- A version that was read before a failure is an answer as well. -/
theorem answers_getFirmwareVersion : Answers (getFirmwareVersion env) := by
  apply Answers.bind (blind_firmwareVersion env _ _).answers
  rintro ⟨res, version⟩
  apply Answers.bind _ fun _ => .pure _
  refine answers_changeConfig
    (fun a => { a with version := fun i => version[i.val]? <|> a.version i }) fun a c => ?_
  have hVersion : (fun i : Fin 4 => version.getD i ((a.store c).version i)) =
      fun i : Fin 4 => (version[i.val]? <|> a.version i).getD (c.version i) := by
    funext i
    cases hRead : version[i.val]? with
    | none =>
      rw [List.getD_eq_getElem?_getD, hRead]
      rfl
    | some v =>
      rw [List.getD_eq_getElem?_getD, hRead]
      rfl
  exact congrArg (fun version => { a.store c with version := version }) hVersion

theorem answers_configReads : ∀ p ∈ configReads env, Answers p := by
  unfold configReads
  simp only [List.forall_mem_cons]
  refine ⟨?_, ?_, ?_, ?_, ?_, ?_, ?_, ?_, ?_, ?_, ?_, ?_, ?_, ?_, ?_, answers_getFirmwareVersion env, nofun⟩
  · exact answers_getValueFromNode (blind_readAttribute env _ _ _ _)
      (fun v a => { a with stackProfile := some v }) fun _ _ _ => rfl
  · exact answers_getValueFromNode (blind_readAttribute env _ _ _ _)
      (fun v a => { a with hwMagic := some v }) fun _ _ _ => rfl
  · exact answers_getValueFromNode (blind_readAttribute env _ _ _ _)
      (fun v a => { a with maxMtu := some v }) fun _ _ _ => rfl
  · exact answers_getValueFromNode (blind_readAttribute env _ _ _ _)
      (fun v a => { a with pduBufferSize := some v }) fun _ _ _ => rfl
  · exact answers_getValueFromNode (blind_readAttribute env _ _ _ _)
      (fun v a => { a with chRange := some v }) fun _ _ _ => rfl
  · exact answers_getValueFromNode (blind_readAttribute env _ _ _ _)
      (fun v a => { a with acLimits := some v }) fun _ _ _ => rfl
  · refine answers_getValueFromNode (blind_readAttribute env _ _ _ _)
      (fun v a => { a with appConfigMaxSize := some v }) fun v a c => ?_
    have hSize : storeAppConfigMaxSize (a.store c).appConfigMaxSize v =
        storeAppConfigMaxSize c.appConfigMaxSize v := by
      unfold NodeAnswers.store
      cases a.appConfigMaxSize with
      | none => rfl
      | some u => exact storeAppConfigMaxSize_again c.appConfigMaxSize u v
    exact congrArg (fun size => { a.store c with appConfigMaxSize := size }) hSize
  · exact answers_getValueFromNode (blind_isKeySet env _)
      (fun v a => { a with cipherKeySet := some v }) fun _ _ _ => rfl
  · exact answers_getValueFromNode (blind_isKeySet env _)
      (fun v a => { a with authenticationKeySet := some v }) fun _ _ _ => rfl
  · exact answers_getValueFromNode (blind_readAttribute env _ _ _ _)
      (fun v a => { a with stackStatus := some v }) fun _ _ _ => rfl
  · exact answers_getValueFromNode (blind_readAttribute env _ _ _ _)
      (fun v a => { a with acRange := some v }) fun _ _ _ => rfl
  · exact answers_getValueFromNode (blind_readAttribute env _ _ _ _)
      (fun v a => { a with nodeAddress := some v }) fun _ _ _ => rfl
  · exact answers_getValueFromNode (blind_readAttribute env _ _ _ _)
      (fun v a => { a with appNodeRole := some v }) fun _ _ _ => rfl
  · exact answers_getValueFromNode (blind_readAttribute env _ _ _ _)
      (fun v a => { a with networkAddress := some v }) fun _ _ _ => rfl
  · exact answers_getValueFromNode (blind_readAttribute env _ _ _ _)
      (fun v a => { a with networkChannel := some v }) fun _ _ _ => rfl

theorem answers_initializeOtapVariables : Answers (initializeOtapVariables env) := by
  apply Answers.bind
  · exact answers_getValueFromNode (blind_wpcGetLocalScratchpadStatus env)
      (fun v a => { a with otapStatus := some v }) fun _ _ _ => rfl
  · intro status
    apply Answers.bind
    · exact answers_getValueFromNode (blind_wpcReadTargetScratchpad env)
        (fun v a => { a with target := some v }) fun _ _ _ => rfl
    · exact fun target => .pure _

theorem answers_refreshFullStackState : Answers (refreshFullStackState env) := by
  apply Answers.bind (answers_readAll (answers_configReads env))
  intro config
  apply Answers.bind (answers_initializeOtapVariables env)
  exact fun otap => .pure _

end Refresh

end CMeshApi.Proto
