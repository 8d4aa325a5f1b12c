import CMeshApi.Proto.ConfigHistory
import CMeshApi.Proto.Refresh

/-!
# From one session to the next

`WPC_Proto_close` leaves the static variables of the gateway as they are, but for the callbacks in
the library below. An initialization sets the strings and reads the cache again.
-/

namespace CMeshApi.Proto

open Programs Wpc Machine

def cMeshApiVerId : UInt16 := 8
def maxPollFailDurationS : UInt32 := 120
def fragmentMaxDurationS : UInt32 := 45

/-- The arguments of `WPC_Proto_initialize`. -/
structure InitArgs where
  portName : List UInt8
  bitrate : Nat
  gatewayId : List UInt8
  gatewayModel : List UInt8
  gatewayVersion : List UInt8
  sinkId : List UInt8

/-- What an initialization and a close do below the gateway. Their static variables belong to the
state. -/
structure Link (ν : Type) where
  wpcIntInitialize : List UInt8 → Nat → ν → Int × ν
  wpcIntClose : ν → Unit × ν
  wpcIntSetTimeoutSNoAnswer : UInt32 → ν → Bool × ν
  dsapSetMaxFragmentDuration : UInt32 → ν → Bool × ν
  dsapRegisterForData : ν → Bool × ν
  dsapUnregisterForData : ν → Bool × ν

inductive SessionEvent where
  /-- A registration, with a callback or with none. -/
  | registerForDataRxEvent (onDataRxEventCb : Bool)
  | registerForEventStatus (onEventStatusCb : Bool)
  | stackStatus (status : UInt8)
  | request (m : WirepasMessage) (memory : ResponseMemory)

def SessionEvent.registersDataRx : SessionEvent → Bool
  | .registerForDataRxEvent onDataRxEventCb => onDataRxEventCb
  | _ => false

def SessionEvent.registersEventStatus : SessionEvent → Bool
  | .registerForEventStatus onEventStatusCb => onEventStatusCb
  | _ => false

section Sessions

variable {ν : Type} (env : Environment ν) (link : Link ν)

def wpcInitialize (portName : List UInt8) (bitrate : Nat) : Call Gateway ν AppRes := do
  let res ← ask (link.wpcIntInitialize portName bitrate)
  (if res = 0 then wpcIntSetMtu env else pure ())
  return if res = 0 then .ok else .internalError

def wpcClose : Call Gateway ν Unit := ask link.wpcIntClose

def wpcGetMeshApiVersion : Call Gateway ν (Except AppRes UInt16) :=
  readAttribute env .csap cMeshApiVerId 2 uint16DecodeLe

def openAndCheckConnection (bitrate : Nat) (portName : List UInt8) : Call Gateway ν Int := do
  let res ← wpcInitialize env link portName bitrate
  if res ≠ .ok then return -1
  else
    match ← wpcGetMeshApiVersion env with
    | .ok _ => return 0
    | .error _ =>
      wpcClose link
      return -1

/-- The timeout after a stop follows. -/
def wpcSetMaxPollFailDuration (durationS : UInt32) : Call Gateway ν AppRes := do
  if ← ask (link.wpcIntSetTimeoutSNoAnswer durationS) then
    .change fun w => { w with statics := { w.statics with timeoutAfterStopTaskS := durationS } }
    return .ok
  else return .accessDenied

def wpcSetMaxFragmentDuration (durationS : UInt32) : Call Gateway ν AppRes := do
  if ← ask (link.dsapSetMaxFragmentDuration durationS) then return .ok else return .accessDenied

def protoDataInit : Call Gateway ν Bool := ask link.dsapRegisterForData

def protoOtapInit : Call Gateway ν Bool := return true

/-- Up to the initialization of the modules. -/
def connect (args : InitArgs) : Call Gateway ν AppProtoRes := do
  let opened ← openAndCheckConnection env link args.bitrate args.portName
  if opened ≠ 0 then return .wpcNotInitialized
  else
    let res ← wpcSetMaxPollFailDuration link maxPollFailDurationS
    if res ≠ .ok then return .wrongParameter
    else
      let res ← wpcSetMaxFragmentDuration link fragmentMaxDurationS
      if res ≠ .ok then return .wrongParameter else return .ok

def wpcProtoInitialize (args : InitArgs) : Call Gateway ν AppProtoRes := do
  let ids := commonInit args.gatewayId args.gatewayModel args.gatewayVersion args.sinkId
  .change fun w => { w with gateway.ids := ids }
  let res ← connect env link args
  if res ≠ .ok then return res
  else
    let _ ← protoDataInit link
    let _ ← protoConfigInit env
    let _ ← (protoOtapInit : Call Gateway ν Bool)
    return .ok

def wpcUnregisterFromStackStatus : Call Gateway ν Unit :=
  .change fun w => { w with gateway.stackStatusCb := false }

def protoOtapClose : Call Gateway ν Unit := pure ()

def protoConfigClose : Call Gateway ν Unit := pure ()

def protoDataClose : Call Gateway ν Unit := do
  let _ ← ask link.dsapUnregisterForData

def wpcProtoClose : Call Gateway ν Unit := do
  wpcClose link
  wpcUnregisterFromStackStatus
  protoOtapClose
  protoConfigClose
  protoDataClose link

def protoDataRegisterForData (onDataRxEventCb : Bool) : Call Gateway ν AppProtoRes := do
  let g ← gateway
  if g.rxEventCb then return .alreadyRegistered
  else
    .change fun w => { w with gateway.rxEventCb := onDataRxEventCb }
    return .ok

def protoConfigRegisterForEventStatus (onProtoEventStatusCb : Bool) : Call Gateway ν AppProtoRes := do
  let g ← gateway
  if g.onProtoEventStatusCb then return .alreadyRegistered
  else
    .change fun w => { w with gateway.onProtoEventStatusCb := onProtoEventStatusCb }
    return .ok

variable (dsapDataTxRequest : UInt8 → Dsap.DataTx → ν → Int × ν)

def sessionStep : Step (World Gateway ν) SessionEvent
  | w, .registerForDataRxEvent onDataRxEventCb => finish (protoDataRegisterForData onDataRxEventCb) w
  | w, .registerForEventStatus onEventStatusCb => finish (protoConfigRegisterForEventStatus onEventStatusCb) w
  | w, .stackStatus status => finish (onStackStatusReceived env status) w
  | w, .request m memory => finish (handleMessage env dsapDataTxRequest m memory) w

/-- The static variables before anything is called. -/
def Gateway.atStart : Gateway where
  ids := commonInit [] [] [] []
  sinkConfig := .zero
  onProtoEventStatusCb := false
  statusEvents := []
  rxEventCb := false
  stackStatusCb := false
  scratchpadLoadCurrentSeq := invalidCurrentSeq
  restartAfterLoad := false

/-- The initialization from `v` to `t` has ended as it would have with untouched static variables,
but for the events that were reported before. -/
structure AsAfterFirst (args : InitArgs) (v t : World Gateway ν) : Prop where
  same : ∃ u, Returns (wpcProtoInitialize env link args) { v with gateway := .atStart } .ok u ∧
    t = { u with gateway.statusEvents := t.gateway.statusEvents }
  registersDataRx : ∃ u, Returns (protoDataRegisterForData true) t .ok u
  registersEventStatus : ∃ u, Returns (protoConfigRegisterForEventStatus true) t .ok u
  noLoad : t.gateway.scratchpadLoadCurrentSeq = invalidCurrentSeq
  noRestart : t.gateway.restartAfterLoad = false

/-- The static variables after an initialization that the node gave these answers. -/
def Gateway.initializedWith (g : Gateway) (args : InitArgs) (a : NodeAnswers) : Gateway :=
  { g with
    ids := commonInit args.gatewayId args.gatewayModel args.gatewayVersion args.sinkId
    sinkConfig := a.store g.sinkConfig
    stackStatusCb := true }

/-- In this state of the node an initialization succeeds with these answers. -/
def AnswersInit (args : InitArgs) (v : World Gateway ν) (a : NodeAnswers) : Prop :=
  ∃ u : World Gateway ν, ∀ g, Returns (wpcProtoInitialize env link args) { v with gateway := g } .ok
    { u with gateway := g.initializedWith args a }

variable {env link}

theorem blind_connect (env : Environment ν) (link : Link ν) (args : InitArgs) : Blind (connect env link args) := by
  apply Blind.bind
  · apply Blind.bind
    · apply Blind.bind (.ask _)
      intro res
      apply Blind.bind
      · apply Blind.ite _ (.pure _)
        apply Blind.bind (blind_readAttribute env _ _ _ _)
        intro mtu
        split
        · exact .changeStatics fun statics => { statics with mtu := _ }
        · exact .pure _
      · exact fun _ => .pure _
    · intro res
      apply Blind.ite (.pure _)
      apply Blind.bind (blind_readAttribute env _ _ _ _)
      intro version
      split
      · exact .pure _
      · exact Blind.bind (.ask _) fun _ => .pure _
  · intro opened
    apply Blind.ite (.pure _)
    apply Blind.bind
    · apply Blind.bind (.ask _)
      intro set
      apply Blind.ite _ (.pure _)
      exact Blind.bind (.changeStatics fun statics => { statics with timeoutAfterStopTaskS := _ })
        fun _ => .pure _
    · intro res
      apply Blind.ite (.pure _)
      apply Blind.bind
      · exact Blind.bind (.ask _) fun set => Blind.ite (.pure _) (.pure _)
      · exact fun res => Blind.ite (.pure _) (.pure _)

/-- The callback is registered afterwards, also when it was before. -/
theorem exists_protoConfigInit (env : Environment ν) (w : World Gateway ν) :
    ∃ (a : NodeAnswers) (t : World Gateway ν), ∀ g : Gateway, ∃ b,
      Returns (protoConfigInit env) { w with gateway := g } b
        { t with gateway := { g with sinkConfig := a.store g.sinkConfig, stackStatusCb := true } } := by
  obtain ⟨refreshed, t, a, hRefresh⟩ := answers_refreshFullStackState env w .none
  refine ⟨a, t, fun g => ?_⟩
  have hRegistered : ∃ b, Returns (do
      let g ← gateway
      if g.stackStatusCb then return false
      else do
        .change fun w => { w with gateway.stackStatusCb := true }
        return true) (Answered t g a) b
      { t with gateway := { g with sinkConfig := a.store g.sinkConfig, stackStatusCb := true } } := by
    cases hCb : g.stackStatusCb with
    | true =>
      refine ⟨false, returns_bind.mpr ⟨_, _, returns_read.mpr ⟨rfl, rfl⟩,
        returns_ite.mpr (.inl ⟨hCb, returns_pure.mpr ⟨rfl, ?_⟩⟩)⟩⟩
      unfold Answered
      rw [← hCb]
    | false =>
      exact ⟨true, returns_bind.mpr ⟨_, _, returns_read.mpr ⟨rfl, rfl⟩,
        returns_ite.mpr (.inr ⟨Bool.eq_false_iff.mp hCb, returns_bind.mpr ⟨(), _, returns_change.mpr rfl,
          returns_pure.mpr ⟨rfl, rfl⟩⟩⟩)⟩⟩
  obtain ⟨b, hRegistered⟩ := hRegistered
  exact ⟨b, returns_bind.mpr ⟨refreshed, _, hRefresh g, hRegistered⟩⟩

/-- From any static variables, an initialization ends with the answers of the node. -/
theorem exists_answersInit {args : InitArgs} {v t : World Gateway ν}
    (h : Returns (wpcProtoInitialize env link args) v .ok t) :
    ∃ a, AnswersInit env link args v a := by
  obtain ⟨_, w, hIds, hRest⟩ := returns_bind.mp h
  obtain rfl := returns_change.mp hIds
  obtain ⟨res, x, hConnect, hRest⟩ := returns_bind.mp hRest
  obtain ⟨res', y, hBlind⟩ := blind_connect env link args v
  obtain ⟨rfl, -⟩ := hConnect.unique (hBlind _)
  have hOk : res = .ok := by
    rcases returns_ite.mp hRest with ⟨hError, hPure⟩ | ⟨hOk, -⟩
    · exact absurd (returns_pure.mp hPure).1.symm hError
    · exact not_not.mp hOk
  obtain ⟨a, u, hInit⟩ := exists_protoConfigInit env { y with node := (link.dsapRegisterForData y.node).2 }
  refine ⟨a, u, fun g => ?_⟩
  obtain ⟨b, hConfig⟩ := hInit { g with
    ids := commonInit args.gatewayId args.gatewayModel args.gatewayVersion args.sinkId }
  exact returns_bind.mpr ⟨(), _, returns_change.mpr rfl, returns_bind.mpr ⟨res, _, hBlind _,
    returns_ite.mpr (.inr ⟨not_not_intro hOk, returns_bind.mpr ⟨_, _, returns_ask.mpr ⟨rfl, rfl⟩,
      returns_bind.mpr ⟨b, _, hConfig, returns_bind.mpr ⟨true, _, returns_pure.mpr ⟨rfl, rfl⟩,
        returns_pure.mpr ⟨rfl, rfl⟩⟩⟩⟩⟩)⟩⟩

theorem AnswersInit.returns {args : InitArgs} {v t : World Gateway ν} {a : NodeAnswers}
    (hAnswers : AnswersInit env link args v a) (h : Returns (wpcProtoInitialize env link args) v .ok t) :
    t.gateway = v.gateway.initializedWith args a ∧
      ∀ g, Returns (wpcProtoInitialize env link args) { v with gateway := g } .ok
        { t with gateway := g.initializedWith args a } := by
  obtain ⟨u, hInit⟩ := hAnswers
  obtain ⟨-, rfl⟩ := h.unique (hInit v.gateway)
  exact ⟨rfl, hInit⟩

def Gateway.callbacks (g : Gateway) : Bool × Bool := (g.rxEventCb, g.onProtoEventStatusCb)

theorem handles_callbacks (env : Environment ν) :
    Handles env fun w t : World Gateway ν => t.gateway.callbacks = w.gateway.callbacks where
  toRefreshes := refreshes_gateway (fun _ _ => rfl) fun _ _ => rfl
  sends _ _ _ := rfl
  currentSeq _ := Moves.change fun _ => rfl
  restart _ := Moves.change fun _ => rfl

variable {dsapDataTxRequest : UInt8 → Dsap.DataTx → ν → Int × ν}

theorem handleMessage_callbacks {m : WirepasMessage} {memory : ResponseMemory} {w t : World Gateway ν}
    {b : AppProtoRes × Option ProtoResponse} (h : Returns (handleMessage env dsapDataTxRequest m memory) w b t) :
    t.gateway.callbacks = w.gateway.callbacks := by
  rcases handleMessage_cases h with ⟨-, rfl | rfl⟩ | ⟨request, -, res, resp, -, hHandler⟩
  · rfl
  · rfl
  · have hMoves : Moves (fun w t : World Gateway ν => t.gateway.callbacks = w.gateway.callbacks)
        (request.handle env dsapDataTxRequest memory) := by
      apply (handles_callbacks env).handle (fun _ _ _ => rfl) memory
      exact fun req _ => (handles_callbacks env).setConfig (fun _ _ => rfl) (fun _ _ => rfl) req _
    exact hMoves.returns (s := { w with node := (env.malloc w.node).2 }) hHandler

/-- Both registrations take one client only. -/
theorem returns_register {registered : Gateway → Bool} {store : World Gateway ν → World Gateway ν}
    {w t : World Gateway ν} {res : AppProtoRes} :
    Returns (do
        let g ← gateway
        if registered g then return .alreadyRegistered
        else
          .change store
          return .ok : Call Gateway ν AppProtoRes) w res t ↔
      (registered w.gateway = true ∧ res = .alreadyRegistered ∧ t = w) ∨
        (registered w.gateway = false ∧ res = .ok ∧ t = store w) := by
  constructor
  · intro h
    obtain ⟨g, u, hGateway, hRest⟩ := returns_bind.mp h
    obtain ⟨rfl, rfl⟩ := returns_read.mp hGateway
    rcases returns_ite.mp hRest with ⟨hRegistered, hPure⟩ | ⟨hFree, hRest⟩
    · exact Or.inl ⟨hRegistered, returns_pure.mp hPure⟩
    · obtain ⟨_, v, hChange, hPure⟩ := returns_bind.mp hRest
      obtain ⟨rfl, rfl⟩ := returns_pure.mp hPure
      exact Or.inr ⟨Bool.eq_false_iff.mpr hFree, rfl, returns_change.mp hChange⟩
  · intro h
    refine returns_bind.mpr ⟨_, w, returns_read.mpr ⟨rfl, rfl⟩, returns_ite.mpr ?_⟩
    rcases h with ⟨hRegistered, rfl, rfl⟩ | ⟨hFree, rfl, rfl⟩
    · exact Or.inl ⟨hRegistered, returns_pure.mpr ⟨rfl, rfl⟩⟩
    · exact Or.inr ⟨Bool.eq_false_iff.mp hFree,
        returns_bind.mpr ⟨(), _, returns_change.mpr rfl, returns_pure.mpr ⟨rfl, rfl⟩⟩⟩

theorem sessionStep_callbacks {w t : World Gateway ν} {e : SessionEvent}
    (hStep : sessionStep env dsapDataTxRequest w e = some t) :
    t.gateway.rxEventCb = (w.gateway.rxEventCb || e.registersDataRx) ∧
      t.gateway.onProtoEventStatusCb = (w.gateway.onProtoEventStatusCb || e.registersEventStatus) := by
  cases e with
  | registerForDataRxEvent onDataRxEventCb =>
    obtain ⟨res, hRegister⟩ := finish_eq_some.mp hStep
    rcases returns_register.mp hRegister with ⟨hRegistered, -, rfl⟩ | ⟨hFree, -, rfl⟩
    · rw [hRegistered]
      exact ⟨rfl, (Bool.or_false _).symm⟩
    · rw [hFree]
      exact ⟨(Bool.false_or _).symm, (Bool.or_false _).symm⟩
  | registerForEventStatus onEventStatusCb =>
    obtain ⟨res, hRegister⟩ := finish_eq_some.mp hStep
    rcases returns_register.mp hRegister with ⟨hRegistered, -, rfl⟩ | ⟨hFree, -, rfl⟩
    · rw [hRegistered]
      exact ⟨(Bool.or_false _).symm, rfl⟩
    · rw [hFree]
      exact ⟨(Bool.or_false _).symm, (Bool.false_or _).symm⟩
  | stackStatus status =>
    obtain ⟨_, hStatus⟩ := finish_eq_some.mp hStep
    have hSame : t.gateway.callbacks = w.gateway.callbacks :=
      ((handles_callbacks env).onStackStatusReceived status).returns hStatus
    exact ⟨(congrArg Prod.fst hSame).trans (Bool.or_false _).symm,
      (congrArg Prod.snd hSame).trans (Bool.or_false _).symm⟩
  | request m memory =>
    obtain ⟨b, hRequest⟩ := finish_eq_some.mp hStep
    have hSame := handleMessage_callbacks hRequest
    exact ⟨(congrArg Prod.fst hSame).trans (Bool.or_false _).symm,
      (congrArg Prod.snd hSame).trans (Bool.or_false _).symm⟩

theorem session_callbacks {w t : World Gateway ν} {es : List SessionEvent}
    (hRun : run (sessionStep env dsapDataTxRequest) w es = some t) :
    t.gateway.rxEventCb = (w.gateway.rxEventCb || es.any SessionEvent.registersDataRx) ∧
      t.gateway.onProtoEventStatusCb =
        (w.gateway.onProtoEventStatusCb || es.any SessionEvent.registersEventStatus) := by
  induction es generalizing w with
  | nil =>
    obtain rfl : w = t := Option.some.inj hRun
    exact ⟨(Bool.or_false _).symm, (Bool.or_false _).symm⟩
  | cons e es ih =>
    obtain ⟨u, hStep, hRest⟩ := run_cons_eq_some.mp hRun
    obtain ⟨hDataRx, hEventStatus⟩ := sessionStep_callbacks hStep
    obtain ⟨hDataRxRest, hEventStatusRest⟩ := ih hRest
    rw [hDataRxRest, hEventStatusRest, hDataRx, hEventStatus, Bool.or_assoc, Bool.or_assoc]
    exact ⟨rfl, rfl⟩

theorem returns_wpcProtoClose {w v : World Gateway ν} (h : Returns (wpcProtoClose link) w () v) :
    v.gateway = { w.gateway with stackStatusCb := false } := by
  obtain ⟨_, x, hClose, hRest⟩ := returns_bind.mp h
  obtain ⟨_, y, hUnregister, hRest⟩ := returns_bind.mp hRest
  obtain ⟨-, rfl⟩ := returns_ask.mp hClose
  obtain rfl := returns_change.mp hUnregister
  obtain ⟨_, z, hOtap, hRest⟩ := returns_bind.mp hRest
  obtain ⟨_, z', hConfig, hRest⟩ := returns_bind.mp hRest
  obtain ⟨-, rfl⟩ := returns_pure.mp hOtap
  obtain ⟨-, rfl⟩ := returns_pure.mp hConfig
  obtain ⟨_, u, hData, hPure⟩ := returns_bind.mp hRest
  obtain ⟨-, rfl⟩ := returns_ask.mp hData
  obtain ⟨-, rfl⟩ := returns_pure.mp hPure
  rfl

variable (env link)

/-- The session from the first initialization to `w` left nothing behind for the second one. -/
structure LeavesNothing (args : InitArgs) (es : List SessionEvent) (w v : World Gateway ν) : Prop where
  dataRx : ∀ e ∈ es, e.registersDataRx = false
  eventStatus : ∀ e ∈ es, e.registersEventStatus = false
  noLoad : w.gateway.scratchpadLoadCurrentSeq = invalidCurrentSeq
  noRestart : w.gateway.restartAfterLoad = false
  /-- What the node does not tell again is zero in the cache. -/
  cache : ∃ a, AnswersInit env link args v a ∧ UntoldIsZero a w.gateway.sinkConfig

variable {env link}

theorem registers_iff {registered : Gateway → Bool} {store : World Gateway ν → World Gateway ν}
    {w : World Gateway ν} :
    (∃ u, Returns (do
        let g ← gateway
        if registered g then return .alreadyRegistered
        else
          .change store
          return .ok : Call Gateway ν AppProtoRes) w .ok u) ↔ registered w.gateway = false := by
  constructor
  · rintro ⟨u, h⟩
    rcases returns_register.mp h with ⟨-, hRes, -⟩ | ⟨hFree, -⟩
    · cases hRes
    · exact hFree
  · intro hFree
    exact ⟨_, returns_register.mpr (Or.inr ⟨hFree, rfl, rfl⟩)⟩

theorem initializedWith_eq_atStart_iff {g : Gateway} {args : InitArgs} {a : NodeAnswers}
    {events : List (List UInt8)} :
    { g.initializedWith args a with statusEvents := events } =
        { Gateway.atStart.initializedWith args a with statusEvents := events } ↔
      a.store g.sinkConfig = a.store .zero ∧ g.onProtoEventStatusCb = false ∧ g.rxEventCb = false ∧
        g.scratchpadLoadCurrentSeq = invalidCurrentSeq ∧ g.restartAfterLoad = false := by
  simp only [Gateway.initializedWith, Gateway.atStart, Gateway.mk.injEq, true_and]

theorem same_iff {args : InitArgs} {v t : World Gateway ν} {a : NodeAnswers}
    (hAnswers : AnswersInit env link args v a) (h : Returns (wpcProtoInitialize env link args) v .ok t) :
    (∃ u, Returns (wpcProtoInitialize env link args) { v with gateway := .atStart } .ok u ∧
        t = { u with gateway.statusEvents := t.gateway.statusEvents }) ↔
      a.store v.gateway.sinkConfig = a.store .zero ∧ v.gateway.onProtoEventStatusCb = false ∧
        v.gateway.rxEventCb = false ∧ v.gateway.scratchpadLoadCurrentSeq = invalidCurrentSeq ∧
        v.gateway.restartAfterLoad = false := by
  obtain ⟨hGateway, hAgain⟩ := hAnswers.returns h
  have hEvents : t.gateway = { v.gateway.initializedWith args a with
      statusEvents := t.gateway.statusEvents } := by
    rw [hGateway]
  have hFresh := @initializedWith_eq_atStart_iff v.gateway args a t.gateway.statusEvents
  rw [← hFresh, ← hEvents]
  constructor
  · rintro ⟨u, hReturns, hSame⟩
    obtain ⟨-, rfl⟩ := hReturns.unique (hAgain .atStart)
    exact congrArg World.gateway hSame
  · intro hSame
    refine ⟨_, hAgain .atStart, ?_⟩
    exact congrArg (fun g => { t with gateway := g }) hSame

theorem AnswersInit.store_eq {args : InitArgs} {v : World Gateway ν} {a a' : NodeAnswers}
    (h : AnswersInit env link args v a) (h' : AnswersInit env link args v a') (c : SinkConfig) :
    a.store c = a'.store c := by
  obtain ⟨u, hInit⟩ := h
  obtain ⟨u', hInit'⟩ := h'
  have hSame := ((hInit { Gateway.atStart with sinkConfig := c }).unique
    (hInit' { Gateway.atStart with sinkConfig := c })).2
  exact congrArg (fun w : World Gateway ν => w.gateway.sinkConfig) hSame

/-- A second initialization ends as a first one just if the session has left nothing behind. -/
theorem asAfterFirst_iff_leavesNothing {s t₁ w v t : World Gateway ν} {first second : InitArgs}
    {es : List SessionEvent} (hStart : s.gateway = .atStart)
    (hFirst : Returns (wpcProtoInitialize env link first) s .ok t₁)
    (hRun : run (sessionStep env dsapDataTxRequest) t₁ es = some w)
    (hClose : Returns (wpcProtoClose link) w () v)
    (hSecond : Returns (wpcProtoInitialize env link second) v .ok t) :
    AsAfterFirst env link second v t ↔ LeavesNothing env link second es w v := by
  obtain ⟨a₁, hAnswers₁⟩ := exists_answersInit hFirst
  obtain ⟨hGateway₁, -⟩ := hAnswers₁.returns hFirst
  obtain ⟨a, hAnswers⟩ := exists_answersInit hSecond
  obtain ⟨hGateway, -⟩ := hAnswers.returns hSecond
  have hClosed := returns_wpcProtoClose hClose
  obtain ⟨hDataRx, hEventStatus⟩ := session_callbacks hRun
  have hDataRxIff : w.gateway.rxEventCb = false ↔ ∀ e ∈ es, e.registersDataRx = false := by
    rw [hDataRx, hGateway₁, hStart]
    exact List.any_eq_false.trans (by simp only [Bool.not_eq_true])
  have hEventStatusIff : w.gateway.onProtoEventStatusCb = false ↔
      ∀ e ∈ es, e.registersEventStatus = false := by
    rw [hEventStatus, hGateway₁, hStart]
    exact List.any_eq_false.trans (by simp only [Bool.not_eq_true])
  have hSame := same_iff hAnswers hSecond
  rw [hClosed] at hSame
  constructor
  · intro hAfter
    obtain ⟨hCache, hNoStatus, hNoData, hNoLoad, hNoRestart⟩ := hSame.mp hAfter.same
    exact ⟨hDataRxIff.mp hNoData, hEventStatusIff.mp hNoStatus, hNoLoad, hNoRestart, a, hAnswers,
      store_eq_store_zero_iff.mp hCache⟩
  · rintro ⟨hNoData, hNoStatus, hNoLoad, hNoRestart, a', hAnswers', hUntold⟩
    have hCache := store_eq_store_zero_iff.mpr hUntold
    rw [← hAnswers.store_eq hAnswers', ← hAnswers.store_eq hAnswers'] at hCache
    rw [hClosed] at hGateway
    refine ⟨hSame.mpr ⟨hCache, hEventStatusIff.mpr hNoStatus, hDataRxIff.mpr hNoData, hNoLoad, hNoRestart⟩,
      registers_iff.mpr ?_, registers_iff.mpr ?_, ?_, ?_⟩
    · rw [hGateway]
      exact hDataRxIff.mpr hNoData
    · rw [hGateway]
      exact hEventStatusIff.mpr hNoStatus
    · rw [hGateway]
      exact hNoLoad
    · rw [hGateway]
      exact hNoRestart

end Sessions

/-- A node that tells two bytes of each attribute, the version of its API among them. -/
def versionNode : Environment Unit :=
  { silentNode with
    request := fun _ n => (0, n)
    attributeRead := fun _ _ n => ((0, [1, 0]), n) }

def openLink : Link Unit where
  wpcIntInitialize _ _ n := (0, n)
  wpcIntClose n := ((), n)
  wpcIntSetTimeoutSNoAnswer _ n := (true, n)
  dsapSetMaxFragmentDuration _ n := (true, n)
  dsapRegisterForData n := (true, n)
  dsapUnregisterForData n := (true, n)

def gatewayArgs : InitArgs := ⟨[], 125000, [0x67], [], [], [0x73]⟩

def sendNoData : UInt8 → Dsap.DataTx → Unit → Int × Unit := fun _ _ n => (-1, n)

def unusedWorld : World Gateway Unit := ⟨⟨60, 102⟩, .atStart, ()⟩

def firstWorld : World Gateway Unit := (wpcProtoInitialize versionNode openLink gatewayArgs unusedWorld).2

theorem returns_firstWorld :
    Returns (wpcProtoInitialize versionNode openLink gatewayArgs) unusedWorld .ok firstWorld :=
  returns_of_fst (by decide +kernel)

def sessionEnd (e : SessionEvent) : World Gateway Unit :=
  (sessionStep versionNode sendNoData firstWorld e).getD firstWorld

def closedWorld (e : SessionEvent) : World Gateway Unit := (wpcProtoClose openLink (sessionEnd e)).2

def secondWorld (e : SessionEvent) : World Gateway Unit :=
  (wpcProtoInitialize versionNode openLink gatewayArgs (closedWorld e)).2

def halfLoad : WirepasMessage :=
  ⟨none, none, none, none, some ⟨⟨1⟩, 7, some [0], some ⟨2, 0⟩⟩, none, none, none⟩

/-- A session of one event, the close and the second initialization. -/
structure OneEvent (e : SessionEvent) : Prop where
  session : run (sessionStep versionNode sendNoData) firstWorld [e] = some (sessionEnd e)
  close : Returns (wpcProtoClose openLink) (sessionEnd e) () (closedWorld e)
  again : Returns (wpcProtoInitialize versionNode openLink gatewayArgs) (closedWorld e) .ok (secondWorld e)

theorem oneEvent_of_returns {e : SessionEvent}
    (hHandled : (sessionStep versionNode sendNoData firstWorld e).isSome = true)
    (hAgain : (wpcProtoInitialize versionNode openLink gatewayArgs (closedWorld e)).1 = some .ok) :
    OneEvent e where
  session := by
    obtain ⟨w, hStep⟩ := Option.isSome_iff_exists.mp hHandled
    have hEnd : sessionEnd e = w := by rw [sessionEnd, hStep, Option.getD_some]
    exact run_cons_eq_some.mpr ⟨w, hStep, congrArg some hEnd.symm⟩
  close := returns_of_fst rfl
  again := returns_of_fst hAgain

theorem asAfterFirst_iff_leavesNothing_noCallback :
    let e := SessionEvent.registerForDataRxEvent false
    OneEvent e ∧
      (AsAfterFirst versionNode openLink gatewayArgs (closedWorld e) (secondWorld e) ↔
        LeavesNothing versionNode openLink gatewayArgs [e] (sessionEnd e) (closedWorld e)) := by
  intro e
  have hOne : OneEvent e := oneEvent_of_returns (by decide +kernel) (by decide +kernel)
  exact ⟨hOne, asAfterFirst_iff_leavesNothing rfl returns_firstWorld hOne.session hOne.close hOne.again⟩

/-- A callback and an unfinished load both stay for the second session. -/
theorem callback_and_load_stay :
    let e := SessionEvent.registerForDataRxEvent true
    let e' := SessionEvent.request halfLoad (someMemory 0 false)
    (OneEvent e ∧ ¬ AsAfterFirst versionNode openLink gatewayArgs (closedWorld e) (secondWorld e)) ∧
      OneEvent e' ∧ ¬ AsAfterFirst versionNode openLink gatewayArgs (closedWorld e') (secondWorld e') := by
  intro e e'
  refine ⟨⟨?_, ?_⟩, ?_, ?_⟩
  · exact oneEvent_of_returns (by decide +kernel) (by decide +kernel)
  · intro hAfter
    have hFree := registers_iff.mp hAfter.registersDataRx
    have hRegistered : (secondWorld e).gateway.rxEventCb = true := by decide +kernel
    cases hRegistered.symm.trans hFree
  · exact oneEvent_of_returns (by decide +kernel) (by decide +kernel)
  · intro hAfter
    have hLoad : (secondWorld e').gateway.scratchpadLoadCurrentSeq = 7 := by decide +kernel
    exact absurd (hLoad.symm.trans hAfter.noLoad) (by decide)

end CMeshApi.Proto
