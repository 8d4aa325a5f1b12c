import CMeshApi.Proto.NewConfig
import CMeshApi.Proto.Unfilled

/-!
# The cached configurations of all histories

The cache begins with zeros. Refreshes and requests keep each cached field zero or equal
to the attribute of the node, so that a request can be answered with OK and not reach the
node only with a field that is requested with the value zero.
-/

namespace CMeshApi.Proto

open Programs Wpc Machine

inductive GatewayEvent where
  | init
  | refresh
  | stackStatus (status : UInt8)
  /-- A request, with what the memory for its response contains. -/
  | request (m : WirepasMessage) (memory : ResponseMemory)

section Histories

variable {ν : Type} (env : Environment ν) (dsapDataTxRequest : UInt8 → Dsap.DataTx → ν → Int × ν)

def gatewayStep : Step (World Gateway ν) GatewayEvent
  | w, .init => finish (protoConfigInit env) w
  | w, .refresh => finish (refreshFullStackState env) w
  | w, .stackStatus status => finish (onStackStatusReceived env status) w
  | w, .request m memory => finish (handleMessage env dsapDataTxRequest m memory) w

/-- The value zero is requested, and the cache has it without the node having it. -/
def StaleZero (attributes : ν → ConfigAttribute → Option (List UInt8)) (cfg : SinkNewConfig)
    (a : ConfigAttribute) (w : World Gateway ν) : Prop :=
  ∃ v ∈ a.requested cfg, (∀ n ∈ v, n = 0) ∧ a.cached w.gateway.sinkConfig = v ∧
    (attributes w.node a).map a.decode ≠ some v

variable {env} {dsapDataTxRequest} {attributes : ν → ConfigAttribute → Option (List UInt8)}
  {a : ConfigAttribute} {cfg : SinkNewConfig} {m : WirepasMessage} {memory : ResponseMemory}
  {s t w : World Gateway ν}

theorem Tracks.stale_iff (hTracks : Tracks attributes a w) :
    Stale attributes cfg a w ↔ StaleZero attributes cfg a w := by
  constructor
  · rintro ⟨v, hv, rfl, hOther⟩
    refine ⟨_, hv, ?_, rfl, hOther⟩
    rcases hTracks with hZero | hSame
    · exact hZero
    · exact absurd hSame hOther
  · rintro ⟨v, hv, -, hCached, hOther⟩
    exact ⟨v, hv, hCached, hOther⟩

theorem SameField.stale_iff (h : SameField attributes a w t) :
    Stale attributes cfg a t ↔ Stale attributes cfg a w := by
  unfold Stale
  rw [h.node, h.cached]

theorem tracks_zero (h : s.gateway.sinkConfig = .zero) : Tracks attributes a s := by
  refine .inl ?_
  unfold fieldOf
  rw [h]
  cases a with
  | accessCycleRange => exact List.forall_mem_cons.mpr ⟨rfl, List.forall_mem_singleton.mpr rfl⟩
  | _ => exact List.forall_mem_singleton.mpr rfl

theorem handleMessage_cases {b : AppProtoRes × Option ProtoResponse}
    (h : Returns (handleMessage env dsapDataTxRequest m memory) w b t) :
    (b.2 = none ∧ (t = w ∨ t = { w with node := (env.malloc w.node).2 })) ∨
      ∃ request ∈ m.request, ∃ res resp, b = (res, some resp) ∧
        Returns (request.handle env dsapDataTxRequest memory)
          { w with node := (env.malloc w.node).2 } (res, resp) t := by
  unfold handleMessage at h
  cases hRequest : m.request with
  | none =>
    rw [hRequest] at h
    obtain ⟨rfl, rfl⟩ := returns_pure.mp h
    exact .inl ⟨rfl, .inl rfl⟩
  | some request =>
    rw [hRequest] at h
    obtain ⟨allocated, u, hMalloc, h⟩ := returns_bind.mp h
    obtain ⟨rfl, rfl⟩ := returns_ask.mp hMalloc
    rcases returns_ite.mp h with ⟨-, hHandled⟩ | ⟨-, hPure⟩
    · obtain ⟨⟨res, resp⟩, v, hHandler, hPure⟩ := returns_bind.mp hHandled
      obtain ⟨rfl, rfl⟩ := returns_pure.mp hPure
      exact .inr ⟨request, rfl, res, resp, rfl, hHandler⟩
    · obtain ⟨rfl, rfl⟩ := returns_pure.mp hPure
      exact .inl ⟨rfl, .inr rfl⟩

variable (store : AttributeStore env dsapDataTxRequest attributes)

include store

theorem AttributeStore.malloc : SameField attributes a w { w with node := (env.malloc w.node).2 } :=
  sameField_node (congrFun (store.keeps.malloc w.node) a)

theorem AttributeStore.handleMessage {b : AppProtoRes × Option ProtoResponse}
    (h : Returns (handleMessage env dsapDataTxRequest m memory) w b t) :
    KeepsTrack attributes a w t := by
  rcases handleMessage_cases h with ⟨-, rfl | rfl⟩ | ⟨request, -, res, resp, -, hHandler⟩
  · exact fun hTracks => hTracks
  · exact store.malloc.keepsTrack
  · intro hTracks
    have hAllocated := store.malloc.keepsTrack hTracks
    cases request with
    | setConfig req =>
      obtain ⟨b', u, hSetConfig, hPure⟩ := returns_bind.mp hHandler
      obtain ⟨-, rfl⟩ := returns_pure.mp hPure
      exact (store.handleSetConfig hSetConfig).1 hAllocated
    | _ =>
      refine (store.handle memory ?_).returns hHandler hAllocated
      exact fun _ => ProtoRequest.noConfusion

theorem AttributeStore.gatewayStep {e : GatewayEvent} (hTracks : Tracks attributes a s)
    (hStep : gatewayStep env dsapDataTxRequest s e = some t) : Tracks attributes a t := by
  cases e with
  | init =>
    obtain ⟨b, hInit⟩ := finish_eq_some.mp hStep
    refine Moves.returns (r := KeepsTrack attributes a) ?_ hInit hTracks
    have hAsks : Asks env (KeepsTrack attributes a) := store.asksTrack
    apply Moves.bind hAsks.composes store.refresh
    intro _
    apply Moves.bind hAsks.composes (moves_gateway hAsks.composes)
    intro g
    apply Moves.ite (.pure hAsks.composes _)
    exact Moves.bind hAsks.composes (Moves.change fun _ => SameField.keepsTrack rfl) fun _ =>
      .pure hAsks.composes _
  | refresh =>
    obtain ⟨b, hRefresh⟩ := finish_eq_some.mp hStep
    exact store.refresh.returns hRefresh hTracks
  | stackStatus status =>
    obtain ⟨b, hStatus⟩ := finish_eq_some.mp hStep
    exact (store.handles.onStackStatusReceived status).returns hStatus hTracks
  | request m memory =>
    obtain ⟨b, hRequest⟩ := finish_eq_some.mp hStep
    exact store.handleMessage hRequest hTracks

theorem AttributeStore.tracks {es : List GatewayEvent} {e : GatewayEvent}
    (hZero : s.gateway.sinkConfig = .zero)
    (hTakes : Takes (Proto.gatewayStep env dsapDataTxRequest) s es w e) : Tracks attributes a w := by
  have hStep : ∀ s e t, Tracks attributes a s → Proto.gatewayStep env dsapDataTxRequest s e = some t →
      Tracks attributes a t := fun _ _ _ => store.gatewayStep
  exact hTakes.invariant' hStep (tracks_zero hZero)

theorem AttributeStore.holds_iff {req : SetConfigReq} {resp : Raw.SetConfigResp} {res : AppProtoRes}
    (hRequest : m.request = some (.setConfig req))
    (hSink : req.config.sinkId.chars = w.gateway.ids.sinkId.chars)
    (h : Returns (Proto.handleMessage env dsapDataTxRequest m memory) w (res, some (.setConfig resp)) t)
    (hOk : resp.header.res = ErrorCode.ok.value) :
    Holds attributes req.config a t.node ↔ ¬ Stale attributes req.config a w := by
  rcases handleMessage_cases h with ⟨hNone, -⟩ | ⟨request, hHandled, res', resp', hResp, hHandler⟩
  · cases hNone
  · obtain rfl : ProtoRequest.setConfig req = request := Option.some.inj (hRequest.symm.trans hHandled)
    obtain ⟨b, u, hSetConfig, hPure⟩ := returns_bind.mp hHandler
    obtain ⟨hAnswer, rfl⟩ := returns_pure.mp hPure
    have hSame : resp = b.2 :=
      ProtoResponse.setConfig.inj (Option.some.inj ((congrArg Prod.snd hResp).trans
        (congrArg some (congrArg Prod.snd hAnswer))))
    rw [(store.handleSetConfig hSetConfig).2 hSink (hSame ▸ hOk), store.malloc.stale_iff]

omit store in
theorem holdsRequested_iff_not_staleZero (store : AttributeStore env dsapDataTxRequest attributes)
    {es : List GatewayEvent} {req : SetConfigReq} {resp : Raw.SetConfigResp} {res : AppProtoRes}
    (hZero : s.gateway.sinkConfig = .zero)
    (hTakes : Takes (gatewayStep env dsapDataTxRequest) s es w (.request m memory))
    (hRequest : m.request = some (.setConfig req))
    (hSink : req.config.sinkId.chars = w.gateway.ids.sinkId.chars)
    (h : Returns (handleMessage env dsapDataTxRequest m memory) w (res, some (.setConfig resp)) t)
    (hOk : resp.header.res = ErrorCode.ok.value) :
    (∀ a, Holds attributes req.config a t.node) ↔ ∀ a, ¬ StaleZero attributes req.config a w := by
  refine forall_congr' fun a => ?_
  rw [store.holds_iff hRequest hSink h hOk, (store.tracks hZero hTakes).stale_iff]

end Histories

def attributeOf (sap : Sap) (id : UInt16) : Option ConfigAttribute :=
  [.nodeRole, .nodeAddress, .networkAddress, .networkChannel, .accessCycleRange].find?
    fun a : ConfigAttribute => a.sap = sap ∧ a.id = id

def writtenValue (q : Request) : Option (List UInt8) :=
  match q.payload with
  | .attributeWrite _ _ value => some value
  | _ => none

/-- A node that takes each value, and has a stopped stack. -/
def attributeNode : Environment (ConfigAttribute → Option (List UInt8)) where
  request q n := (0, fun a => if a.written q then writtenValue q else n a)
  attributeRead sap id n :=
    match attributeOf sap id with
    | some a =>
      match n a with
      | some value => ((0, value), n)
      | none => ((4, []), n)
    | none => if sap = .msap ∧ id = msapStackStatus then ((0, [1]), n) else ((4, []), n)
  appConfigDataRead n := ((1, ⟨0, 0, []⟩), n)
  scratchpadStatus n := ((1, ⟨0, 0, 0, 0, 0, 0, 0, 0, 0⟩), n)
  scratchpadTargetRead n := ((1, ⟨0, 0, 0, 0⟩), n)
  timestampMsMonotonic n := (0, n)
  timestampMsEpoch n := (0, n)
  malloc n := (true, n)
  rand n := (0, n)
  rounds := 2

def sendNothing : UInt8 → Dsap.DataTx → (ConfigAttribute → Option (List UInt8)) →
    Int × (ConfigAttribute → Option (List UInt8)) := fun _ _ n => (-1, n)

theorem attributeNode_store : AttributeStore attributeNode sendNothing id where
  keeps :=
    { attributeRead := by
        intro sap id n
        unfold attributeNode
        dsimp only
        split
        · split
          · rfl
          · rfl
        · split
          · rfl
          · rfl
      appConfigDataRead := fun _ => rfl
      scratchpadStatus := fun _ => rfl
      scratchpadTargetRead := fun _ => rfl
      timestampMsMonotonic := fun _ => rfl
      timestampMsEpoch := fun _ => rfl
      malloc := fun _ => rfl
      rand := fun _ => rfl }
  other a q hOther n := if_neg (Bool.eq_false_iff.mp hOther)
  data _ _ _ := rfl
  read := by
    intro a n
    have hFound : attributeOf a.sap a.id = some a := by cases a <;> rfl
    unfold attributeNode
    simp only [hFound]
    cases hValue : n a with
    | none =>
      intro hRead
      have hError : (4 : Int) = 0 := hRead
      exact absurd hError (by decide)
    | some value => exact fun _ => hValue
  write := by
    intro a value n
    have hWritten : a.written (attributeWrite a.sap a.id value) = true := by cases a <;> rfl
    exact .inl ⟨rfl, if_pos hWritten⟩

/-- A sink whose channel has not been set, before its cache is read. -/
def unsetSink : World Gateway (ConfigAttribute → Option (List UInt8)) where
  statics := ⟨60, 102⟩
  gateway := { Gateway.initialized .zero with stackStatusCb := false }
  node := fun _ => none

def setChannelReq (channel : UInt32) : SetConfigReq where
  header := ⟨1⟩
  config := ⟨.copied sinkIdMaxSize sinkIdMaxSize_pos [0x73], none, none, none, some channel, none, none, none, none⟩

def setChannel (channel : UInt32) : WirepasMessage :=
  ⟨none, some (setChannelReq channel), none, none, none, none, none, none⟩

def refreshedSink : World Gateway (ConfigAttribute → Option (List UInt8)) :=
  (protoConfigInit attributeNode unsetSink).2

theorem takes_setChannel (channel : UInt32) :
    Takes (gatewayStep attributeNode sendNothing) unsetSink
      [.init, .request (setChannel channel) (someMemory 0 false)] refreshedSink
      (.request (setChannel channel) (someMemory 0 false)) := by
  refine ⟨[.init], [], rfl, ?_⟩
  refine run_cons_eq_some.mpr ⟨refreshedSink, finish_eq_some.mpr ⟨true, ?_⟩, rfl⟩
  exact returns_of_fst (by decide +kernel)

def setChannelEnd (channel : UInt32) : Option (AppProtoRes × Option ProtoResponse) ×
    World Gateway (ConfigAttribute → Option (List UInt8)) :=
  handleMessage attributeNode sendNothing (setChannel channel) (someMemory 0 false) refreshedSink

def ProtoResponse.okSetConfig : ProtoResponse → Bool
  | .setConfig resp => resp.header.res == ErrorCode.ok.value
  | _ => false

theorem setChannelEnd_ok (channel : UInt32)
    (h : (setChannelEnd channel).1.any (fun b => b.2.any ProtoResponse.okSetConfig) = true) :
    ∃ res resp, Returns (handleMessage attributeNode sendNothing (setChannel channel) (someMemory 0 false))
        refreshedSink (res, some (.setConfig resp)) (setChannelEnd channel).2 ∧
      resp.header.res = ErrorCode.ok.value := by
  obtain ⟨⟨res, resp⟩, hSome, hAnswer⟩ := (Option.any_eq_true _ _).mp h
  obtain ⟨answer, rfl, hOk⟩ := (Option.any_eq_true _ _).mp hAnswer
  cases answer with
  | setConfig resp => exact ⟨res, resp, returns_of_fst hSome, beq_iff_eq.mp hOk⟩
  | _ => cases hOk

theorem holdsRequested_iff_not_staleZero_seven :
    (∀ a, Holds id (setChannelReq 7).config a (setChannelEnd 7).2.node) ↔
      ∀ a, ¬ StaleZero id (setChannelReq 7).config a refreshedSink := by
  obtain ⟨res, resp, hReturns, hOk⟩ := setChannelEnd_ok 7 (by decide +kernel)
  refine holdsRequested_iff_not_staleZero attributeNode_store rfl (takes_setChannel 7) rfl ?_ hReturns hOk
  decide +kernel

/-- The channel zero is answered with OK, and the node still has none. -/
theorem zero_channel_not_set :
    AttributeStore attributeNode sendNothing id ∧ unsetSink.gateway.sinkConfig = .zero ∧
      Takes (gatewayStep attributeNode sendNothing) unsetSink
        [.init, .request (setChannel 0) (someMemory 0 false)] refreshedSink
        (.request (setChannel 0) (someMemory 0 false)) ∧
      (setChannelReq 0).config.sinkId.chars = refreshedSink.gateway.ids.sinkId.chars ∧
      (∃ res resp, Returns (handleMessage attributeNode sendNothing (setChannel 0) (someMemory 0 false))
          refreshedSink (res, some (.setConfig resp)) (setChannelEnd 0).2 ∧
        resp.header.res = ErrorCode.ok.value) ∧
      ¬ ∀ a, Holds id (setChannelReq 0).config a (setChannelEnd 0).2.node := by
  refine ⟨attributeNode_store, rfl, takes_setChannel 0, by decide +kernel,
    setChannelEnd_ok 0 (by decide +kernel), ?_⟩
  intro hHolds
  have hUnset : (setChannelEnd 0).2.node .networkChannel = none := by decide +kernel
  have hSet := hHolds .networkChannel [0] rfl
  rw [id, hUnset] at hSet
  cases hSet

end CMeshApi.Proto
