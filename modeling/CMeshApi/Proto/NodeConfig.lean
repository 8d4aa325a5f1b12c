import CMeshApi.Proto.Frames
import CMeshApi.Proto.Requests
import CMeshApi.Foundations.Machine

/-!
# The configuration of the node and its cache

A node as a store of attributes, five of which a new configuration sets and the cache
repeats. A cached value that is not zero was read from the node or written to it, and
the node still has it: every handler keeps that.
-/

namespace CMeshApi.Proto

open Programs Wpc Machine

inductive ConfigAttribute where
  | nodeRole
  | nodeAddress
  | networkAddress
  | networkChannel
  | accessCycleRange
deriving DecidableEq, Repr

namespace ConfigAttribute

def sap : ConfigAttribute → Sap
  | .accessCycleRange => .msap
  | _ => .csap

def id : ConfigAttribute → UInt16
  | .nodeRole => cNodeRoleId
  | .nodeAddress => cNodeAddressId
  | .networkAddress => cNetworkAddressId
  | .networkChannel => cNetworkChannelId
  | .accessCycleRange => msapAccessCycleRange

/-- The numbers that the bytes stand for, two for a range and else one. -/
def decode : ConfigAttribute → List UInt8 → List Nat
  | .nodeRole, bytes => [(byteDecode bytes).toNat]
  | .nodeAddress, bytes => [(uint32DecodeLe bytes).toNat]
  | .networkAddress, bytes => [(uint32DecodeLe bytes).toNat]
  | .networkChannel, bytes => [(byteDecode bytes).toNat]
  | .accessCycleRange, bytes =>
    [(pairDecode uint16DecodeLe 2 bytes).1.toNat, (pairDecode uint16DecodeLe 2 bytes).2.toNat]

def cached : ConfigAttribute → SinkConfig → List Nat
  | .nodeRole, c => [c.appNodeRole.toNat]
  | .nodeAddress, c => [c.nodeAddress.toNat]
  | .networkAddress, c => [c.networkAddress.toNat]
  | .networkChannel, c => [c.networkChannel.toNat]
  | .accessCycleRange, c => [c.acRangeMinCur.toNat, c.acRangeMaxCur.toNat]

theorem cached_stackStatus (a : ConfigAttribute) (c : SinkConfig) (v : UInt8) :
    a.cached { c with stackStatus := v } = a.cached c := by cases a <;> rfl

theorem cached_version (a : ConfigAttribute) (c : SinkConfig) (v : CArray UInt16 4) :
    a.cached { c with version := v } = a.cached c := by cases a <;> rfl

theorem cached_otapStatus (a : ConfigAttribute) (c : SinkConfig) (v : AppScratchpadStatus) :
    a.cached { c with otapStatus := v } = a.cached c := by cases a <;> rfl

theorem cached_target (a : ConfigAttribute) (c : SinkConfig) (v : ScratchpadTarget) :
    a.cached { c with target := v } = a.cached c := by cases a <;> rfl

/-- The value in a new configuration, if it carries the field. -/
def requested : ConfigAttribute → SinkNewConfig → Option (List Nat)
  | .nodeRole, cfg => cfg.nodeRole.map fun role => [(convertRoleToAppFormat role).toNat]
  | .nodeAddress, cfg => cfg.nodeAddress.map fun address => [address.toNat]
  | .networkAddress, cfg => cfg.networkAddress.map fun address => [address.toNat]
  | .networkChannel, cfg => cfg.networkChannel.map fun channel => [channel.toNat]
  | .accessCycleRange, cfg => cfg.currentAcRange.map fun range => [range.minMs.toNat, range.maxMs.toNat]

def written (a : ConfigAttribute) (q : Request) : Bool :=
  match q.payload with
  | .attributeWrite id _ _ => q.primitiveId == a.sap.writeRequest && id == a.id
  | _ => false

theorem written_other {a b : ConfigAttribute} (h : a ≠ b) (value : List UInt8) :
    a.written (attributeWrite b.sap b.id value) = false := by
  cases a <;> cases b <;> first | rfl | exact absurd rfl h

theorem written_of_configures {a : ConfigAttribute} {q : Request} (h : configures q = false) :
    a.written q = false := by
  unfold configures at h
  unfold written
  split
  · next hPayload =>
    rw [hPayload] at h
    have hListed : (a.sap, a.id) ∈ configAttributes := by cases a <;> decide
    exact Bool.eq_false_iff.mpr (List.any_eq_false.mp h _ hListed)
  · rfl

end ConfigAttribute

/-- A node that keeps the attributes as they were written, and answers a read that succeeds with
the value. It may refuse any read and any write. -/
structure AttributeStore {ν : Type} (env : Environment ν)
    (dsapDataTxRequest : UInt8 → Dsap.DataTx → ν → Int × ν)
    (attributes : ν → ConfigAttribute → Option (List UInt8)) : Prop where
  keeps : Keeps env attributes
  other : ∀ a q, a.written q = false → ∀ n, attributes (env.request q n).2 a = attributes n a
  data : ∀ mtu tx n, attributes (dsapDataTxRequest mtu tx n).2 = attributes n
  read : ∀ a n, (env.attributeRead a.sap a.id n).1.1 = 0 →
    attributes n a = some (env.attributeRead a.sap a.id n).1.2
  write : ∀ (a : ConfigAttribute) value n,
    ((env.request (attributeWrite a.sap a.id value) n).1 = 0 ∧
        attributes (env.request (attributeWrite a.sap a.id value) n).2 a = some value) ∨
      ((env.request (attributeWrite a.sap a.id value) n).1 ≠ 0 ∧
        attributes (env.request (attributeWrite a.sap a.id value) n).2 a = attributes n a)

section Store

variable {ν : Type}

/-- An attribute of the node, and what is cached of it. -/
def fieldOf (attributes : ν → ConfigAttribute → Option (List UInt8)) (a : ConfigAttribute)
    (w : World Gateway ν) : Option (List UInt8) × List Nat :=
  (attributes w.node a, a.cached w.gateway.sinkConfig)

def SameField (attributes : ν → ConfigAttribute → Option (List UInt8)) (a : ConfigAttribute)
    (w t : World Gateway ν) : Prop := fieldOf attributes a t = fieldOf attributes a w

/-- The cache has zeros for the attribute, or what the node has. -/
def Tracks (attributes : ν → ConfigAttribute → Option (List UInt8)) (a : ConfigAttribute)
    (w : World Gateway ν) : Prop :=
  (∀ n ∈ (fieldOf attributes a w).2, n = 0) ∨
    (fieldOf attributes a w).1.map a.decode = some (fieldOf attributes a w).2

def KeepsTrack (attributes : ν → ConfigAttribute → Option (List UInt8)) (a : ConfigAttribute)
    (w t : World Gateway ν) : Prop := Tracks attributes a w → Tracks attributes a t

variable {env : Environment ν} {dsapDataTxRequest : UInt8 → Dsap.DataTx → ν → Int × ν}
  {attributes : ν → ConfigAttribute → Option (List UInt8)} {a : ConfigAttribute}
  {w t : World Gateway ν}

theorem SameField.keepsTrack (h : SameField attributes a w t) : KeepsTrack attributes a w t := by
  unfold KeepsTrack Tracks
  rw [show fieldOf attributes a t = fieldOf attributes a w from h]
  exact fun hTracks => hTracks

theorem sameField_composes : Composes (SameField (ν := ν) attributes a) := composes_eq _

theorem sameField_node {n : ν} (h : attributes n a = attributes w.node a) :
    SameField attributes a w { w with node := n } := Prod.ext h rfl

theorem sameField_stores {f : SinkConfig → SinkConfig} (h : ∀ c, a.cached (f c) = a.cached c) :
    Stores (SameField attributes a) f := fun w => Prod.ext rfl (h w.gateway.sinkConfig)

variable (store : AttributeStore env dsapDataTxRequest attributes)

include store

theorem AttributeStore.asks : Asks env (SameField attributes a) :=
  store.keeps.asks sameField_composes fun _ _ h => sameField_node (congrFun h a)

theorem AttributeStore.asksTrack : Asks env (KeepsTrack attributes a) :=
  store.keeps.asks (composes_invariant _) fun _ _ h => (sameField_node (congrFun h a)).keepsTrack

theorem AttributeStore.sends {q : Request} (h : a.written q = false) :
    Sends env (SameField attributes a) q := fun w => sameField_node (store.other a q h w.node)

theorem AttributeStore.readOther {α : Type} {read : Call Gateway ν (Except AppRes α)}
    {put : α → SinkConfig → SinkConfig} (hRead : Moves (KeepsTrack attributes a) read)
    (hPut : ∀ v c, a.cached (put v c) = a.cached c) :
    Moves (KeepsTrack attributes a) (getValueFromNode read put) :=
  Reading.getValueFromNode store.asksTrack hRead fun v w => (sameField_stores (hPut v) w).keepsTrack

theorem AttributeStore.readOwn {α : Type} {length : Nat} {decode : List UInt8 → α}
    {put : α → SinkConfig → SinkConfig}
    (hPut : ∀ bytes c, a.cached (put (decode bytes) c) = a.decode bytes) :
    Moves (KeepsTrack attributes a)
      (getValueFromNode (readAttribute env a.sap a.id length decode) put) := by
  intro w
  have hSame : attributes (env.attributeRead a.sap a.id w.node).2 a = attributes w.node a :=
    congrFun (store.keeps.attributeRead _ _ _) a
  cases hResult : readResult length decode (env.attributeRead a.sap a.id w.node).1 with
  | error error =>
    have hReturns : Returns (getValueFromNode (readAttribute env a.sap a.id length decode) put) w
        false { w with node := (env.attributeRead a.sap a.id w.node).2 } :=
      returns_bind.mpr ⟨.error error, _, (returns_readAttribute env).mpr ⟨hResult.symm, rfl⟩, rfl⟩
    rw [hReturns.leaves]
    exact (sameField_node hSame).keepsTrack
  | ok value =>
    obtain ⟨⟨hZero, -⟩, rfl⟩ := readResult_eq_ok.mp hResult
    have hReturns : Returns (getValueFromNode (readAttribute env a.sap a.id length decode) put) w
        true { w with
          gateway.sinkConfig := put (decode (env.attributeRead a.sap a.id w.node).1.2)
            w.gateway.sinkConfig
          node := (env.attributeRead a.sap a.id w.node).2 } :=
      returns_bind.mpr ⟨.ok _, _, (returns_readAttribute env).mpr ⟨hResult.symm, rfl⟩, rfl⟩
    rw [hReturns.leaves]
    intro _
    refine .inr ?_
    unfold fieldOf
    dsimp only
    rw [hSame, store.read a w.node hZero, hPut]
    rfl

theorem AttributeStore.refresh : Moves (KeepsTrack attributes a) (refreshFullStackState env) := by
  have hAsks : Asks env (KeepsTrack attributes a) := store.asksTrack
  apply Reading.refreshFullStackState hAsks
  · have hOther : ∀ {α : Type} {sap : Sap} {id : UInt16} {length : Nat} {decode : List UInt8 → α}
        {put : α → SinkConfig → SinkConfig}, (∀ v c, a.cached (put v c) = a.cached c) →
        Moves (KeepsTrack attributes a) (getValueFromNode (readAttribute env sap id length decode) put) :=
      fun hPut => store.readOther (hAsks.readAttribute _ _ _ _) hPut
    unfold configReads
    simp only [List.forall_mem_cons]
    refine ⟨hOther ?_, hOther ?_, hOther ?_, hOther ?_, hOther ?_, hOther ?_, hOther ?_,
      store.readOther (hAsks.isKeySet _) ?_, store.readOther (hAsks.isKeySet _) ?_, hOther ?_,
      ?range, ?address, ?role, ?network, ?channel, ?version, nofun⟩
    case range =>
      cases a with
      | accessCycleRange => exact store.readOwn fun _ _ => rfl
      | _ => exact hOther fun _ _ => rfl
    case address =>
      cases a with
      | nodeAddress => exact store.readOwn fun _ _ => rfl
      | _ => exact hOther fun _ _ => rfl
    case role =>
      cases a with
      | nodeRole => exact store.readOwn fun _ _ => rfl
      | _ => exact hOther fun _ _ => rfl
    case network =>
      cases a with
      | networkAddress => exact store.readOwn fun _ _ => rfl
      | _ => exact hOther fun _ _ => rfl
    case channel =>
      cases a with
      | networkChannel => exact store.readOwn fun _ _ => rfl
      | _ => exact hOther fun _ _ => rfl
    case version =>
      exact Reading.getFirmwareVersion hAsks fun _ w =>
        (sameField_stores (fun c => a.cached_version c _) w).keepsTrack
    all_goals
      intro _ _
      cases a <;> rfl
  · exact fun v w => (sameField_stores (fun c => a.cached_otapStatus c v) w).keepsTrack
  · exact fun v w => (sameField_stores (fun c => a.cached_target c v) w).keepsTrack

theorem AttributeStore.handles : Handles env (KeepsTrack attributes a) where
  asks := store.asksTrack
  refresh := store.refresh
  stackStatus _ w := (sameField_stores (fun c => a.cached_stackStatus c _) w).keepsTrack
  events _ _ := SameField.keepsTrack rfl
  sends _ hQuiet w := (store.sends (ConfigAttribute.written_of_configures hQuiet) w).keepsTrack
  currentSeq _ := Moves.change fun _ => SameField.keepsTrack rfl
  restart _ := Moves.change fun _ => SameField.keepsTrack rfl

omit store in
theorem Handles.sendData {r : World Gateway ν → World Gateway ν → Prop} (h : Handles env r)
    (hData : ∀ mtu tx, Along r fun n => (dsapDataTxRequest mtu tx n).2) (req : SendPacketReq)
    (resp : Raw.SendPacketResp) : Moves r (protoDataHandleSendData env dsapDataTxRequest req resp) := by
  apply Moves.bind h.asks.composes
  · apply Moves.ite (.pure h.asks.composes _)
    apply Moves.bind h.asks.composes (.read h.asks.composes _)
    intro mtu
    apply Moves.bind h.asks.composes
    · exact hData _ _
    · intro res
      exact .pure h.asks.composes _
  · intro res
    apply Moves.bind h.asks.composes (Reading.fillResponseHeader h.asks _ _)
    intro header
    exact .pure h.asks.composes _

omit store in
/-- What is left to tell is what the data and a new configuration do. -/
theorem Handles.handle {r : World Gateway ν → World Gateway ν → Prop} (h : Handles env r)
    (hData : ∀ mtu tx, Along r fun n => (dsapDataTxRequest mtu tx n).2) {request : ProtoRequest}
    (memory : ResponseMemory)
    (hSetConfig : ∀ req, request = .setConfig req → Moves r (protoConfigHandleSetConfig env req memory.setConfig)) :
    Moves r (request.handle env dsapDataTxRequest memory) := by
  have hPure : ∀ resp, Moves r (pure resp : Call Gateway ν (AppProtoRes × ProtoResponse)) :=
    fun resp => .pure h.asks.composes resp
  cases request with
  | getConfigs req => exact Moves.bind h.asks.composes (h.getConfigs _ _) fun _ => hPure _
  | setConfig req => exact Moves.bind h.asks.composes (hSetConfig req rfl) fun _ => hPure _
  | sendPacket req => exact Moves.bind h.asks.composes (h.sendData hData _ _) fun _ => hPure _
  | getScratchpadStatus req =>
    exact Moves.bind h.asks.composes (h.getScratchpadStatus _ _) fun _ => hPure _
  | uploadScratchpad req => exact Moves.bind h.asks.composes (h.uploadScratchpad _ _) fun _ => hPure _
  | processScratchpad req => exact Moves.bind h.asks.composes (h.processScratchpad _ _) fun _ => hPure _
  | getGatewayInfo req => exact Moves.bind h.asks.composes (h.getGatewayInfo _ _) fun _ => hPure _
  | setScratchpadTargetAndAction req =>
    exact Moves.bind h.asks.composes (h.setScratchpadTargetAndAction _ _) fun _ => hPure _

theorem AttributeStore.handle {request : ProtoRequest} (memory : ResponseMemory)
    (hRequest : ∀ req, request ≠ .setConfig req) :
    Moves (KeepsTrack attributes a) (request.handle env dsapDataTxRequest memory) := by
  have hHandles : Handles env (KeepsTrack attributes a) := store.handles
  apply hHandles.handle
  · exact fun _ _ w => (sameField_node (congrFun (store.data _ _ w.node) a)).keepsTrack
  · exact fun req hEq => absurd hEq (hRequest req)

end Store

end CMeshApi.Proto
