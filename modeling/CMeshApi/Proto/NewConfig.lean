import CMeshApi.Proto.NodeConfig

/-!
# A new configuration reaches the node

A field is not written when its value is the cached one, and that is answered with OK as
well. What is cached is what the node has, apart from the zeros of a cache that has not
been read yet.
-/

namespace CMeshApi.Proto

open Programs Wpc Machine

section Fields

variable {ν : Type}

/-- The attribute has the value that is requested, if one is. -/
def Holds (attributes : ν → ConfigAttribute → Option (List UInt8)) (cfg : SinkNewConfig)
    (a : ConfigAttribute) (n : ν) : Prop :=
  ∀ v ∈ a.requested cfg, (attributes n a).map a.decode = some v

/-- The cache has the value that is requested, and the node has another one. -/
def Stale (attributes : ν → ConfigAttribute → Option (List UInt8)) (cfg : SinkNewConfig)
    (a : ConfigAttribute) (w : World Gateway ν) : Prop :=
  ∃ v ∈ a.requested cfg, a.cached w.gateway.sinkConfig = v ∧ (attributes w.node a).map a.decode ≠ some v

/-- The field is left alone, and no error is forgotten. -/
structure Leaves (attributes : ν → ConfigAttribute → Option (List UInt8)) (a : ConfigAttribute)
    (p : Progress) (w : World Gateway ν) (p' : Progress) (t : World Gateway ν) : Prop where
  same : SameField attributes a w t
  error : p'.globalRes = .ok → p.globalRes = .ok

/-- The attribute and the cache come to the requested value. -/
structure Written (attributes : ν → ConfigAttribute → Option (List UInt8)) (a : ConfigAttribute)
    (requested : Option (List Nat)) (w t : World Gateway ν) : Prop where
  tracked : (attributes t.node a).map a.decode = some (a.cached t.gateway.sinkConfig)
  requested : ∀ v ∈ requested, a.cached w.gateway.sinkConfig ≠ v ∧ a.cached t.gateway.sinkConfig = v

/-- Without an error a field that is left alone has the requested value in the cache, and any other
is written. -/
structure Sets (attributes : ν → ConfigAttribute → Option (List UInt8)) (a : ConfigAttribute)
    (requested : Option (List Nat)) (p : Progress) (w : World Gateway ν) (p' : Progress)
    (t : World Gateway ν) : Prop where
  outcome : (SameField attributes a w t ∧
      (p'.globalRes = .ok → ∀ v ∈ requested, a.cached w.gateway.sinkConfig = v)) ∨
    Written attributes a requested w t
  error : p'.globalRes = .ok → p.globalRes = .ok

variable {attributes : ν → ConfigAttribute → Option (List UInt8)} {a : ConfigAttribute}
  {requested : Option (List Nat)} {cfg : SinkNewConfig} {p p' p'' : Progress}
  {w t u : World Gateway ν}

theorem Leaves.trans (h : Leaves attributes a p w p' t) (h' : Leaves attributes a p' t p'' u) :
    Leaves attributes a p w p'' u := ⟨h'.same.trans h.same, fun hOk => h.error (h'.error hOk)⟩

theorem SameField.node (h : SameField attributes a w t) :
    attributes t.node a = attributes w.node a := congrArg Prod.fst h

theorem SameField.cached (h : SameField attributes a w t) :
    a.cached t.gateway.sinkConfig = a.cached w.gateway.sinkConfig := congrArg Prod.snd h

theorem Sets.after (h : Leaves attributes a p w p' t) (h' : Sets attributes a requested p' t p'' u) :
    Sets attributes a requested p w p'' u where
  outcome := by
    rcases h'.outcome with ⟨hSame, hCached⟩ | hWritten
    · refine .inl ⟨hSame.trans h.same, fun hOk v hv => ?_⟩
      rw [← h.same.cached]
      exact hCached hOk v hv
    · refine .inr ⟨hWritten.tracked, fun v hv => ?_⟩
      rw [← h.same.cached]
      exact hWritten.requested v hv
  error hOk := h.error (h'.error hOk)

theorem Sets.before (h : Sets attributes a requested p w p' t) (h' : Leaves attributes a p' t p'' u) :
    Sets attributes a requested p w p'' u where
  outcome := by
    rcases h.outcome with ⟨hSame, hCached⟩ | hWritten
    · exact .inl ⟨h'.same.trans hSame, fun hOk => hCached (h'.error hOk)⟩
    · refine .inr ⟨?_, fun v hv => ?_⟩
      · rw [h'.same.node, h'.same.cached]
        exact hWritten.tracked
      · rw [h'.same.cached]
        exact hWritten.requested v hv
  error hOk := h.error (h'.error hOk)

theorem Sets.keepsTrack (h : Sets attributes a requested p w p' t) : KeepsTrack attributes a w t := by
  rcases h.outcome with ⟨hSame, -⟩ | hWritten
  · exact hSame.keepsTrack
  · exact fun _ => .inr hWritten.tracked

theorem Sets.holds_iff (h : Sets attributes a (a.requested cfg) p w p' t) (hOk : p'.globalRes = .ok) :
    Holds attributes cfg a t.node ↔ ¬ Stale attributes cfg a w := by
  rcases h.outcome with ⟨hSame, hCached⟩ | hWritten
  · unfold Holds
    rw [hSame.node]
    constructor
    · rintro hHolds ⟨v, hv, -, hOther⟩
      exact hOther (hHolds v hv)
    · intro hNotStale v hv
      by_contra hOther
      exact hNotStale ⟨v, hv, hCached hOk v hv, hOther⟩
  · constructor
    · rintro - ⟨v, hv, hCached, -⟩
      exact (hWritten.requested v hv).1 hCached
    · intro _ v hv
      rw [hWritten.tracked, (hWritten.requested v hv).2]

end Fields

section Setting

variable {ν α : Type} {env : Environment ν} {dsapDataTxRequest : UInt8 → Dsap.DataTx → ν → Int × ν}
  {attributes : ν → ConfigAttribute → Option (List UInt8)} {a : ConfigAttribute}
  {cfg : SinkNewConfig} {p p' : Progress} {w t : World Gateway ν}

theorem setValue_error {write : Call Gateway ν AppRes} {put : Call Gateway ν Unit}
    (h : Returns (setValue write put p) w p' t) (hOk : p'.globalRes = .ok) : p.globalRes = .ok := by
  obtain ⟨res, u, -, hRest⟩ := returns_bind.mp h
  rcases returns_ite.mp hRest with ⟨-, hPure⟩ | ⟨-, hPut⟩
  · obtain ⟨rfl, -⟩ := returns_pure.mp hPure
    cases hOk
  · obtain ⟨_, v, -, hPure⟩ := returns_bind.mp hPut
    obtain ⟨rfl, -⟩ := returns_pure.mp hPure
    exact hOk

theorem setField_error {field : Option α} {cached : SinkConfig → α → Bool} {inRange : α → Bool}
    {write : α → Call Gateway ν AppRes} {put : α → SinkConfig → SinkConfig}
    (h : Returns (setField field cached inRange write put p) w p' t) (hOk : p'.globalRes = .ok) :
    p.globalRes = .ok := by
  obtain ⟨g, u, -, hRest⟩ := returns_bind.mp h
  cases field with
  | none =>
    obtain ⟨rfl, -⟩ := returns_pure.mp hRest
    exact hOk
  | some v =>
    rcases returns_ite.mp hRest with ⟨-, hPure⟩ | ⟨-, hRest⟩
    · obtain ⟨rfl, -⟩ := returns_pure.mp hPure
      exact hOk
    · rcases returns_ite.mp hRest with ⟨-, hSet⟩ | ⟨-, hPure⟩
      · exact setValue_error hSet hOk
      · obtain ⟨rfl, -⟩ := returns_pure.mp hPure
        cases hOk

/-- A write that succeeds gives the attribute its value, and one that fails changes nothing. -/
structure Writes (attributes : ν → ConfigAttribute → Option (List UInt8)) (a : ConfigAttribute)
    (value : List Nat) (w : World Gateway ν) (res : AppRes) (t : World Gateway ν) : Prop where
  gateway : t.gateway = w.gateway
  stored : (res = .ok ∧ (attributes t.node a).map a.decode = some value) ∨
    (res ≠ .ok ∧ attributes t.node a = attributes w.node a)

theorem sets_of_writes {field : Option α} {cached : SinkConfig → α → Bool} {inRange : α → Bool}
    {write : α → Call Gateway ν AppRes} {put : α → SinkConfig → SinkConfig} (value : α → List Nat)
    (hCached : ∀ c v, cached c v = true ↔ a.cached c = value v)
    (hPut : ∀ v c, inRange v = true → a.cached (put v c) = value v)
    (hWrite : ∀ {v w res t}, inRange v = true → Returns (write v) w res t →
      Writes attributes a (value v) w res t)
    (h : Returns (setField field cached inRange write put p) w p' t) :
    Sets attributes a (field.map value) p w p' t := by
  refine ⟨?_, setField_error h⟩
  obtain ⟨g, w', hGateway, hRest⟩ := returns_bind.mp h
  obtain ⟨rfl, rfl⟩ := returns_read.mp hGateway
  cases field with
  | none =>
    obtain ⟨rfl, rfl⟩ := returns_pure.mp hRest
    exact .inl ⟨rfl, fun _ => nofun⟩
  | some v =>
    rcases returns_ite.mp hRest with ⟨hSkip, hPure⟩ | ⟨hOther, hRest⟩
    · obtain ⟨rfl, rfl⟩ := returns_pure.mp hPure
      refine .inl ⟨rfl, ?_⟩
      rintro - _ ⟨rfl⟩
      exact (hCached _ _).mp hSkip
    · rcases returns_ite.mp hRest with ⟨hInRange, hSet⟩ | ⟨-, hPure⟩
      · obtain ⟨res, u, hWritten, hRest⟩ := returns_bind.mp hSet
        obtain ⟨hSame, hAttribute⟩ := hWrite hInRange hWritten
        rcases returns_ite.mp hRest with ⟨hFailed, hPure⟩ | ⟨hOk, hPut'⟩
        · obtain ⟨rfl, rfl⟩ := returns_pure.mp hPure
          rcases hAttribute with ⟨hOk, -⟩ | ⟨-, hAttribute⟩
          · exact absurd hOk hFailed
          · refine .inl ⟨Prod.ext hAttribute ?_, nofun⟩
            exact congrArg (fun g : Gateway => a.cached g.sinkConfig) hSame
        · obtain ⟨_, x, hChange, hPure⟩ := returns_bind.mp hPut'
          obtain ⟨-, rfl⟩ := returns_pure.mp hPure
          rcases hAttribute with ⟨-, hAttribute⟩ | ⟨hFailed, -⟩
          · refine .inr ⟨?_, ?_⟩
            · rw [returns_change.mp hChange]
              dsimp only
              rw [hPut _ _ hInRange]
              exact hAttribute
            · rintro _ ⟨rfl⟩
              refine ⟨fun hEq => hOther ((hCached _ _).mpr hEq), ?_⟩
              rw [returns_change.mp hChange]
              exact hPut _ _ hInRange
          · exact absurd hFailed hOk
      · obtain ⟨rfl, rfl⟩ := returns_pure.mp hPure
        exact .inl ⟨rfl, nofun⟩

variable (store : AttributeStore env dsapDataTxRequest attributes)

include store

theorem AttributeStore.writes {value : List Nat} {bytes : List UInt8} {res : AppRes}
    (h : Returns (writeAttribute env a.sap a.id bytes) w res t) (hValue : a.decode bytes = value)
    (hShort : bytes.length ≤ maxAttributeSize) :
    Writes attributes a value w res t := by
  have hTable : OkOnlyAtZero attWriteErrorCodeLut := by decide
  unfold writeAttribute attributeWriteRequest at h
  rw [if_neg (Nat.not_lt.mpr hShort)] at h
  obtain ⟨answer, u, hRequest, hPure⟩ := returns_bind.mp h
  obtain ⟨rfl, rfl⟩ := returns_pure.mp hPure
  obtain ⟨rfl, rfl⟩ := returns_ask.mp hRequest
  refine ⟨rfl, ?_⟩
  rcases store.write a bytes w.node with ⟨hZero, hStored⟩ | ⟨hNonzero, hSame⟩
  · refine .inl ⟨(convertErrorCode_eq_ok hTable).mpr hZero, ?_⟩
    rw [hStored, ← hValue]
    rfl
  · exact .inr ⟨fun hOk => hNonzero ((convertErrorCode_eq_ok hTable).mp hOk), hSame⟩

theorem AttributeStore.setNodeRole (h : Returns (setNodeRole env cfg p) w p' t) :
    Sets attributes .nodeRole (ConfigAttribute.nodeRole.requested cfg) p w p' t := by
  have hSets : Sets attributes .nodeRole
      ((cfg.nodeRole.map convertRoleToAppFormat).map fun role => [role.toNat]) p w p' t := by
    refine sets_of_writes (a := .nodeRole) (fun role : UInt8 => [role.toNat]) ?cached
      (fun _ _ _ => rfl) ?writes h
    case cached =>
      intro c role
      rw [beq_iff_eq]
      exact eq_comm.trans (UInt8.toNat_inj.symm.trans List.singleton_inj.symm)
    case writes =>
      intro role w res t _ hWrite
      exact store.writes hWrite rfl (show 1 ≤ 40 by decide)
  rw [Option.map_map] at hSets
  exact hSets

theorem AttributeStore.setNodeAddress (h : Returns (setNodeAddress env cfg p) w p' t) :
    Sets attributes .nodeAddress (ConfigAttribute.nodeAddress.requested cfg) p w p' t := by
  refine sets_of_writes (a := .nodeAddress) (fun address : UInt32 => [address.toNat]) ?cached
    (fun _ _ _ => rfl) ?writes h
  case cached =>
    intro c address
    rw [beq_iff_eq]
    exact eq_comm.trans (UInt32.toNat_inj.symm.trans List.singleton_inj.symm)
  case writes =>
    intro address w res t _ hWrite
    refine store.writes hWrite ?_ (show 4 ≤ 40 by decide)
    exact congrArg (fun v : UInt32 => [v.toNat]) (uint32DecodeLe_encode address)

theorem AttributeStore.setNetworkAddress (h : Returns (setNetworkAddress env cfg p) w p' t) :
    Sets attributes .networkAddress (ConfigAttribute.networkAddress.requested cfg) p w p' t := by
  have hCut : ∀ address : UInt64, decide (address ≤ 0xffffffff) = true →
      address.toUInt32.toNat = address.toNat := by
    intro address hInRange
    have hLe : address.toNat ≤ 0xffffffff := UInt64.le_iff_toNat_le.mp (of_decide_eq_true hInRange)
    rw [UInt64.toNat_toUInt32]
    exact Nat.mod_eq_of_lt (Nat.lt_succ_of_le hLe)
  refine sets_of_writes (a := .networkAddress) (fun address : UInt64 => [address.toNat]) ?cached ?put
    ?writes h
  case cached =>
    intro c address
    rw [beq_iff_eq, ← UInt64.toNat_inj, UInt32.toNat_toUInt64]
    exact eq_comm.trans List.singleton_inj.symm
  case put => exact fun address c hInRange => congrArg (fun n => [n]) (hCut address hInRange)
  case writes =>
    intro address w res t hInRange hWrite
    rcases returns_ite.mp hWrite with ⟨-, hPure⟩ | ⟨hThree, hWrite⟩
    · obtain ⟨rfl, rfl⟩ := returns_pure.mp hPure
      exact ⟨rfl, .inr ⟨nofun, rfl⟩⟩
    · refine store.writes hWrite ?_ (show 3 ≤ 40 by decide)
      change [(uint32DecodeLe ((uint32EncodeLe address.toUInt32).take 3)).toNat] = [address.toNat]
      rw [uint32DecodeLe_three (of_not_not hThree), hCut address hInRange]

theorem AttributeStore.setNetworkChannel (h : Returns (setNetworkChannel env cfg p) w p' t) :
    Sets attributes .networkChannel (ConfigAttribute.networkChannel.requested cfg) p w p' t := by
  have hCut : ∀ channel : UInt32, decide (channel ≤ 0xff) = true →
      channel.toUInt8.toNat = channel.toNat := by
    intro channel hInRange
    have hLe : channel.toNat ≤ 0xff := UInt32.le_iff_toNat_le.mp (of_decide_eq_true hInRange)
    rw [UInt32.toNat_toUInt8]
    exact Nat.mod_eq_of_lt (Nat.lt_succ_of_le hLe)
  refine sets_of_writes (a := .networkChannel) (fun channel : UInt32 => [channel.toNat]) ?cached ?put
    ?writes h
  case cached =>
    intro c channel
    rw [beq_iff_eq, ← UInt32.toNat_inj, UInt8.toNat_toUInt32]
    exact eq_comm.trans List.singleton_inj.symm
  case put => exact fun channel c hInRange => congrArg (fun n => [n]) (hCut channel hInRange)
  case writes =>
    intro channel w res t hInRange hWrite
    refine store.writes hWrite ?_ (show 1 ≤ 40 by decide)
    exact congrArg (fun n => [n]) (hCut channel hInRange)

theorem AttributeStore.setAcRange (h : Returns (setAcRange env cfg p) w p' t) :
    Sets attributes .accessCycleRange (ConfigAttribute.accessCycleRange.requested cfg) p w p' t := by
  have hCut : ∀ ms : UInt32, decide (ms ≤ 0xffff) = true → ms.toUInt16.toNat = ms.toNat := by
    intro ms hInRange
    have hLe : ms.toNat ≤ 0xffff := UInt32.le_iff_toNat_le.mp (of_decide_eq_true hInRange)
    rw [UInt32.toNat_toUInt16]
    exact Nat.mod_eq_of_lt (Nat.lt_succ_of_le hLe)
  have hCutRange : ∀ range : AccessCycleRange, range.inRange = true →
      [range.minMs.toUInt16.toNat, range.maxMs.toUInt16.toNat] =
        [range.minMs.toNat, range.maxMs.toNat] := by
    intro range hInRange
    obtain ⟨hMin, hMax⟩ := Bool.and_eq_true_iff.mp hInRange
    rw [hCut _ hMin, hCut _ hMax]
  rw [setAcRange_eq] at h
  refine sets_of_writes (a := .accessCycleRange)
    (fun range : AccessCycleRange => [range.minMs.toNat, range.maxMs.toNat]) ?cached ?put ?writes h
  case cached =>
    intro c range
    unfold AccessCycleRange.cached
    rw [Bool.and_eq_true, beq_iff_eq, beq_iff_eq, ← UInt32.toNat_inj, ← UInt32.toNat_inj,
      UInt16.toNat_toUInt32, UInt16.toNat_toUInt32]
    constructor
    · rintro ⟨hMin, hMax⟩
      rw [hMin, hMax]
      rfl
    · intro hEq
      injection hEq with hMin hRest
      injection hRest with hMax
      exact ⟨hMin.symm, hMax.symm⟩
  case put => exact fun range c hInRange => hCutRange range hInRange
  case writes =>
    intro range w res t hInRange hWrite
    refine store.writes hWrite ?_ (show 4 ≤ 40 by decide)
    rw [← hCutRange range hInRange]
    change [(uint16DecodeLe (uint16EncodeLe range.minMs.toUInt16)).toNat,
      (uint16DecodeLe (uint16EncodeLe range.maxMs.toUInt16)).toNat] = _
    rw [uint16DecodeLe_encode, uint16DecodeLe_encode]

theorem AttributeStore.setField_leaves {field : Option α} {cached : SinkConfig → α → Bool}
    {inRange : α → Bool} {write : α → Call Gateway ν AppRes} {put : α → SinkConfig → SinkConfig}
    (hWrite : ∀ v, Moves (SameField attributes a) (write v))
    (hPut : ∀ v c, a.cached (put v c) = a.cached c)
    (h : Returns (setField field cached inRange write put p) w p' t) :
    Leaves attributes a p w p' t where
  same := (Reading.setField store.asks hWrite (fun v => sameField_stores (hPut v)) p).returns h
  error := setField_error h

theorem AttributeStore.setAppConfig (h : Returns (setAppConfig env cfg p) w p' t) :
    Leaves attributes a p w p' t where
  same := (Reading.setAppConfig store.asks (fun _ _ _ => store.sends rfl) cfg p).returns h
  error := by
    intro hOk
    unfold Proto.setAppConfig at h
    split at h
    · exact (returns_pure.mp h).1 ▸ hOk
    · rcases returns_ite.mp h with ⟨-, hPure⟩ | ⟨-, h⟩
      · obtain ⟨rfl, -⟩ := returns_pure.mp hPure
        cases hOk
      · rcases returns_ite.mp h with ⟨-, hPure⟩ | ⟨-, hSet⟩
        · obtain ⟨rfl, -⟩ := returns_pure.mp hPure
          cases hOk
        · exact setValue_error hSet hOk

theorem AttributeStore.setKeys (h : Returns (setKeys env cfg p) w p' t) :
    Leaves attributes a p w p' t where
  same := by
    refine (Reading.setKeys store.asks (fun key => store.sends ?_) (fun key => store.sends ?_)
      (fun v => sameField_stores ?_) (fun v => sameField_stores ?_) cfg p).returns h
    · cases a <;> rfl
    · cases a <;> rfl
    · intro c
      cases a <;> rfl
    · intro c
      cases a <;> rfl
  error := by
    intro hOk
    unfold Proto.setKeys at h
    split at h
    · exact (returns_pure.mp h).1 ▸ hOk
    · obtain ⟨p₁, u, hCipher, hAuth⟩ := returns_bind.mp h
      exact setValue_error hCipher (setValue_error hAuth hOk)

theorem AttributeStore.setNodeRole_leaves (hNe : a ≠ .nodeRole)
    (h : Returns (Proto.setNodeRole env cfg p) w p' t) : Leaves attributes a p w p' t := by
  refine store.setField_leaves (fun _ =>
    store.asks.writeAttribute (store.sends (ConfigAttribute.written_other hNe _))) ?_ h
  intro v c
  cases a <;> first | rfl | exact absurd rfl hNe

theorem AttributeStore.setNodeAddress_leaves (hNe : a ≠ .nodeAddress)
    (h : Returns (Proto.setNodeAddress env cfg p) w p' t) : Leaves attributes a p w p' t := by
  refine store.setField_leaves (fun _ =>
    store.asks.writeAttribute (store.sends (ConfigAttribute.written_other hNe _))) ?_ h
  intro v c
  cases a <;> first | rfl | exact absurd rfl hNe

theorem AttributeStore.setNetworkAddress_leaves (hNe : a ≠ .networkAddress)
    (h : Returns (Proto.setNetworkAddress env cfg p) w p' t) : Leaves attributes a p w p' t := by
  refine store.setField_leaves (fun _ =>
    store.asks.wpcSetNetworkAddress (store.sends (ConfigAttribute.written_other hNe _))) ?_ h
  intro v c
  cases a <;> first | rfl | exact absurd rfl hNe

theorem AttributeStore.setNetworkChannel_leaves (hNe : a ≠ .networkChannel)
    (h : Returns (Proto.setNetworkChannel env cfg p) w p' t) : Leaves attributes a p w p' t := by
  refine store.setField_leaves (fun _ =>
    store.asks.writeAttribute (store.sends (ConfigAttribute.written_other hNe _))) ?_ h
  intro v c
  cases a <;> first | rfl | exact absurd rfl hNe

theorem AttributeStore.setAcRange_leaves (hNe : a ≠ .accessCycleRange)
    (h : Returns (Proto.setAcRange env cfg p) w p' t) : Leaves attributes a p w p' t := by
  rw [setAcRange_eq] at h
  refine store.setField_leaves (fun _ =>
    store.asks.writeAttribute (store.sends (ConfigAttribute.written_other hNe _))) ?_ h
  intro v c
  cases a <;> first | rfl | exact absurd rfl hNe

/-- Each field is set in its turn, and left alone by the others. -/
theorem AttributeStore.setFields (h : Returns (setFields env cfg p) w p' t) :
    Sets attributes a (a.requested cfg) p w p' t := by
  obtain ⟨p₁, w₁, hRole, h⟩ := returns_bind.mp h
  obtain ⟨p₂, w₂, hAddress, h⟩ := returns_bind.mp h
  obtain ⟨p₃, w₃, hNetwork, h⟩ := returns_bind.mp h
  obtain ⟨p₄, w₄, hChannel, h⟩ := returns_bind.mp h
  obtain ⟨p₅, w₅, hAppConfig, h⟩ := returns_bind.mp h
  obtain ⟨p₆, w₆, hKeys, hRange⟩ := returns_bind.mp h
  have hRoleLeft : a ≠ .nodeRole → Leaves attributes a p w p₁ w₁ :=
    fun hNe => store.setNodeRole_leaves hNe hRole
  have hAddressLeft : a ≠ .nodeAddress → Leaves attributes a p₁ w₁ p₂ w₂ :=
    fun hNe => store.setNodeAddress_leaves hNe hAddress
  have hNetworkLeft : a ≠ .networkAddress → Leaves attributes a p₂ w₂ p₃ w₃ :=
    fun hNe => store.setNetworkAddress_leaves hNe hNetwork
  have hChannelLeft : a ≠ .networkChannel → Leaves attributes a p₃ w₃ p₄ w₄ :=
    fun hNe => store.setNetworkChannel_leaves hNe hChannel
  have hOthersLeft : Leaves attributes a p₄ w₄ p₆ w₆ :=
    (store.setAppConfig hAppConfig).trans (store.setKeys hKeys)
  have hRangeLeft : a ≠ .accessCycleRange → Leaves attributes a p₆ w₆ p' t :=
    fun hNe => store.setAcRange_leaves hNe hRange
  cases a with
  | nodeRole =>
    exact (store.setNodeRole hRole).before ((hAddressLeft nofun).trans ((hNetworkLeft nofun).trans
      ((hChannelLeft nofun).trans (hOthersLeft.trans (hRangeLeft nofun)))))
  | nodeAddress =>
    exact ((store.setNodeAddress hAddress).after (hRoleLeft nofun)).before ((hNetworkLeft nofun).trans
      ((hChannelLeft nofun).trans (hOthersLeft.trans (hRangeLeft nofun))))
  | networkAddress =>
    exact ((store.setNetworkAddress hNetwork).after ((hRoleLeft nofun).trans (hAddressLeft nofun))).before
      ((hChannelLeft nofun).trans (hOthersLeft.trans (hRangeLeft nofun)))
  | networkChannel =>
    exact ((store.setNetworkChannel hChannel).after ((hRoleLeft nofun).trans ((hAddressLeft nofun).trans
      (hNetworkLeft nofun)))).before (hOthersLeft.trans (hRangeLeft nofun))
  | accessCycleRange =>
    exact (store.setAcRange hRange).after ((hRoleLeft nofun).trans ((hAddressLeft nofun).trans
      ((hNetworkLeft nofun).trans ((hChannelLeft nofun).trans hOthersLeft))))

omit store in
theorem restartForConfig_error (h : Returns (restartForConfig env p) w p' t)
    (hOk : p'.globalRes = .ok) : p.globalRes = .ok := by
  obtain ⟨res, u, -, hRest⟩ := returns_bind.mp h
  rcases returns_ite.mp hRest with ⟨hFailed, hPure⟩ | ⟨-, hAutostart⟩
  · obtain ⟨rfl, -⟩ := returns_pure.mp hPure
    by_contra hError
    exact hError ((if_neg hError).symm.trans hOk)
  · obtain ⟨_, v, -, hRest⟩ := returns_bind.mp hAutostart
    obtain ⟨_, x, -, hPure⟩ := returns_bind.mp hRest
    obtain ⟨rfl, -⟩ := returns_pure.mp hPure
    exact hOk

theorem AttributeStore.stopForConfig (h : Returns (stopForConfig env p) w p' t) :
    Leaves attributes a p w p' t where
  same := by
    refine (Reading.stopForConfig store.asks (store.sends ?_) (store.sends ?_)
      (sameField_stores fun c => a.cached_stackStatus c _) p).returns h
    · cases a <;> rfl
    · rfl
  error := by
    obtain ⟨_, u, -, hSet⟩ := returns_bind.mp h
    exact setValue_error hSet

theorem AttributeStore.stopIfNeeded {stop : Bool}
    (h : Returns (if stop then Proto.stopForConfig env p else pure p) w p' t) :
    Leaves attributes a p w p' t := by
  rcases returns_ite.mp h with ⟨-, hStop⟩ | ⟨-, hPure⟩
  · exact store.stopForConfig hStop
  · obtain ⟨rfl, rfl⟩ := returns_pure.mp hPure
    exact ⟨rfl, id⟩

/-- The relation between worlds whose nodes have the same value of the attribute. -/
theorem AttributeStore.refreshes :
    Refreshes env fun w t : World Gateway ν => attributes t.node a = attributes w.node a := by
  apply refreshes_of_stores
  · exact store.keeps.asks (composes_eq fun w : World Gateway ν => attributes w.node a)
      fun _ _ h => congrFun h a
  · exact fun _ _ => rfl
  · exact fun _ _ => rfl

theorem AttributeStore.applyConfig {res : AppRes} (h : Returns (applyConfig env cfg) w res t) :
    KeepsTrack attributes a w t ∧
      (res = .ok → (Holds attributes cfg a t.node ↔ ¬ Stale attributes cfg a w)) := by
  obtain ⟨_, u, hStatus, h⟩ := returns_bind.mp h
  obtain ⟨g, u', hGateway, h⟩ := returns_bind.mp h
  obtain ⟨rfl, rfl⟩ := returns_read.mp hGateway
  obtain ⟨p₁, w₁, hStop, h⟩ := returns_bind.mp h
  obtain ⟨p₂, w₂, hFields, h⟩ := returns_bind.mp h
  obtain ⟨p₃, w₃, hRestart, h⟩ := returns_bind.mp h
  obtain ⟨_, w₄, hRefresh, hPure⟩ := returns_bind.mp h
  obtain ⟨rfl, rfl⟩ := returns_pure.mp hPure
  have hStatusRead : SameField attributes a w u' :=
    (Reading.getValueFromNode store.asks (store.asks.readAttribute _ _ _ _) fun v =>
      sameField_stores fun c => a.cached_stackStatus c v).returns hStatus
  have hSet := ((store.setFields hFields).after (store.stopIfNeeded hStop)).after ⟨hStatusRead, id⟩
  -- The restart and the refresh leave the node as it is; they may bring the cache up to it.
  have hAutostart : ∀ v, a.written (attributeWrite .msap msapAutostart v) = false := by
    intro v
    cases a <;> rfl
  have hEnd : ∀ {r : World Gateway ν → World Gateway ν → Prop}, Refreshes env r →
      (∀ q, a.written q = false → Sends env r q) → r w₂ t := by
    intro r hr hSends
    refine hr.asks.composes.trans ?_ (?_ : r w₃ t)
    · refine (Moves.ite (hr.restartForConfig (hSends _ rfl) (hSends _ (hAutostart _)) _)
        (.pure hr.asks.composes _)).returns hRestart
    · exact (Moves.ite (hr.onStackStatusReceived _) (.pure hr.asks.composes _)).returns hRefresh
  have hError : p₃.globalRes = .ok → p₂.globalRes = .ok := by
    rcases returns_ite.mp hRestart with ⟨-, hRestart⟩ | ⟨-, hPure⟩
    · exact restartForConfig_error hRestart
    · obtain ⟨rfl, -⟩ := returns_pure.mp hPure
      exact id
  constructor
  · intro hTracks
    refine hEnd store.handles.toRefreshes (fun q hQuiet v => ?_) (hSet.keepsTrack hTracks)
    exact (store.sends hQuiet v).keepsTrack
  · intro hOk
    have hNode : attributes t.node a = attributes w₂.node a :=
      hEnd store.refreshes fun q hQuiet v => store.other a q hQuiet v.node
    have hHolds := hSet.holds_iff (hError hOk)
    unfold Holds at hHolds ⊢
    rw [hNode]
    exact hHolds

theorem AttributeStore.handleSetConfig {req : SetConfigReq} {resp : Raw.SetConfigResp}
    {b : AppProtoRes × Raw.SetConfigResp}
    (h : Returns (protoConfigHandleSetConfig env req resp) w b t) :
    KeepsTrack attributes a w t ∧
      (req.config.sinkId.chars = w.gateway.ids.sinkId.chars → b.2.header.res = ErrorCode.ok.value →
        (Holds attributes req.config a t.node ↔ ¬ Stale attributes req.config a w)) := by
  obtain ⟨g, w', hGateway, h⟩ := returns_bind.mp h
  obtain ⟨rfl, rfl⟩ := returns_read.mp hGateway
  rcases returns_ite.mp h with ⟨hOther, hRefused⟩ | ⟨-, hThisSink⟩
  · obtain ⟨header, u, hHeader, hPure⟩ := returns_bind.mp hRefused
    obtain ⟨rfl, rfl⟩ := returns_pure.mp hPure
    have hSame : SameField attributes a w' t := (Reading.fillResponseHeader store.asks _ _).returns hHeader
    exact ⟨hSame.keepsTrack, fun hSink => absurd hSink hOther⟩
  · obtain ⟨res, u, hApply, hRest⟩ := returns_bind.mp hThisSink
    obtain ⟨header, v, hHeader, hRest⟩ := returns_bind.mp hRest
    obtain ⟨config, x, hConfig, hPure⟩ := returns_bind.mp hRest
    obtain ⟨rfl, rfl⟩ := returns_pure.mp hPure
    have hSame : SameField attributes a u t :=
      sameField_composes.trans ((Reading.fillResponseHeader store.asks _ _).returns hHeader)
        ((Reading.fillSinkReadConfig store.asks).returns hConfig)
    obtain ⟨hTrack, hHolds⟩ := store.applyConfig (a := a) hApply
    refine ⟨fun hTracks => hSame.keepsTrack (hTrack hTracks), fun _ hOk => ?_⟩
    have hHolds := hHolds (ok_of_responseHeader env hHeader hOk)
    unfold Holds at hHolds ⊢
    rw [hSame.node]
    exact hHolds

end Setting

end CMeshApi.Proto
