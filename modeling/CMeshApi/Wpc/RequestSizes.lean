import CMeshApi.Dsap.Fragmentation
import CMeshApi.Wpc.Management

/-!
# The sizes of the requests

The builders of `dsap.c` and `msap.c` cut what they copy to limits that the node
reported, where the arrays of the requests have sizes of their own. A request is
well built if its bytes are inside of its array and its length counts them.
-/

namespace CMeshApi.Wpc

open Programs Dsap Reassembly Segment

variable {γ ν α : Type}

/-- The bytes of the payload that the builder filled. -/
def Payload.filled : Payload → Nat
  | .none => 0
  | .attributeWrite _ _ attributeValue => 3 + attributeValue.length
  | .stackStart _ => 1
  | .appConfigDataWrite _ _ appConfigData => 3 + appConfigData.length
  | .imageStart _ _ => 5
  | .imageBlock _ _ bytes => 5 + bytes.length
  | .scratchpadTargetWrite _ _ _ _ => 5

def Payload.InArray : Payload → Prop
  | .attributeWrite _ _ attributeValue => attributeValue.length ≤ maxAttributeSize
  | .appConfigDataWrite _ _ appConfigData => appConfigData.length ≤ maximumAppConfigSize
  | .imageBlock _ _ bytes => bytes.length ≤ maximumScratchpadBlockSize
  | _ => True

structure Request.WellBuilt (r : Request) : Prop where
  inArray : r.payload.InArray
  counted : r.payloadLength.toNat = r.payload.filled

def txFilled : TxPayload → Nat
  | .tt p => 15 + p.apdu.length
  | .frag p => 19 + p.apdu.length

def txApdu : TxPayload → List UInt8
  | .tt p => p.apdu
  | .frag p => p.apdu

structure TxWellBuilt (r : TxRequest) : Prop where
  inArray : (txApdu r.payload).length ≤ maxApduDsapSize
  counted : r.payloadLength.toNat = txFilled r.payload

/-- The environment with a record of the requests that it was given. -/
def Environment.recorded (env : Environment ν) : Environment (List Request × ν) where
  request r s := ((env.request r s.2).1, s.1 ++ [r], (env.request r s.2).2)
  attributeRead sap id s := ((env.attributeRead sap id s.2).1, s.1, (env.attributeRead sap id s.2).2)
  appConfigDataRead s := ((env.appConfigDataRead s.2).1, s.1, (env.appConfigDataRead s.2).2)
  scratchpadStatus s := ((env.scratchpadStatus s.2).1, s.1, (env.scratchpadStatus s.2).2)
  scratchpadTargetRead s := ((env.scratchpadTargetRead s.2).1, s.1, (env.scratchpadTargetRead s.2).2)
  timestampMsMonotonic s := ((env.timestampMsMonotonic s.2).1, s.1, (env.timestampMsMonotonic s.2).2)
  timestampMsEpoch s := ((env.timestampMsEpoch s.2).1, s.1, (env.timestampMsEpoch s.2).2)
  malloc s := ((env.malloc s.2).1, s.1, (env.malloc s.2).2)
  rand s := ((env.rand s.2).1, s.1, (env.rand s.2).2)
  rounds := env.rounds

def World.recording (w : World γ ν) : World γ (List Request × ν) := ⟨w.statics, w.gateway, [], w.node⟩

/-- The requests that a call sends from `w` on, whether it returns or not. -/
def requestsOf (p : Call γ (List Request × ν) α) (w : World γ ν) : List Request :=
  (p w.recording).2.node.1

theorem requestsOf_eq {p : Call γ (List Request × ν) α} {w : World γ ν} {a : α}
    {t : World γ (List Request × ν)} (h : Returns p w.recording a t) :
    requestsOf p w = t.node.1 := by
  unfold requestsOf
  rw [show p w.recording = (some a, t) from h]

/-- A call that adds no request but well built ones to the record. -/
def KeepsWellBuilt (p : Call γ (List Request × ν) α) : Prop :=
  Moves (fun w t => (∀ r ∈ w.node.1, r.WellBuilt) → ∀ r ∈ t.node.1, r.WellBuilt) p

theorem composes_wellBuilt : Composes fun w t : World γ (List Request × ν) =>
    (∀ r ∈ w.node.1, r.WellBuilt) → ∀ r ∈ t.node.1, r.WellBuilt :=
  composes_invariant fun w : World γ (List Request × ν) => ∀ r ∈ w.node.1, r.WellBuilt

theorem KeepsWellBuilt.requestsOf {p : Call γ (List Request × ν) α} (h : KeepsWellBuilt p)
    (w : World γ ν) : ∀ r ∈ requestsOf p w, r.WellBuilt :=
  h w.recording nofun

variable (env : Environment ν)

theorem keepsWellBuilt_request {r : Request} (h : r.WellBuilt) :
    KeepsWellBuilt (ask (env.recorded.request r) : Call γ (List Request × ν) Int) := by
  apply moves_ask
  intro w hBefore r' hr'
  rcases List.mem_append.mp hr' with hOld | hNew
  · exact hBefore r' hOld
  · exact List.mem_singleton.mp hNew ▸ h

theorem keepsWellBuilt_readAttribute (sap : Sap) (attributeId : UInt16) (attributeLength : Nat)
    (decode : List UInt8 → α) :
    KeepsWellBuilt (γ := γ) (readAttribute env.recorded sap attributeId attributeLength decode) := by
  intro w
  have hReturns : Returns (readAttribute env.recorded sap attributeId attributeLength decode) w _ _ :=
    (returns_readAttribute env.recorded).mpr ⟨rfl, rfl⟩
  rw [show readAttribute env.recorded sap attributeId attributeLength decode w = _ from hReturns]
  exact id

theorem scratchpadBlock_wellBuilt (startAddress : UInt32) {bytes : List UInt8}
    (h : bytes.length ≤ maximumScratchpadBlockSize) :
    (scratchpadBlock startAddress bytes).WellBuilt := by
  refine ⟨h, ?_⟩
  have hSize : maximumScratchpadBlockSize = 112 := rfl
  change (UInt8.ofNat (5 + maximumScratchpadBlockSize -
    (maximumScratchpadBlockSize - bytes.length))).toNat = 5 + bytes.length
  rw [UInt8.toNat_ofNat']
  omega

theorem keepsWellBuilt_msapScratchpadBlockRequest (startAddress : UInt32) (bytes : List UInt8) :
    KeepsWellBuilt (γ := γ) (msapScratchpadBlockRequest env.recorded startAddress bytes) := by
  unfold msapScratchpadBlockRequest
  split
  · exact .pure composes_wellBuilt 6
  · next h =>
    exact keepsWellBuilt_request env (scratchpadBlock_wellBuilt startAddress (Nat.le_of_not_lt h))

theorem keepsWellBuilt_uploadBlocks (bytes : List UInt8) (start : UInt32) (maxBlockSize : UInt8)
    (n loaded : Nat) :
    KeepsWellBuilt (γ := γ) (uploadBlocks env.recorded bytes start maxBlockSize n loaded) := by
  induction n generalizing loaded with
  | zero => exact .unfinished composes_wellBuilt
  | succ n ih =>
    unfold uploadBlocks
    split
    · apply Moves.bind composes_wellBuilt
      · exact keepsWellBuilt_msapScratchpadBlockRequest env _ _
      · intro res
        split
        · exact .pure composes_wellBuilt _
        · exact ih _
    · exact .pure composes_wellBuilt _

theorem keepsWellBuilt_wpcUploadLocalBlockScratchpad (bytes : List UInt8) (start : UInt32) :
    KeepsWellBuilt (γ := γ) (wpcUploadLocalBlockScratchpad env.recorded bytes start) := by
  apply Moves.bind composes_wellBuilt
  · exact keepsWellBuilt_readAttribute env _ _ _ _
  · intro result
    split
    · exact .pure composes_wellBuilt _
    · exact keepsWellBuilt_uploadBlocks env _ _ _ _ _

theorem appConfigDataWrite_wellBuilt (seq : UInt8) (interval : UInt16) (config : List UInt8) :
    (appConfigDataWrite seq interval config).WellBuilt ↔ config.length ≤ maximumAppConfigSize := by
  have hSize : maximumAppConfigSize = 80 := rfl
  have hLength : (config ++ List.replicate (maximumAppConfigSize - config.length) (0 : UInt8)).length =
      max config.length maximumAppConfigSize := by
    rw [List.length_append, List.length_replicate]
    omega
  constructor
  · intro h
    have hInArray : (config ++ List.replicate (maximumAppConfigSize - config.length) 0).length ≤
      maximumAppConfigSize := h.inArray
    omega
  · intro h
    constructor
    · exact hLength.trans_le (by omega)
    · change 83 = 3 + (config ++ List.replicate (maximumAppConfigSize - config.length) 0).length
      omega

theorem requestsOf_wpcSetAppConfigData (seq : UInt8) (interval : UInt16) (config : List UInt8)
    (w : World γ ν) :
    requestsOf (wpcSetAppConfigData env.recorded seq interval config) w =
      match readResult 1 byteDecode (env.attributeRead .csap cAppConfigDataSizeId w.node).1 with
      | .ok maxSize =>
        if maxSize.toNat < config.length then [] else [appConfigDataWrite seq interval config]
      | .error _ => [] := by
  cases hResult : readResult 1 byteDecode (env.attributeRead .csap cAppConfigDataSizeId w.node).1 with
  | error error =>
    have hReturns : Returns (wpcSetAppConfigData env.recorded seq interval config) w.recording error
        ⟨w.statics, w.gateway, [], (env.attributeRead .csap cAppConfigDataSizeId w.node).2⟩ :=
      returns_bind.mpr ⟨.error error, _,
        (returns_readAttribute env.recorded).mpr ⟨hResult.symm, rfl⟩, rfl⟩
    exact requestsOf_eq hReturns
  | ok maxSize =>
    have hRead : Returns (wpcGetAppConfigDataSize env.recorded) w.recording (.ok maxSize)
        ⟨w.statics, w.gateway, [], (env.attributeRead .csap cAppConfigDataSizeId w.node).2⟩ :=
      (returns_readAttribute env.recorded).mpr ⟨hResult.symm, rfl⟩
    by_cases hLong : maxSize.toNat < config.length
    · have hReturns : Returns (wpcSetAppConfigData env.recorded seq interval config) w.recording
          .invalidValue _ :=
        returns_bind.mpr ⟨.ok maxSize, _, hRead, returns_ite.mpr (.inl ⟨hLong, rfl⟩)⟩
      rw [requestsOf_eq hReturns]
      exact (if_pos hLong).symm
    · have hReturns : Returns (wpcSetAppConfigData env.recorded seq interval config) w.recording _ _ :=
        returns_bind.mpr ⟨.ok maxSize, _, hRead, returns_ite.mpr (.inr ⟨hLong,
          returns_bind.mpr ⟨_, _, returns_ask.mpr ⟨rfl, rfl⟩, rfl⟩⟩)⟩
      rw [requestsOf_eq hReturns]
      exact (if_neg hLong).symm

theorem appConfigData_wellBuilt_iff (seq : UInt8) (interval : UInt16) (config : List UInt8)
    (w : World γ ν) :
    (∀ r ∈ requestsOf (wpcSetAppConfigData env.recorded seq interval config) w, r.WellBuilt) ↔
      ∀ maxSize, (env.attributeRead .csap cAppConfigDataSizeId w.node).1 = (0, [maxSize]) →
        maxSize.toNat < config.length ∨ config.length ≤ maximumAppConfigSize := by
  rw [requestsOf_wpcSetAppConfigData]
  constructor
  · intro hBuilt maxSize hReported
    rw [hReported] at hBuilt
    change ∀ r ∈ (if maxSize.toNat < config.length then []
      else [appConfigDataWrite seq interval config]), r.WellBuilt at hBuilt
    by_cases hLong : maxSize.toNat < config.length
    · exact .inl hLong
    · rw [if_neg hLong] at hBuilt
      exact .inr ((appConfigDataWrite_wellBuilt seq interval config).mp
        (hBuilt _ (List.mem_singleton.mpr rfl)))
  · intro hLimit r hr
    split at hr
    · next maxSize hResult =>
      obtain ⟨⟨hZero, hOne⟩, hValue⟩ := readResult_eq_ok.mp hResult
      obtain ⟨byte, hByte⟩ := List.length_eq_one_iff.mp hOne
      have hReported : (env.attributeRead .csap cAppConfigDataSizeId w.node).1 = (0, [byte]) :=
        Prod.ext hZero hByte
      obtain rfl : maxSize = byte := by
        rw [hValue, hReported]
        rfl
      split at hr
      · cases hr
      · next hShort =>
        rw [List.mem_singleton.mp hr, appConfigDataWrite_wellBuilt]
        exact (hLimit maxSize hReported).resolve_left hShort
    · cases hr

theorem ttRequest_wellBuilt (tx : DataTx) :
    TxWellBuilt (ttRequest tx) ↔ tx.buffer.length ≤ maxApduDsapSize := by
  have hSize : maxApduDsapSize = 180 := rfl
  have hApdu : (txApdu (ttRequest tx).payload).length = tx.buffer.length := by
    change (tx.buffer.take tx.buffer.length).length = tx.buffer.length
    rw [List.take_length]
  constructor
  · exact fun h => hApdu ▸ h.inArray
  · intro h
    refine ⟨hApdu.trans_le h, ?_⟩
    change (UInt8.ofNat (15 + tx.buffer.length)).toNat = 15 + (txApdu (ttRequest tx).payload).length
    rw [hApdu, UInt8.toNat_ofNat']
    omega

section Fragments

variable {tx : DataTx} {mtu : Nat}

theorem fragRequest_apdu (pId : UInt16) (hMtu : 0 < mtu) (hLen : 0 < tx.buffer.length)
    (hMax : tx.buffer.length ≤ maxFullPacketSize) {i : Nat}
    (hi : i < fragments mtu tx.buffer.length) :
    txApdu (fragRequest mtu tx pId i).payload = (chunk tx.buffer mtu i).bytes := by
  have hFrag := fragFrom_fragRequest 0 pId hMtu hLen hMax hi
  exact congrArg ReassemblyFragment.bytes (Option.some.inj hFrag)

theorem fragRequest_payloadLength (pId : UInt16) (hMtu : 0 < mtu) (hLen : 0 < tx.buffer.length)
    {i : Nat} (hi : i < fragments mtu tx.buffer.length) :
    (fragRequest mtu tx pId i).payloadLength =
      .ofNat (19 + min mtu (tx.buffer.length - i * mtu)) := by
  obtain ⟨hPos, hLow, hHigh⟩ := fragments_bounds hMtu hLen
  change UInt8.ofNat (19 + if i == fragments mtu tx.buffer.length - 1
    then lastFragmentSize mtu tx.buffer.length else mtu) = _
  congr 2
  split
  · next hLast =>
    obtain rfl : i = fragments mtu tx.buffer.length - 1 := beq_iff_eq.mp hLast
    have hSucc := Nat.succ_mul (fragments mtu tx.buffer.length - 1) mtu
    have hCount : (fragments mtu tx.buffer.length - 1).succ = fragments mtu tx.buffer.length := by
      omega
    rw [hCount] at hSucc
    rw [lastFragmentSize_eq hMtu hLen]
    omega
  · next hInner =>
    have hNext : (i + 1) * mtu ≤ (fragments mtu tx.buffer.length - 1) * mtu := by
      apply Nat.mul_le_mul_right
      have hNe : i ≠ fragments mtu tx.buffer.length - 1 := fun hEq => hInner (beq_iff_eq.mpr hEq)
      omega
    rw [Nat.succ_mul] at hNext
    omega

theorem fragRequest_wellBuilt (pId : UInt16) (hMtu : 0 < mtu) (hLen : 0 < tx.buffer.length)
    (hMax : tx.buffer.length ≤ maxFullPacketSize) {i : Nat}
    (hi : i < fragments mtu tx.buffer.length) :
    TxWellBuilt (fragRequest mtu tx pId i) ↔
      min mtu (tx.buffer.length - i * mtu) ≤ maxApduDsapSize := by
  have hSize : maxApduDsapSize = 180 := rfl
  have hApdu : (txApdu (fragRequest mtu tx pId i).payload).length =
      min mtu (tx.buffer.length - i * mtu) := by
    rw [fragRequest_apdu pId hMtu hLen hMax hi]
    exact size_chunk tx.buffer mtu i
  constructor
  · exact fun h => hApdu ▸ h.inArray
  · intro h
    refine ⟨hApdu.trans_le h, ?_⟩
    change _ = 19 + (txApdu (fragRequest mtu tx pId i).payload).length
    rw [fragRequest_payloadLength pId hMtu hLen hi, hApdu, UInt8.toNat_ofNat']
    omega

end Fragments

theorem sendFragments_sent (request : Nat → TxRequest) (answer : Nat → Answer) (n i : Nat) :
    ∃ k ≤ n, (0 < n → 0 < k) ∧
      (sendFragments request answer n i).1 = (List.range' i k).map request := by
  induction n generalizing i with
  | zero => exact ⟨0, Nat.le_refl 0, id, rfl⟩
  | succ n ih =>
    have hFirst : [request i] = (List.range' i 1).map request := rfl
    rw [sendFragments]
    split
    · exact ⟨1, by omega, fun _ => Nat.one_pos, hFirst⟩
    · split
      · exact ⟨1, by omega, fun _ => Nat.one_pos, hFirst⟩
      · obtain ⟨k, hk, -, hSent⟩ := ih (i + 1)
        refine ⟨k + 1, Nat.succ_le_succ hk, fun _ => k.succ_pos, ?_⟩
        rw [List.range'_succ, List.map_cons, ← hSent]

/-- The call divides by no zero, and its requests are well built. -/
def SafeTransmission (mtu : UInt8) (packetId : UInt16) (tx : DataTx) (answer : Nat → Answer) : Prop :=
  ∃ t, transmit mtu packetId tx answer = some t ∧ ∀ r ∈ t.sent, TxWellBuilt r

theorem safeTransmission_long (mtu : UInt8) (packetId : UInt16) (tx : DataTx) (answer : Nat → Answer)
    (h : maxFullPacketSize < tx.buffer.length) : SafeTransmission mtu packetId tx answer := by
  refine ⟨⟨packetId, [], 6, false⟩, ?_, nofun⟩
  simp only [transmit]
  rw [if_pos h]

theorem safeTransmission_single (mtu : UInt8) (packetId : UInt16) (tx : DataTx)
    (answer : Nat → Answer) (hMax : ¬ maxFullPacketSize < tx.buffer.length)
    (hShort : tx.buffer.length ≤ mtu.toNat) :
    SafeTransmission mtu packetId tx answer ↔ tx.buffer.length ≤ maxApduDsapSize := by
  have hSent : ∃ t, transmit mtu packetId tx answer = some t ∧ t.sent = [ttRequest tx] := by
    simp only [transmit]
    rw [if_neg hMax, if_pos hShort]
    split
    · exact ⟨_, rfl, rfl⟩
    · exact ⟨_, rfl, rfl⟩
  obtain ⟨t, hTransmit, hOne⟩ := hSent
  rw [← ttRequest_wellBuilt tx]
  constructor
  · rintro ⟨t', hTransmit', hBuilt⟩
    obtain rfl : t' = t := Option.some.inj (hTransmit'.symm.trans hTransmit)
    exact hBuilt _ (hOne ▸ List.mem_singleton.mpr rfl)
  · intro h
    refine ⟨t, hTransmit, fun r hr => ?_⟩
    rw [hOne] at hr
    exact List.mem_singleton.mp hr ▸ h

theorem safeTransmission_fragmented (mtu : UInt8) (packetId : UInt16) (tx : DataTx)
    (answer : Nat → Answer) (hMax : ¬ maxFullPacketSize < tx.buffer.length)
    (hLong : ¬ tx.buffer.length ≤ mtu.toNat) (hZero : mtu ≠ 0) :
    SafeTransmission mtu packetId tx answer ↔ mtu.toNat ≤ maxApduDsapSize := by
  have hMtu : 0 < mtu.toNat := Nat.pos_of_ne_zero fun h => hZero (UInt8.toNat_inj.mp h)
  have hLen : 0 < tx.buffer.length := by omega
  have hSize := Nat.le_of_not_lt hMax
  obtain ⟨hPos, -, -⟩ := fragments_bounds hMtu hLen
  obtain ⟨k, hk, hFirst, hSent⟩ := sendFragments_sent
    (fragRequest mtu.toNat tx (packetId &&& 0xfff)) answer (fragments mtu.toNat tx.buffer.length) 0
  have hTransmit : ∃ t, transmit mtu packetId tx answer = some t ∧
      t.sent = (List.range' 0 k).map (fragRequest mtu.toNat tx (packetId &&& 0xfff)) := by
    rw [← hSent]
    simp only [transmit]
    rw [if_neg hMax, if_neg hLong, if_neg hZero]
    split
    · next hLoop => exact ⟨_, rfl, hLoop ▸ rfl⟩
    · next hLoop => exact ⟨_, rfl, hLoop ▸ rfl⟩
  obtain ⟨t, hTransmit, hAll⟩ := hTransmit
  constructor
  · rintro ⟨t', hTransmit', hBuilt⟩
    obtain rfl : t' = t := Option.some.inj (hTransmit'.symm.trans hTransmit)
    have hMem : fragRequest mtu.toNat tx (packetId &&& 0xfff) 0 ∈ t'.sent :=
      hAll ▸ List.mem_map_of_mem (List.mem_range'_1.mpr ⟨Nat.le_refl 0, by have := hFirst hPos; omega⟩)
    have hFits := (fragRequest_wellBuilt _ hMtu hLen hSize hPos).mp (hBuilt _ hMem)
    omega
  · intro hFits
    refine ⟨t, hTransmit, fun r hr => ?_⟩
    rw [hAll] at hr
    obtain ⟨i, hi, rfl⟩ := List.mem_map.mp hr
    have hRound := (List.mem_range'_1.mp hi).2
    rw [fragRequest_wellBuilt _ hMtu hLen hSize (by omega)]
    omega

theorem safeTransmission_iff (mtu : UInt8) (packetId : UInt16) (tx : DataTx) (answer : Nat → Answer) :
    SafeTransmission mtu packetId tx answer ↔
      maxFullPacketSize < tx.buffer.length ∨
        min tx.buffer.length mtu.toNat ≤ maxApduDsapSize ∧ (mtu = 0 → tx.buffer.length = 0) := by
  by_cases hMax : maxFullPacketSize < tx.buffer.length
  · exact iff_of_true (safeTransmission_long mtu packetId tx answer hMax) (.inl hMax)
  rw [or_iff_right hMax]
  by_cases hShort : tx.buffer.length ≤ mtu.toNat
  · have hZero : mtu = 0 → tx.buffer.length = 0 := by
      rintro rfl
      exact Nat.le_zero.mp hShort
    rw [safeTransmission_single mtu packetId tx answer hMax hShort, and_iff_left hZero,
      Nat.min_eq_left hShort]
  by_cases hZero : mtu = 0
  · have hDivides : ¬ SafeTransmission mtu packetId tx answer := by
      rintro ⟨t, hTransmit, -⟩
      simp only [transmit] at hTransmit
      rw [if_neg hMax, if_neg hShort, if_pos hZero] at hTransmit
      cases hTransmit
    refine iff_of_false hDivides fun h => hShort ?_
    rw [h.2 hZero]
    exact Nat.zero_le _
  · rw [safeTransmission_fragmented mtu packetId tx answer hMax hShort hZero,
      Nat.min_eq_right (Nat.le_of_not_le hShort), and_iff_left fun h => absurd h hZero]

/-- The calls that cut what they copy to a limit of the node. -/
inductive Building where
  | data (packetId : UInt16) (tx : DataTx) (answer : Nat → Answer)
  | appConfigData (seq : UInt8) (interval : UInt16) (config : List UInt8)
  | scratchpadBlocks (bytes : List UInt8) (start : UInt32)

/-- No division by zero, no byte outside of an array, and no length cut to eight bits. -/
def SafelyBuilt (w : World γ ν) : Building → Prop
  | .data packetId tx answer => SafeTransmission w.statics.wpcIntGetMtu packetId tx answer
  | .appConfigData seq interval config =>
    ∀ r ∈ requestsOf (wpcSetAppConfigData env.recorded seq interval config) w, r.WellBuilt
  | .scratchpadBlocks bytes start =>
    ∀ r ∈ requestsOf (wpcUploadLocalBlockScratchpad env.recorded bytes start) w, r.WellBuilt

/-- What is cut to the limit of the node fits the array. -/
def LimitFits (w : World γ ν) : Building → Prop
  | .data _ tx _ =>
    maxFullPacketSize < tx.buffer.length ∨
      min tx.buffer.length w.statics.wpcIntGetMtu.toNat ≤ maxApduDsapSize ∧
        (w.statics.wpcIntGetMtu = 0 → tx.buffer.length = 0)
  | .appConfigData _ _ config =>
    ∀ maxSize, (env.attributeRead .csap cAppConfigDataSizeId w.node).1 = (0, [maxSize]) →
      maxSize.toNat < config.length ∨ config.length ≤ maximumAppConfigSize
  | .scratchpadBlocks _ _ => True

theorem safelyBuilt_iff_limitFits (w : World γ ν) (b : Building) :
    SafelyBuilt env w b ↔ LimitFits env w b := by
  cases b with
  | data packetId tx answer => exact safeTransmission_iff _ packetId tx answer
  | appConfigData seq interval config => exact appConfigData_wellBuilt_iff env seq interval config w
  | scratchpadBlocks bytes start =>
    exact iff_of_true
      ((keepsWellBuilt_wpcUploadLocalBlockScratchpad env bytes start).requestsOf w) trivial

/-- A node that gives one value for each of its attributes and accepts each request. -/
def uniformEnvironment (value : UInt8) : Environment Unit where
  request _ s := (0, s)
  attributeRead _ _ s := ((0, [value]), s)
  appConfigDataRead s := ((1, ⟨0, 0, []⟩), s)
  scratchpadStatus s := ((0, ⟨0, 0, 0, 0, 0, 0, 0, 0, 0⟩), s)
  scratchpadTargetRead s := ((1, ⟨0, 0, 0, 0⟩), s)
  timestampMsMonotonic s := (0, s)
  timestampMsEpoch s := (0, s)
  malloc s := (true, s)
  rand s := (0, s)
  rounds := 1

def zeros (n : Nat) : List UInt8 := List.replicate n 0

def packetOf (buffer : List UInt8) : DataTx := ⟨buffer, 1, 2, 0, 1, 1, none, 0, false, 0⟩

/-- With an MTU of zero one byte is divided by zero; with a limit of 255, more than the array
holds is copied to a packet and to an app config. -/
theorem unsafe_limits :
    ¬ SafelyBuilt (uniformEnvironment 0) ⟨⟨60, 0⟩, (), ()⟩
        (.data 0 (packetOf (zeros 1)) fun _ => ⟨0, 0⟩) ∧
      ¬ SafelyBuilt (uniformEnvironment 255) ⟨⟨60, 255⟩, (), ()⟩
        (.data 0 (packetOf (zeros 181)) fun _ => ⟨0, 0⟩) ∧
      ¬ SafelyBuilt (uniformEnvironment 255) ⟨⟨60, 255⟩, (), ()⟩
        (.appConfigData 1 30 (zeros 81)) := by
  refine ⟨?_, ?_, ?_⟩
  · exact (safeTransmission_iff 0 0 _ _).not.mpr (by decide)
  · have hLength : (packetOf (zeros 181)).buffer.length = 181 := List.length_replicate
    rw [SafelyBuilt, safeTransmission_iff, hLength]
    decide
  · rw [SafelyBuilt, appConfigData_wellBuilt_iff]
    intro h
    exact absurd (h 255 rfl) (by decide)

end CMeshApi.Wpc
