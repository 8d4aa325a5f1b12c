import CMeshApi.Dsap.Reception
import CMeshApi.Dsap.Transmission
import CMeshApi.Foundations.Extent
import CMeshApi.Wpc.Management
import CMeshApi.Wpc.SendRequest

/-!
# From a received frame to the callbacks

`handle_indication` and `dispatch_indication` of `wpc_internal.c`, with the handlers
of `dsap.c` and `msap.c`. The received bytes are copied to a local `wpc_frame_t`, which
is copied as a whole to a slot of the indication queue, where the handlers cast it to
the structure of its primitive. Both places hold anything before; the number of
received bytes is not kept.
-/

namespace CMeshApi.Wpc

open Dsap Memory Reassembly

namespace Indications

/-- The primitives that `dispatch_indication` knows. -/
inductive Primitive where
  | dsapDataTx
  | dsapDataRx
  | dsapDataRxFrag
  | msapStackState
  | msapAppConfigDataRx
  | msapScanNbors
  | msapConfigDataItemRx
deriving DecidableEq, Repr

def Primitive.ofId (primitiveId : UInt8) : Option Primitive :=
  if primitiveId = 0x02 then some .dsapDataTx
  else if primitiveId = 0x03 then some .dsapDataRx
  else if primitiveId = 0x10 then some .dsapDataRxFrag
  else if primitiveId = 0x07 then some .msapStackState
  else if primitiveId = 0x3F then some .msapAppConfigDataRx
  else if primitiveId = 0x22 then some .msapScanNbors
  else if primitiveId = 0x31 then some .msapConfigDataItemRx
  else none

def uint16At (frame : Memory UInt8) (pos : Int) : UInt16 := uint16DecodeLe (frame.read pos 2)

def uint32At (frame : Memory UInt8) (pos : Int) : UInt32 := uint32DecodeLe (frame.read pos 4)

def dsapDataTxIndicationPayload (frame : Memory UInt8) : DsapDataTxIndPl where
  indicationStatus := frame 3
  pduId := uint16At frame 4
  srcEndpoint := frame 6
  destAdd := uint32At frame 7
  destEndpoint := frame 11
  bufferingDelay := uint32At frame 12
  result := frame 16

/-- `dsap_data_rx_ind_pl_t`. -/
structure DsapDataRxIndPl where
  indicationStatus : UInt8
  srcAdd : UInt32
  srcEndpoint : UInt8
  destAdd : UInt32
  destEndpoint : UInt8
  qosHopCount : UInt8
  travelTime : UInt32
  apduLength : UInt8
  apdu : Memory UInt8

def dsapDataRxIndicationPayload (frame : Memory UInt8) : DsapDataRxIndPl where
  indicationStatus := frame 3
  srcAdd := uint32At frame 4
  srcEndpoint := frame 8
  destAdd := uint32At frame 9
  destEndpoint := frame 13
  qosHopCount := frame 14
  travelTime := uint32At frame 15
  apduLength := frame 19
  apdu := fun i => frame (20 + i)

/-- The packet id is a bit field of the low 12 bits. -/
def dsapDataRxFragIndicationPayload (frame : Memory UInt8) : DsapDataRxFragIndPl where
  indicationStatus := frame 3
  srcAdd := uint32At frame 4
  srcEndpoint := frame 8
  destAdd := uint32At frame 9
  destEndpoint := frame 13
  qosHopCount := frame 14
  travelTime := uint32At frame 15
  fullPacketId := (uint16At frame 19).toBitVec.setWidth 12
  fragmentOffsetFlag := uint16At frame 21
  apduLength := frame 23
  apdu := fun i => frame (24 + i)

/-- The static variables that hold the registered callbacks, with the tables of `dsap.c`. -/
structure Handlers where
  receiver : Receiver
  table : IndicationTable
  stackStatusCb : Option Nat
  appConfCb : Option Nat
  scanNeighborCb : Option Nat
  configDataItemCb : Option Nat

/-- A call of a registered callback. An array given by its address alone is given with all that
its type holds. -/
inductive Callback where
  | onDataSent (sent : DataSent)
  | onDataReceived (data : DataReceived)
  | onStackStatusReceived (cb : Nat) (status : UInt8)
  | onAppConfigDataReceived (cb : Nat) (seq : UInt8) (interval : UInt16) (config : List UInt8)
  | onScanNeighborsDone (cb : Nat) (scanReady : UInt8)
  | onConfigDataItemReceived (cb : Nat) (endpoint : UInt16) (payload : List UInt8)
deriving DecidableEq, Repr

/-- What a dispatched frame leads to: the fragment that is handed to the reassembly, and the
callback that is called. -/
structure Dispatched where
  handlers : Handlers
  fragment : Option ReassemblyFragment
  callback : Option Callback
  setsMtu : Bool

def dsapDataRxIndicationHandler (dataCb : Option OnDataReceivedCb) (payload : DsapDataRxIndPl)
    (timestampMsEpoch : Nat) : Option DataReceived :=
  dataCb.map fun cb => {
    cb := cb
    bytes := payload.apdu.read 0 payload.apduLength.toNat
    srcAdd := payload.srcAdd
    destAdd := payload.destAdd
    qos := appQos payload.qosHopCount
    srcEndpoint := payload.srcEndpoint
    destEndpoint := payload.destEndpoint
    travelTime := internalTimeToMs payload.travelTime
    hopCount := payload.qosHopCount >>> 2
    timestampMsEpoch := timestampMsEpoch }

def handlePrimitive (h : Handlers) (frame : Memory UInt8) (timestampMsEpoch : Nat) (env : Env) :
    Primitive → Dispatched
  | .dsapDataTx =>
    match dsapDataTxIndicationHandler h.table (dsapDataTxIndicationPayload frame) with
    | (table, sent) => ⟨{ h with table }, none, sent.map .onDataSent, false⟩
  | .dsapDataRx =>
    ⟨h, none, (dsapDataRxIndicationHandler h.receiver.dataCb (dsapDataRxIndicationPayload frame)
      timestampMsEpoch).map .onDataReceived, false⟩
  | .dsapDataRxFrag =>
    let payload := dsapDataRxFragIndicationPayload frame
    match dsapDataRxFragIndicationHandler h.receiver payload timestampMsEpoch env with
    | (receiver, data) => ⟨{ h with receiver }, some payload.frag, data.map .onDataReceived, false⟩
  | .msapStackState =>
    ⟨h, none, h.stackStatusCb.map fun cb => .onStackStatusReceived cb (frame 4), true⟩
  | .msapAppConfigDataRx =>
    ⟨h, none, h.appConfCb.map fun cb => .onAppConfigDataReceived cb (frame 4) (uint16At frame 5)
      (frame.read 7 maximumAppConfigSize), false⟩
  | .msapScanNbors =>
    ⟨h, none, h.scanNeighborCb.map fun cb => .onScanNeighborsDone cb (frame 4), false⟩
  | .msapConfigDataItemRx =>
    ⟨h, none, h.configDataItemCb.map fun cb => .onConfigDataItemReceived cb (uint16At frame 4)
      (frame.read 7 (frame 6).toNat), false⟩

def dispatchIndication (h : Handlers) (frame : Memory UInt8) (timestampMsEpoch : Nat) (env : Env) :
    Dispatched :=
  match Primitive.ofId (frame 0) with
  | some p => handlePrimitive h frame timestampMsEpoch env p
  | none => ⟨h, none, none, false⟩

/-- The copy of `Slip_get_buffer`: nothing is copied of a frame that is longer than the buffer. -/
def slipCopy (frame : Memory UInt8) (buffer : List UInt8) : Memory UInt8 :=
  if buffer.length ≤ sizeofWpcFrame then frame.write 0 buffer else frame

def onIndicationReceivedLocked (slot frame : Memory UInt8) : Memory UInt8 :=
  slot.write 0 (frame.read 0 sizeofWpcFrame)

structure Handled where
  response : WpcFrame
  slot : Memory UInt8
  remainingInd : UInt8

/-- `none` is the timeout. -/
def handleIndication (lastOne : Bool) (frame slot : Memory UInt8) (buffer : List UInt8) :
    Option Handled :=
  if buffer.length = 0 then none
  else
    let frame := slipCopy frame buffer
    let remainingInd := frame 3
    some {
      response := ⟨frame 0 + 0x80, frame 1, [if remainingInd > 0 ∧ ¬ lastOne then 1 else 0]⟩
      slot := onIndicationReceivedLocked slot frame
      remainingInd := remainingInd }

/-- What the application gets of a frame, with what the reassembly gets. -/
def observed (h : Handlers) (timestampMsEpoch : Nat) (env : Env) (frame : Memory UInt8) :
    Option ReassemblyFragment × Option Callback :=
  let d := dispatchIndication h frame timestampMsEpoch env
  (d.fragment, d.callback)

/-- Whatever the local frame and the slot held before, the received bytes lead to the same calls
with the same arguments. -/
def CallsDetermined (h : Handlers) (timestampMsEpoch : Nat) (env : Env) (buffer : List UInt8) : Prop :=
  ∀ (lastOne : Bool) (frame slot frame' slot' : Memory UInt8),
    (handleIndication lastOne frame slot buffer).map
        (fun handled => observed h timestampMsEpoch env handled.slot) =
      (handleIndication lastOne frame' slot' buffer).map
        (fun handled => observed h timestampMsEpoch env handled.slot)

section Way

variable {h : Handlers} {timestampMsEpoch : Nat} {env : Env} {buffer : List UInt8}

theorem observed_slot (hSome : buffer.length ≠ 0) (lastOne : Bool) (frame slot : Memory UInt8) :
    (handleIndication lastOne frame slot buffer).map
        (fun handled => observed h timestampMsEpoch env handled.slot) =
      some (observed h timestampMsEpoch env (onIndicationReceivedLocked slot (slipCopy frame buffer))) := by
  simp only [handleIndication]
  rw [if_neg hSome, Option.map_some]

theorem slot_self (m : Memory UInt8) : onIndicationReceivedLocked m m = m := write_read_self m _

theorem callsDetermined_iff_settled (hSome : buffer.length ≠ 0) (hFits : buffer.length ≤ sizeofWpcFrame) :
    CallsDetermined h timestampMsEpoch env buffer ↔
      Settled buffer (observed h timestampMsEpoch env) := by
  have hSlot (frame slot : Memory UInt8) : onIndicationReceivedLocked slot (slipCopy frame buffer) =
      (onIndicationReceivedLocked slot frame).write 0 buffer := by
    rw [slipCopy, if_pos hFits]
    exact write_read_write slot frame hFits
  constructor
  · intro hCalls m m'
    have hSame := hCalls false m m m' m'
    rw [observed_slot hSome, observed_slot hSome, hSlot, hSlot, slot_self, slot_self] at hSame
    exact Option.some.inj hSame
  · intro hSettled lastOne frame slot frame' slot'
    rw [observed_slot hSome, observed_slot hSome, hSlot, hSlot, hSettled]

/-- A fragment indication with an empty fragment, or with one byte. -/
def leftover (apduLength : UInt8) : Memory UInt8 :=
  fun i => if i = 0 then 0x10 else if i = 23 then apduLength else 0

/-- Of a frame that does not fit, nothing is copied at all, and what the slot held is handled. -/
theorem not_callsDetermined_long (hLong : sizeofWpcFrame < buffer.length) :
    ¬ CallsDetermined h timestampMsEpoch env buffer := by
  intro hCalls
  have hSome : buffer.length ≠ 0 := by omega
  have hSlot (m : Memory UInt8) : onIndicationReceivedLocked m (slipCopy m buffer) = m := by
    rw [slipCopy, if_neg (Nat.not_le.mpr hLong), slot_self]
  have hSame := hCalls false (leftover 0) (leftover 0) (leftover 1) (leftover 1)
  rw [observed_slot hSome, observed_slot hSome, hSlot, hSlot] at hSame
  have hFragment := Option.some.inj (Prod.mk.inj (Option.some.inj hSame)).1
  have hBytes := congrArg (fun f => f.bytes.length) hFragment
  exact absurd hBytes (by decide)

end Way

def observedOf (h : Handlers) (timestampMsEpoch : Nat) (env : Env) (p : Primitive)
    (frame : Memory UInt8) : Option ReassemblyFragment × Option Callback :=
  let d := handlePrimitive h frame timestampMsEpoch env p
  (d.fragment, d.callback)

section Agreement

variable {m m' : Memory UInt8} {n : Nat}

theorem uint16At_congr (hSame : ∀ k < n, m k = m' k) (pos : Nat) (hPos : pos + 2 ≤ n) :
    uint16At m pos = uint16At m' pos :=
  congrArg uint16DecodeLe (read_congr fun k hk => hSame (pos + k) (by omega))

theorem uint32At_congr (hSame : ∀ k < n, m k = m' k) (pos : Nat) (hPos : pos + 4 ≤ n) :
    uint32At m pos = uint32At m' pos :=
  congrArg uint32DecodeLe (read_congr fun k hk => hSame (pos + k) (by omega))

theorem payload_congr {pos size : Nat} (hSame : ∀ k < pos + size, m k = m' k) :
    Memory.read (fun i => m (pos + i)) 0 size = Memory.read (fun i => m' (pos + i)) 0 size := by
  apply read_congr
  intro k hk
  rw [Int.zero_add]
  exact hSame (pos + k) (by omega)

theorem dsapDataRxIndicationHandler_congr (hSame : ∀ k < 20 + (m 19).toNat, m k = m' k)
    (dataCb : Option OnDataReceivedCb) (timestampMsEpoch : Nat) :
    dsapDataRxIndicationHandler dataCb (dsapDataRxIndicationPayload m) timestampMsEpoch =
      dsapDataRxIndicationHandler dataCb (dsapDataRxIndicationPayload m') timestampMsEpoch := by
  have hLength : m 19 = m' 19 := hSame 19 (by omega)
  simp only [dsapDataRxIndicationHandler, dsapDataRxIndicationPayload]
  rw [show uint32At m 4 = uint32At m' 4 from uint32At_congr hSame 4 (by omega),
    show uint32At m 9 = uint32At m' 9 from uint32At_congr hSame 9 (by omega),
    show uint32At m 15 = uint32At m' 15 from uint32At_congr hSame 15 (by omega),
    show m 8 = m' 8 from hSame 8 (by omega), show m 13 = m' 13 from hSame 13 (by omega),
    show m 14 = m' 14 from hSame 14 (by omega), ← hLength,
    show Memory.read (fun i => m (20 + i)) 0 (m 19).toNat =
      Memory.read (fun i => m' (20 + i)) 0 (m 19).toNat from payload_congr hSame]

theorem frag_apdu {payload : DsapDataRxFragIndPl} {apdu : Memory UInt8}
    (h : payload.apdu.read 0 payload.apduLength.toNat = apdu.read 0 payload.apduLength.toNat) :
    ({ payload with apdu } : DsapDataRxFragIndPl).frag = payload.frag := by
  simp only [DsapDataRxFragIndPl.frag, h]
  rfl

/-- The handler reads no byte of the payload that is not in the fragment. -/
theorem dsapDataRxFragIndicationHandler_apdu (r : Receiver) {payload : DsapDataRxFragIndPl}
    {apdu : Memory UInt8} (timestampMsEpoch : Nat) (env : Env)
    (h : payload.apdu.read 0 payload.apduLength.toNat = apdu.read 0 payload.apduLength.toNat) :
    dsapDataRxFragIndicationHandler r payload timestampMsEpoch env =
      dsapDataRxFragIndicationHandler r { payload with apdu } timestampMsEpoch env := by
  have hTake : takeFragment r { payload with apdu } timestampMsEpoch env =
      takeFragment r payload timestampMsEpoch env := by
    unfold takeFragment
    rw [frag_apdu h]
    rfl
  unfold dsapDataRxFragIndicationHandler
  rw [hTake]

theorem dsapDataRxFragIndication_congr (hSame : ∀ k < 24 + (m 23).toNat, m k = m' k) :
    dsapDataRxFragIndicationPayload m' =
      { dsapDataRxFragIndicationPayload m with apdu := fun i => m' (24 + i) } := by
  simp only [dsapDataRxFragIndicationPayload]
  rw [show uint32At m 4 = uint32At m' 4 from uint32At_congr hSame 4 (by omega),
    show uint32At m 9 = uint32At m' 9 from uint32At_congr hSame 9 (by omega),
    show uint32At m 15 = uint32At m' 15 from uint32At_congr hSame 15 (by omega),
    show uint16At m 19 = uint16At m' 19 from uint16At_congr hSame 19 (by omega),
    show uint16At m 21 = uint16At m' 21 from uint16At_congr hSame 21 (by omega),
    show m 3 = m' 3 from hSame 3 (by omega), show m 8 = m' 8 from hSame 8 (by omega),
    show m 13 = m' 13 from hSame 13 (by omega), show m 14 = m' 14 from hSame 14 (by omega),
    show m 23 = m' 23 from hSame 23 (by omega)]

end Agreement

section Extents

variable {h : Handlers} {timestampMsEpoch : Nat} {env : Env}

theorem bytes_last {pos n : Nat} {m : Memory UInt8} (hEnd : pos + 1 + (m pos).toNat = n + 1) :
    ∃ a, Memory.read (fun i => m.store n a (pos + 1 + i)) 0 (m.store n a pos).toNat ≠
      Memory.read (fun i => m (pos + 1 + i)) 0 (m pos).toNat := by
  rcases Nat.eq_zero_or_pos (m pos).toNat with hNone | hSome
  · obtain rfl : n = pos := by omega
    refine ⟨1, fun hRead => ?_⟩
    have hLength := congrArg List.length hRead
    rw [length_read, length_read, store_same, hNone] at hLength
    exact absurd hLength (by decide)
  · obtain ⟨k, hk⟩ : ∃ k, (m pos).toNat = k + 1 := ⟨(m pos).toNat - 1, by omega⟩
    obtain rfl : n = pos + 1 + k := by omega
    obtain ⟨a, -, ha⟩ := exists_other (m (pos + 1 + k : Nat))
    refine ⟨a, fun hRead => ha ?_⟩
    rw [store_other m _ a (by omega : (pos : Int) ≠ (pos + 1 + k : Nat)), hk] at hRead
    have hCell := read_inj hRead (Nat.lt_succ_self k)
    simp only [Int.zero_add] at hCell
    rwa [show (pos : Int) + 1 + k = (pos + 1 + k : Nat) by omega, store_same] at hCell

theorem dsapDataRx_extent {cb : OnDataReceivedCb} (hCb : h.receiver.dataCb = some cb) :
    Extent (observedOf h timestampMsEpoch env .dsapDataRx) fun m => 20 + (m 19).toNat := by
  constructor
  · intro m m' hSame
    simp only [observedOf, handlePrimitive]
    rw [dsapDataRxIndicationHandler_congr hSame]
  · intro m n hEnd
    obtain ⟨a, ha⟩ := bytes_last  hEnd
    refine ⟨a, fun hObserved => ha ?_⟩
    simp only [observedOf, handlePrimitive, hCb, dsapDataRxIndicationHandler, Option.map_some,
      Prod.mk.injEq, Option.some.injEq, Callback.onDataReceived.injEq, DataReceived.mk.injEq] at hObserved
    exact hObserved.2.2.1

theorem dsapDataRxFrag_extent :
    Extent (observedOf h timestampMsEpoch env .dsapDataRxFrag) fun m => 24 + (m 23).toNat := by
  constructor
  · intro m m' hSame
    have hApdu : (dsapDataRxFragIndicationPayload m).apdu.read 0 (m 23).toNat =
        Memory.read (fun i => m' (24 + i)) 0 (m 23).toNat := payload_congr hSame
    simp only [observedOf, handlePrimitive]
    rw [dsapDataRxFragIndication_congr hSame, ← dsapDataRxFragIndicationHandler_apdu _ _ _ hApdu,
      frag_apdu hApdu]
  · intro m n hEnd
    obtain ⟨a, ha⟩ := bytes_last  hEnd
    refine ⟨a, fun hObserved => ha ?_⟩
    have hFragment := Option.some.inj (Prod.mk.inj hObserved).1
    exact congrArg ReassemblyFragment.bytes hFragment

theorem msapConfigDataItemRx_extent {cb : Nat} (hCb : h.configDataItemCb = some cb) :
    Extent (observedOf h timestampMsEpoch env .msapConfigDataItemRx) fun m => 7 + (m 6).toNat := by
  constructor
  · intro m m' hSame
    have hLength : m 6 = m' 6 := hSame 6 (by omega)
    simp only [observedOf, handlePrimitive]
    rw [show uint16At m 4 = uint16At m' 4 from uint16At_congr hSame 4 (by omega), ← hLength,
      show m.read 7 (m 6).toNat = m'.read 7 (m 6).toNat from
        read_congr fun k hk => hSame (7 + k) (by omega)]
  · intro m n hEnd
    obtain ⟨a, ha⟩ := bytes_last  hEnd
    refine ⟨a, fun hObserved => ha ?_⟩
    have hShift (m : Memory UInt8) (size : Nat) :
        Memory.read (fun i => m (7 + i)) 0 size = m.read 7 size :=
      List.map_congr_left fun k _ => by rw [Int.zero_add]
    simp only [observedOf, handlePrimitive, hCb, Option.map_some, Prod.mk.injEq, Option.some.injEq,
      Callback.onConfigDataItemReceived.injEq] at hObserved
    exact (hShift _ _).trans (hObserved.2.2.2.trans (hShift _ _).symm)

theorem msapAppConfigDataRx_extent {cb : Nat} (hCb : h.appConfCb = some cb) :
    Extent (observedOf h timestampMsEpoch env .msapAppConfigDataRx)
      fun _ => 7 + maximumAppConfigSize := by
  constructor
  · intro m m' hSame
    simp only [observedOf, handlePrimitive]
    rw [show m 4 = m' 4 from hSame 4 (by omega),
      show uint16At m 5 = uint16At m' 5 from uint16At_congr hSame 5 (by omega),
      show m.read 7 maximumAppConfigSize = m'.read 7 maximumAppConfigSize from
        read_congr fun k hk => hSame (7 + k) (by omega)]
  · intro m n hEnd
    obtain rfl : n = 7 + 79 := by
      have hSize : maximumAppConfigSize = 80 := rfl
      omega
    obtain ⟨a, -, ha⟩ := exists_other (m (7 + 79 : Nat))
    refine ⟨a, fun hObserved => ?_⟩
    simp only [observedOf, handlePrimitive, hCb, Option.map_some, Prod.mk.injEq, Option.some.injEq,
      Callback.onAppConfigDataReceived.injEq] at hObserved
    exact read_store_ne (by decide : 79 < maximumAppConfigSize) ha hObserved.2.2.2.2

theorem oneByte_extent {f : Memory UInt8 → Option ReassemblyFragment × Option Callback}
    {c : UInt8 → Callback} (hCall : ∀ a b, c a = c b → a = b)
    (hf : ∀ m : Memory UInt8, f m = (none, some (c (m 4)))) : Extent f fun _ => 5 := by
  constructor
  · intro m m' hSame
    rw [hf, hf, show m 4 = m' 4 from hSame 4 (by omega)]
  · intro m n hEnd
    obtain rfl : n = 4 := by omega
    obtain ⟨a, -, ha⟩ := exists_other (m 4)
    refine ⟨a, fun hObserved => ha ?_⟩
    rw [hf, hf] at hObserved
    have hStored : m.store (4 : Nat) a 4 = a := store_same m 4 a
    rw [← hStored]
    exact hCall _ _ (Option.some.inj (Prod.mk.inj hObserved).2)

theorem msapStackState_extent {cb : Nat} (hCb : h.stackStatusCb = some cb) :
    Extent (observedOf h timestampMsEpoch env .msapStackState) fun _ => 5 := by
  refine oneByte_extent (c := .onStackStatusReceived cb)
    (fun _ _ hEq => (Callback.onStackStatusReceived.inj hEq).2) fun m => ?_
  simp only [observedOf, handlePrimitive, hCb, Option.map_some]

theorem msapScanNbors_extent {cb : Nat} (hCb : h.scanNeighborCb = some cb) :
    Extent (observedOf h timestampMsEpoch env .msapScanNbors) fun _ => 5 := by
  refine oneByte_extent (c := .onScanNeighborsDone cb)
    (fun _ _ hEq => (Callback.onScanNeighborsDone.inj hEq).2) fun m => ?_
  simp only [observedOf, handlePrimitive, hCb, Option.map_some]

end Extents

section Sent

variable {h : Handlers} {timestampMsEpoch : Nat} {env : Env} {buffer : List UInt8}

/-- The callback that a pdu id is waited for with. -/
def waitedFor (h : Handlers) (pduId : UInt16) : Option OnDataSentCb := (h.table.getIndicationCb pduId).2

theorem observedOf_dsapDataTx (m : Memory UInt8) :
    observedOf h timestampMsEpoch env .dsapDataTx m =
      (none, (waitedFor h (uint16At m 4)).map fun cb =>
        .onDataSent ⟨cb, uint16At m 4, internalTimeToMs (uint32At m 12), m 16⟩) := by
  simp only [observedOf, handlePrimitive, dsapDataTxIndicationHandler, dsapDataTxIndicationPayload,
    Option.map_map]
  rfl

theorem uint16At_eq_iff {m : Memory UInt8} {pos : Int} {v : UInt16} :
    uint16At m pos = v ↔ m.read pos 2 = uint16EncodeLe v := by
  constructor
  · rintro rfl
    exact (uint16EncodeLe_decode _ _).symm
  · intro hRead
    rw [uint16At, hRead, uint16DecodeLe_encode]

theorem dsapDataTx_settled_iff :
    Settled buffer (observedOf h timestampMsEpoch env .dsapDataTx) ↔
      17 ≤ buffer.length ∨
        ∀ pduId, (buffer.drop 4).take 2 <+: uint16EncodeLe pduId → waitedFor h pduId = none := by
  constructor
  · intro hSettled
    by_contra hNot
    obtain ⟨hShort, hWaited⟩ := not_or.mp hNot
    apply hWaited
    intro pduId hPrefix
    by_contra hCb
    obtain ⟨cb, hCb⟩ := Option.ne_none_iff_exists'.mp hCb
    -- the received part leaves open a pdu id that is waited for, and the result is not received
    obtain ⟨m, hRead⟩ := (read_write_iff (fun _ => 0) buffer
      (l := uint16EncodeLe pduId)).mpr hPrefix
    obtain ⟨a, -, ha⟩ := exists_other (m.write 0 buffer (16 : Nat))
    have hPduId : uint16At (m.write 0 buffer) 4 = pduId := uint16At_eq_iff.mpr hRead
    have hPduId' : uint16At ((m.write 0 buffer).store (16 : Nat) a) 4 = pduId := by
      rw [← hPduId]
      exact congrArg uint16DecodeLe (read_congr fun k hk => store_other _ _ _ (by omega))
    have hSame := hSettled (m.store (16 : Nat) a) m
    rw [write_store m buffer (by omega), observedOf_dsapDataTx, observedOf_dsapDataTx, hPduId, hPduId',
      hCb] at hSame
    have hSent := Callback.onDataSent.inj (Option.some.inj (Prod.mk.inj hSame).2)
    have hResult : (m.write 0 buffer).store (16 : Nat) a (16 : Nat) = m.write 0 buffer (16 : Nat) :=
      (DataSent.mk.inj hSent).2.2.2
    rw [store_same] at hResult
    exact ha hResult
  · rintro (hLong | hNone) m m'
    · have hSame : ∀ k : Nat, k < 17 → m.write 0 buffer k = m'.write 0 buffer k :=
        fun k hk => write_agrees m m' buffer k (by omega)
      rw [observedOf_dsapDataTx, observedOf_dsapDataTx,
        show uint16At (m.write 0 buffer) 4 = uint16At (m'.write 0 buffer) 4 from
          uint16At_congr hSame 4 (by omega),
        show uint32At (m.write 0 buffer) 12 = uint32At (m'.write 0 buffer) 12 from
          uint32At_congr hSame 12 (by omega),
        show m.write 0 buffer 16 = m'.write 0 buffer 16 from hSame 16 (by omega)]
    · have hNothing (m : Memory UInt8) : waitedFor h (uint16At (m.write 0 buffer) 4) = none := by
        apply hNone
        exact (read_write_iff m buffer (l := uint16EncodeLe _)).mp ⟨m, uint16At_eq_iff.mp rfl⟩
      rw [observedOf_dsapDataTx, observedOf_dsapDataTx, hNothing, hNothing]
      rfl

end Sent

/-- All that the handler of the primitive uses was received, if it calls anything. -/
def CoversPrimitive (h : Handlers) (buffer : List UInt8) : Primitive → Prop
  | .dsapDataTx =>
    17 ≤ buffer.length ∨
      ∀ pduId, (buffer.drop 4).take 2 <+: uint16EncodeLe pduId → waitedFor h pduId = none
  | .dsapDataRx =>
    h.receiver.dataCb = none ∨
      20 ≤ buffer.length ∧ 20 + (buffer.getD 19 0).toNat ≤ buffer.length
  | .dsapDataRxFrag => 24 ≤ buffer.length ∧ 24 + (buffer.getD 23 0).toNat ≤ buffer.length
  | .msapStackState => h.stackStatusCb = none ∨ 5 ≤ buffer.length
  | .msapAppConfigDataRx => h.appConfCb = none ∨ 7 + maximumAppConfigSize ≤ buffer.length
  | .msapScanNbors => h.scanNeighborCb = none ∨ 5 ≤ buffer.length
  | .msapConfigDataItemRx =>
    h.configDataItemCb = none ∨ 7 ≤ buffer.length ∧ 7 + (buffer.getD 6 0).toNat ≤ buffer.length

/-- The frame fits the local one, and covers what the handler of its primitive uses. -/
def Covers (h : Handlers) (buffer : List UInt8) : Prop :=
  buffer.length ≤ sizeofWpcFrame ∧
    ∀ p, Primitive.ofId (buffer.getD 0 0) = some p → CoversPrimitive h buffer p

section Frames

variable {h : Handlers} {timestampMsEpoch : Nat} {env : Env} {buffer : List UInt8}

/-- The extent of a header that ends with the number of the bytes after it. -/
theorem counted_settled_iff {β : Type} {f : Memory UInt8 → β} {pos : Nat}
    (hExtent : Extent f fun m => pos + 1 + (m pos).toNat) :
    Settled buffer f ↔
      pos + 1 ≤ buffer.length ∧ pos + 1 + (buffer.getD pos 0).toNat ≤ buffer.length := by
  rw [hExtent.settled_iff]
  constructor
  · intro hAll
    have hThis := hAll fun _ => 0
    have hHeader : pos + 1 ≤ buffer.length := by omega
    rw [write_getD _ buffer hHeader 0] at hThis
    exact ⟨hHeader, hThis⟩
  · rintro ⟨hHeader, hBytes⟩ m
    rw [write_getD m buffer hHeader 0]
    exact hBytes

theorem observedOf_settled_iff (p : Primitive) :
    Settled buffer (observedOf h timestampMsEpoch env p) ↔ CoversPrimitive h buffer p := by
  have hConst {f : Memory UInt8 → Option ReassemblyFragment × Option Callback}
      (hf : ∀ m, f m = (none, none)) : Settled buffer f := fun m m' => by rw [hf, hf]
  cases p with
  | dsapDataTx => exact dsapDataTx_settled_iff
  | dsapDataRx =>
    cases hCb : h.receiver.dataCb with
    | none =>
      refine iff_of_true (hConst fun m => ?_) (.inl hCb)
      simp only [observedOf, handlePrimitive, dsapDataRxIndicationHandler, hCb, Option.map_none]
    | some cb =>
      have hNe : h.receiver.dataCb ≠ none := by rw [hCb]; exact nofun
      rw [CoversPrimitive, or_iff_right hNe]
      exact counted_settled_iff (dsapDataRx_extent hCb)
  | dsapDataRxFrag => exact counted_settled_iff dsapDataRxFrag_extent
  | msapStackState =>
    cases hCb : h.stackStatusCb with
    | none =>
      refine iff_of_true (hConst fun m => ?_) (.inl hCb)
      simp only [observedOf, handlePrimitive, hCb, Option.map_none]
    | some cb =>
      have hNe : h.stackStatusCb ≠ none := by rw [hCb]; exact nofun
      rw [CoversPrimitive, or_iff_right hNe, (msapStackState_extent hCb).settled_iff]
      exact forall_const _
  | msapAppConfigDataRx =>
    cases hCb : h.appConfCb with
    | none =>
      refine iff_of_true (hConst fun m => ?_) (.inl hCb)
      simp only [observedOf, handlePrimitive, hCb, Option.map_none]
    | some cb =>
      have hNe : h.appConfCb ≠ none := by rw [hCb]; exact nofun
      rw [CoversPrimitive, or_iff_right hNe, (msapAppConfigDataRx_extent hCb).settled_iff]
      exact forall_const _
  | msapScanNbors =>
    cases hCb : h.scanNeighborCb with
    | none =>
      refine iff_of_true (hConst fun m => ?_) (.inl hCb)
      simp only [observedOf, handlePrimitive, hCb, Option.map_none]
    | some cb =>
      have hNe : h.scanNeighborCb ≠ none := by rw [hCb]; exact nofun
      rw [CoversPrimitive, or_iff_right hNe, (msapScanNbors_extent hCb).settled_iff]
      exact forall_const _
  | msapConfigDataItemRx =>
    cases hCb : h.configDataItemCb with
    | none =>
      refine iff_of_true (hConst fun m => ?_) (.inl hCb)
      simp only [observedOf, handlePrimitive, hCb, Option.map_none]
    | some cb =>
      have hNe : h.configDataItemCb ≠ none := by rw [hCb]; exact nofun
      rw [CoversPrimitive, or_iff_right hNe]
      exact counted_settled_iff (msapConfigDataItemRx_extent hCb)

theorem observed_settled_iff (hSome : buffer.length ≠ 0) :
    Settled buffer (observed h timestampMsEpoch env) ↔
      ∀ p, Primitive.ofId (buffer.getD 0 0) = some p → CoversPrimitive h buffer p := by
  have hPrimitive (m : Memory UInt8) : m.write 0 buffer 0 = buffer.getD 0 0 :=
    write_getD m buffer (Nat.pos_of_ne_zero hSome) 0
  cases hKnown : Primitive.ofId (buffer.getD 0 0) with
  | none =>
    refine iff_of_true (fun m m' => ?_) nofun
    simp only [observed, dispatchIndication]
    rw [hPrimitive, hPrimitive, hKnown]
  | some p =>
    have hObserved (m : Memory UInt8) : observed h timestampMsEpoch env (m.write 0 buffer) =
        observedOf h timestampMsEpoch env p (m.write 0 buffer) := by
      simp only [observed, dispatchIndication]
      rw [hPrimitive, hKnown]
      rfl
    rw [Settled.congr hObserved, observedOf_settled_iff]
    constructor
    · rintro hCovers q hq
      exact Option.some.inj hq ▸ hCovers
    · exact fun hCovers => hCovers p rfl

/-- The callbacks of a frame and their arguments come from the received bytes alone exactly if
these cover what the handler uses. -/
theorem calls_determined_iff_covers (h : Handlers) (timestampMsEpoch : Nat) (env : Env)
    (buffer : List UInt8) :
    CallsDetermined h timestampMsEpoch env buffer ↔ Covers h buffer := by
  by_cases hSome : buffer.length ≠ 0
  · by_cases hFits : buffer.length ≤ sizeofWpcFrame
    · rw [callsDetermined_iff_settled hSome hFits, observed_settled_iff hSome, Covers,
        and_iff_right hFits]
    · exact iff_of_false (not_callsDetermined_long (Nat.lt_of_not_le hFits)) fun hCovers =>
        hFits hCovers.1
  · obtain rfl := List.length_eq_zero_iff.mp (not_not.mp hSome)
    exact iff_of_true (fun _ _ _ _ _ => rfl) ⟨Nat.zero_le _, nofun⟩

/-- An application that only registered for data. -/
def dataOnly : Handlers where
  receiver := ⟨Reassembly.init, fun _ => 0, some 1⟩
  table := .init
  stackStatusCb := none
  appConfCb := none
  scanNeighborCb := none
  configDataItemCb := none

/-- Twenty-one bytes that declare a payload of five. -/
def shortData : List UInt8 :=
  [0x03, 7, 18, 0, 9, 0, 0, 0, 1, 5, 0, 0, 0, 1, 4, 0, 1, 0, 0, 5, 0xAA]

theorem short_data_undetermined :
    ¬ CallsDetermined dataOnly 0 ⟨.all, 0, 0⟩ shortData := by
  intro hCalls
  rw [callsDetermined_iff_settled (by decide) (by decide), observed_settled_iff (by decide)] at hCalls
  rcases hCalls .dsapDataRx rfl with hNone | hCovered
  · cases hNone
  · exact absurd hCovered (by decide)

end Frames

end Indications

end CMeshApi.Wpc
