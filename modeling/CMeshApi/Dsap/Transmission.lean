import CMeshApi.Dsap.IndicationTable
import CMeshApi.Util

/-!
# Sending data

`dsap_data_tx_request` of `dsap.c`, and the handler of the indications that tell
what became of a packet. The answers of the node, or of the link when
there is none, are an argument: the `i`-th request that a call sends gets the
`i`-th answer. The lengths of the requests and the bytes copied into them are
those the code computes, without the bound of the array they are copied to.
-/

namespace CMeshApi.Dsap

def dsapDataTxFragRequest : UInt8 := 0x0f
def dsapDataTxTtRequest : UInt8 := 0x1f

/-- `dsap_data_tx_tt_req_pl_t`. -/
structure DsapDataTxTtReqPl where
  pduId : UInt16
  srcEndpoint : UInt8
  destAdd : UInt32
  destEndpoint : UInt8
  qos : UInt8
  txOptions : UInt8
  bufferingDelay : UInt32
  apduLength : UInt8
  apdu : List UInt8
deriving DecidableEq, Repr

/-- `dsap_data_tx_frag_req_pl_t`. -/
structure DsapDataTxFragReqPl extends DsapDataTxTtReqPl where
  fullPacketId : BitVec 12
  fragmentOffsetFlag : UInt16
deriving DecidableEq, Repr

inductive TxPayload where
  | tt (payload : DsapDataTxTtReqPl)
  | frag (payload : DsapDataTxFragReqPl)
deriving DecidableEq, Repr

structure TxRequest where
  primitiveId : UInt8
  payloadLength : UInt8
  payload : TxPayload
deriving DecidableEq, Repr

/-- The result of `WPC_Int_send_request`, with the result byte of the confirm, which counts
only if the first is not negative. -/
structure Answer where
  res : Int
  confirmResult : UInt8
deriving DecidableEq, Repr

structure DataTx where
  buffer : List UInt8
  pduId : UInt16
  destAdd : UInt32
  qos : UInt8
  srcEp : UInt8
  destEp : UInt8
  onDataSentCb : Option OnDataSentCb
  bufferingDelay : UInt32
  isUnackCsmaCa : Bool
  hopLimit : UInt8
deriving DecidableEq, Repr

/-- The static variables of the sending half. -/
structure Sender where
  packetId : UInt16
  table : IndicationTable

def fillTxTtRequest (tx : DataTx) (buffer : List UInt8) (len : Nat) (txOptions : UInt8) :
    DsapDataTxTtReqPl where
  pduId := tx.pduId
  srcEndpoint := tx.srcEp
  destAdd := tx.destAdd
  destEndpoint := tx.destEp
  qos := tx.qos
  txOptions := txOptions
  bufferingDelay := tx.bufferingDelay
  apduLength := .ofNat len
  apdu := buffer.take len

/-- An intermediate fragment is never tracked, so its first option bit is cleared. -/
def fillTxFragRequest (tx : DataTx) (buffer : List UInt8) (len : Nat) (txOptions : UInt8)
    (fullPacketId : UInt16) (fragOffset : UInt16) (lastFrag : Bool) : DsapDataTxFragReqPl where
  toDsapDataTxTtReqPl :=
    fillTxTtRequest tx buffer len (if lastFrag then txOptions else txOptions &&& 0xfe)
  fullPacketId := .ofNat 12 fullPacketId.toNat
  fragmentOffsetFlag :=
    (fragOffset &&& dsapFragLengthMask) ||| (if lastFrag then dsapFragLastFlagMask else 0)

def txOptions (tx : DataTx) : UInt8 :=
  let tracked : UInt8 := if tx.onDataSentCb ≠ none then 0x1 else 0
  let unack : UInt8 := if tx.isUnackCsmaCa then 0x2 else 0
  tracked ||| unack ||| ((tx.hopLimit &&& 0xf) <<< 2)

def ttRequest (tx : DataTx) : TxRequest where
  primitiveId := dsapDataTxTtRequest
  payloadLength := .ofNat (15 + tx.buffer.length)
  payload := .tt (fillTxTtRequest tx tx.buffer tx.buffer.length (txOptions tx))

def fragments (mtu len : Nat) : Nat := (len + mtu - 1) / mtu

def lastFragmentSize (mtu len : Nat) : Nat := if len % mtu = 0 then mtu else len % mtu

/-- The request of round `i` of the loop over the fragments. -/
def fragRequest (mtu : Nat) (tx : DataTx) (pId : UInt16) (i : Nat) : TxRequest :=
  let offset := UInt16.ofNat (i * mtu)
  let last := i == fragments mtu tx.buffer.length - 1
  let fragLen := if last then lastFragmentSize mtu tx.buffer.length else mtu
  { primitiveId := dsapDataTxFragRequest
    payloadLength := .ofNat (19 + fragLen)
    payload := .frag (fillTxFragRequest tx (tx.buffer.drop offset.toNat) fragLen (txOptions tx) pId
      offset last) }

/-- The rounds of the loop from `i` on: the requests sent, and the value returned from inside
the loop if a request fails or is refused. -/
def sendFragments (request : Nat → TxRequest) (answer : Nat → Answer) :
    Nat → Nat → List TxRequest × Option Int
  | 0, _ => ([], none)
  | n + 1, i =>
    if (answer i).res < 0 then ([request i], some (answer i).res)
    else if (answer i).confirmResult ≠ 0 then ([request i], some (answer i).confirmResult.toNat)
    else
      match sendFragments request answer n (i + 1) with
      | (sent, returned) => (request i :: sent, returned)

/-- What a call sends, and its return value; `accepted` says that the stack took the packet. -/
structure Transmission where
  packetId : UInt16
  sent : List TxRequest
  result : Int
  accepted : Bool
deriving DecidableEq, Repr

/-- The call up to the registration of the callback. `none` is the division by a zero MTU. -/
def transmit (mtu : UInt8) (packetId : UInt16) (tx : DataTx) (answer : Nat → Answer) :
    Option Transmission :=
  let len := tx.buffer.length
  if maxFullPacketSize < len then some ⟨packetId, [], 6, false⟩
  else if len ≤ mtu.toNat then
    if (answer 0).res < 0 then some ⟨packetId, [ttRequest tx], (answer 0).res, false⟩
    else
      let confirmRes := (answer 0).confirmResult
      some ⟨packetId, [ttRequest tx], confirmRes.toNat, confirmRes == 0⟩
  else if mtu = 0 then none
  else
    let pId := packetId &&& 0xfff
    match sendFragments (fragRequest mtu.toNat tx pId) answer (fragments mtu.toNat len) 0 with
    | (sent, some returned) => some ⟨packetId + 1, sent, returned, false⟩
    | (sent, none) => some ⟨packetId + 1, sent, 0, true⟩

/-- A call: what it sends and returns, and the sender it leaves. A packet that the stack
accepted is entered in the table; whether that succeeds is not looked at. -/
def dsapDataTxRequest (mtu : UInt8) (s : Sender) (tx : DataTx) (answer : Nat → Answer) :
    Option (Sender × List TxRequest × Int) :=
  (transmit mtu s.packetId tx answer).map fun t =>
    match t.accepted, tx.onDataSentCb with
    | true, some cb =>
      (⟨t.packetId, (s.table.setIndicationCb cb tx.pduId).1⟩, t.sent, t.result)
    | _, _ => (⟨t.packetId, s.table⟩, t.sent, t.result)

/-- `dsap_data_tx_ind_pl_t`. -/
structure DsapDataTxIndPl where
  indicationStatus : UInt8
  pduId : UInt16
  srcEndpoint : UInt8
  destAdd : UInt32
  destEndpoint : UInt8
  bufferingDelay : UInt32
  result : UInt8
deriving DecidableEq, Repr

/-- What the callback of a packet is called with. -/
structure DataSent where
  cb : OnDataSentCb
  pduId : UInt16
  bufferingDelay : UInt32
  result : UInt8
deriving DecidableEq, Repr

def dsapDataTxIndicationHandler (t : IndicationTable) (payload : DsapDataTxIndPl) :
    IndicationTable × Option DataSent :=
  match t.getIndicationCb payload.pduId with
  | (t, cb) => (t, cb.map fun cb =>
      ⟨cb, payload.pduId, internalTimeToMs payload.bufferingDelay, payload.result⟩)

end CMeshApi.Dsap
