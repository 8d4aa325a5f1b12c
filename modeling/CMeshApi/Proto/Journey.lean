import CMeshApi.Dsap.Fragmentation
import CMeshApi.Proto.Pipeline
import CMeshApi.Proto.Requests

/-!
# From a request to an event of another gateway

A packet that is too long for one frame: the handler of the request has it sent in fragments, the
network brings these to the node of another gateway in any order and among other frames, and the
threads there make one event of them.
-/

namespace CMeshApi.Proto

open Machine Programs Platform Dsap Reassembly Wpc

/-- What `WPC_send_data` makes of the request. -/
def SendPacketReq.dataTx (req : SendPacketReq) : DataTx where
  buffer := req.payload
  pduId := 0
  destAdd := req.destinationAddress
  qos := if req.qos &&& 0xff = appQosHigh then 1 else 0
  srcEp := req.sourceEndpoint.toUInt8
  destEp := req.destinationEndpoint.toUInt8
  onDataSentCb := none
  bufferingDelay := msToInternalTime 0
  isUnackCsmaCa := false
  hopLimit := 0

/-- Data are sent by `dsap_data_tx_request`, with the static variables, the answers of the node and
the requests that it has got as parts of the state. -/
structure SendsBy {ν : Type} (env : Environment ν) (send : UInt8 → DataTx → ν → Int × ν)
    (sender : ν → Sender) (answer : ν → Nat → Dsap.Answer) (requests : ν → List TxRequest) : Prop where
  calls : ∀ mtu tx n, mtu ≠ 0 → ∃ sent,
    dsapDataTxRequest mtu (sender n) tx (answer n) =
      some (sender (send mtu tx n).2, sent, (send mtu tx n).1) ∧
      requests (send mtu tx n).2 = requests n ++ sent
  clock : ∀ n, requests (env.timestampMsEpoch n).2 = requests n

theorem sendFragments_of_none {request : Nat → TxRequest} {answer : Nat → Dsap.Answer} {n i : Nat}
    (h : (sendFragments request answer n i).2 = none) :
    (sendFragments request answer n i).1 = (List.range' i n).map request := by
  induction n generalizing i with
  | zero => rfl
  | succ n ih =>
    rw [sendFragments] at h ⊢
    split at h
    · cases h
    · split at h
      · cases h
      · next hRes hConfirm =>
        rw [if_neg hRes, if_neg hConfirm, List.range'_succ, List.map_cons, ← ih h]

theorem sendFragments_of_some {request : Nat → TxRequest} {answer : Nat → Dsap.Answer} {n i : Nat} {v : Int}
    (h : (sendFragments request answer n i).2 = some v) : v ≠ 0 := by
  induction n generalizing i with
  | zero => cases h
  | succ n ih =>
    rw [sendFragments] at h
    split at h
    · next hRes =>
      obtain rfl : (answer i).res = v := Option.some.inj h
      omega
    · split at h
      · next hConfirm =>
        obtain rfl : ((answer i).confirmResult.toNat : Int) = v := Option.some.inj h
        intro hZero
        refine hConfirm (UInt8.toNat_inj.mp ?_)
        exact Int.ofNat.inj hZero
      · exact ih h

/-- With the result 0 all fragments of a long packet were sent. -/
theorem fragments_of_zero {mtu : UInt8} {sender sender' : Sender} {tx : DataTx} {answer : Nat → Dsap.Answer}
    {sent : List TxRequest} (hLong : mtu.toNat < tx.buffer.length)
    (h : dsapDataTxRequest mtu sender tx answer = some (sender', sent, 0)) :
    tx.buffer.length ≤ maxFullPacketSize ∧
      sent = (List.range (fragments mtu.toNat tx.buffer.length)).map
        (fragRequest mtu.toNat tx (sender.packetId &&& 0xfff)) := by
  obtain ⟨t, hTransmit, hSent⟩ := Option.map_eq_some_iff.mp h
  have hFields : t.sent = sent ∧ t.result = 0 := by
    split at hSent <;> exact Prod.mk.inj (Prod.mk.inj hSent).2
  obtain ⟨rfl, hZero⟩ := hFields
  simp only [transmit] at hTransmit
  split at hTransmit
  · cases hTransmit
    cases hZero
  · next hSize =>
    rw [if_neg (by omega)] at hTransmit
    split at hTransmit
    · cases hTransmit
    · split at hTransmit
      · next hSome =>
        cases hTransmit
        exact absurd hZero (sendFragments_of_some (congrArg Prod.snd hSome))
      · next hNone =>
        cases hTransmit
        refine ⟨Nat.le_of_not_lt hSize, ?_⟩
        have hAll := sendFragments_of_none (congrArg Prod.snd hNone)
        rw [hNone] at hAll
        rw [List.range_eq_range']
        exact hAll

section Send

variable {ν : Type} {env : Environment ν} {send : UInt8 → DataTx → ν → Int × ν} {sender : ν → Sender}
  {answer : ν → Nat → Dsap.Answer} {requests : ν → List TxRequest} {req : SendPacketReq}
  {resp memory : Raw.SendPacketResp} {w t : World Gateway ν} {res : AppProtoRes}

/-- A response without an error says that all fragments of the packet were sent. -/
theorem requests_of_ok (hSends : SendsBy env send sender answer requests) (hMtu : w.statics.wpcIntGetMtu ≠ 0)
    (hLong : w.statics.wpcIntGetMtu.toNat < req.payload.length)
    (hReturns : Returns (protoDataHandleSendData env send req memory) w (res, resp) t)
    (hOk : resp.header.res = ErrorCode.ok.value) :
    (req.sourceEndpoint ≤ 0xff ∧ req.destinationEndpoint ≤ 0xff) ∧
      req.payload.length ≤ maxFullPacketSize ∧ requests t.node = requests w.node ++
        (List.range (fragments w.statics.wpcIntGetMtu.toNat req.payload.length)).map
          (fragRequest w.statics.wpcIntGetMtu.toNat req.dataTx ((sender w.node).packetId &&& 0xfff)) := by
  have hTable : OkOnlyAtZero sendDataErrorCodeLut := by decide
  obtain ⟨answered, u, hCall, hRest⟩ := returns_bind.mp hReturns
  obtain ⟨header, v, hHeader, hPure⟩ := returns_bind.mp hRest
  obtain ⟨hResp, rfl⟩ := returns_pure.mp hPure
  cases hResp
  obtain rfl := ok_of_responseHeader env hHeader hOk
  obtain ⟨-, rfl⟩ := returns_fillResponseHeader env hHeader
  rcases returns_ite.mp hCall with ⟨-, hRefused⟩ | ⟨hEndpoints, hSend⟩
  · cases (returns_pure.mp hRefused).1
  · obtain ⟨mtu, u₁, hRead, hAsk⟩ := returns_bind.mp hSend
    obtain ⟨rfl, rfl⟩ := returns_read.mp hRead
    obtain ⟨result, u₂, hAsked, hConverted⟩ := returns_bind.mp hAsk
    obtain ⟨rfl, rfl⟩ := returns_ask.mp hAsked
    obtain ⟨hConvert, rfl⟩ := returns_pure.mp hConverted
    obtain ⟨sent, hTx, hLog⟩ := hSends.calls _ req.dataTx u₁.node hMtu
    have hZero : (send u₁.statics.wpcIntGetMtu req.dataTx u₁.node).1 = 0 :=
      (convertErrorCode_eq_ok hTable).mp hConvert.symm
    rw [hZero] at hTx
    obtain ⟨hSize, rfl⟩ := fragments_of_zero (show _ < req.dataTx.buffer.length from hLong) hTx
    refine ⟨?_, hSize, (hSends.clock _).trans hLog⟩
    rw [not_or] at hEndpoints
    exact ⟨UInt32.not_lt.mp hEndpoints.1, UInt32.not_lt.mp hEndpoints.2⟩

end Send

namespace Pipeline

/-- `dsap_data_rx_frag_ind_pl_t` in a frame, as the node that has got the fragment sends it. -/
def fragFrame (src : UInt32) (p : DsapDataTxFragReqPl) (qosHopCount : UInt8) (travelTime : UInt32)
    (frameId indicationStatus : UInt8) : List UInt8 :=
  [0x10, frameId, .ofNat (21 + p.apdu.length), indicationStatus] ++ uint32EncodeLe src ++ [p.srcEndpoint] ++
    uint32EncodeLe p.destAdd ++ [p.destEndpoint, qosHopCount] ++ uint32EncodeLe travelTime ++
    uint16EncodeLe ⟨p.fullPacketId.setWidth 16⟩ ++ uint16EncodeLe p.fragmentOffsetFlag ++
    [.ofNat p.apdu.length] ++ p.apdu

/-- The polling thread has put a frame with the fragment of the request into a slot of the queue.
The network leaves the addresses, the endpoints and the QoS as they are. -/
def Brings (src : UInt32) (request : TxRequest) (ind : TimestampedFrame (Memory UInt8)) : Prop :=
  ∃ (p : DsapDataTxFragReqPl) (qosHopCount : UInt8) (travelTime : UInt32) (frameId indicationStatus : UInt8)
    (slot frame : Memory UInt8), request.payload = .frag p ∧ 24 + p.apdu.length ≤ sizeofWpcFrame ∧
    qosHopCount &&& 0x01 = p.qos ∧
    ind.frame = Wpc.Indications.onIndicationReceivedLocked slot
      (Wpc.Indications.slipCopy frame (fragFrame src p qosHopCount travelTime frameId indicationStatus))

def fragPayload (ind : TimestampedFrame (Memory UInt8)) : DsapDataRxFragIndPl :=
  Indications.dsapDataRxFragIndicationPayload ind.frame

def IsFragment (ind : TimestampedFrame (Memory UInt8)) : Prop :=
  Indications.Primitive.ofId (ind.frame 0) = some .dsapDataRxFrag

instance (ind : TimestampedFrame (Memory UInt8)) : Decidable (IsFragment ind) :=
  inferInstanceAs (Decidable (_ = _))

/-- The frame has a fragment of the packet. -/
def isFragmentOf (key : PacketKey) (ind : TimestampedFrame (Memory UInt8)) : Bool :=
  decide (IsFragment ind) && decide ((fragPayload ind).key = key)

section Frames

variable (m : Memory UInt8) (src : UInt32) (p : DsapDataTxFragReqPl) (qosHopCount : UInt8) (travelTime : UInt32)
  (frameId indicationStatus : UInt8)

theorem length_fragFrame :
    (fragFrame src p qosHopCount travelTime frameId indicationStatus).length = 24 + p.apdu.length := by
  simp [fragFrame, uint32EncodeLe, uint16EncodeLe]
  omega

theorem dsapDataRxFragIndicationPayload_fragFrame :
    Indications.dsapDataRxFragIndicationPayload
        (m.write 0 (fragFrame src p qosHopCount travelTime frameId indicationStatus)) = {
      indicationStatus := indicationStatus
      srcAdd := src
      srcEndpoint := p.srcEndpoint
      destAdd := p.destAdd
      destEndpoint := p.destEndpoint
      qosHopCount := qosHopCount
      travelTime := travelTime
      fullPacketId := p.fullPacketId
      fragmentOffsetFlag := p.fragmentOffsetFlag
      apduLength := .ofNat p.apdu.length
      apdu := fun i =>
        m.write 0 (fragFrame src p qosHopCount travelTime frameId indicationStatus) (24 + i) } := by
  have hLength := length_fragFrame src p qosHopCount travelTime frameId indicationStatus
  have hByte {k : Nat} {v : UInt8}
      (h : ((fragFrame src p qosHopCount travelTime frameId indicationStatus).drop k).take 1 = [v])
      (hk : k < 24) := cell_written m h (by omega)
  have hHalf {i : Nat} {v : UInt16}
      (h : ((fragFrame src p qosHopCount travelTime frameId indicationStatus).drop i).take 2 = uint16EncodeLe v)
      (hi : i + 2 ≤ 24) := uint16At_written m h (by omega)
  have hWord {i : Nat} {v : UInt32}
      (h : ((fragFrame src p qosHopCount travelTime frameId indicationStatus).drop i).take 4 = uint32EncodeLe v)
      (hi : i + 4 ≤ 24) := uint32At_written m h (by omega)
  have hId : (Indications.uint16At
      (m.write 0 (fragFrame src p qosHopCount travelTime frameId indicationStatus)) 19).toBitVec.setWidth 12 =
        p.fullPacketId := by
    rw [show Indications.uint16At
      (m.write 0 (fragFrame src p qosHopCount travelTime frameId indicationStatus)) 19 = _ from
        hHalf (i := 19) rfl (by decide)]
    simp
  rw [Indications.dsapDataRxFragIndicationPayload, DsapDataRxFragIndPl.mk.injEq]
  exact ⟨hByte (k := 3) rfl (by decide), hWord (i := 4) rfl (by decide), hByte (k := 8) rfl (by decide),
    hWord (i := 9) rfl (by decide), hByte (k := 13) rfl (by decide), hByte (k := 14) rfl (by decide),
    hWord (i := 15) rfl (by decide), hId, hHalf (i := 21) rfl (by decide), hByte (k := 23) rfl (by decide), rfl⟩

end Frames

section Brought

variable {src : UInt32} {request : TxRequest} {ind : TimestampedFrame (Memory UInt8)}

/-- What the dispatch thread finds in the slot. -/
structure Found (src : UInt32) (p : DsapDataTxFragReqPl) (ind : TimestampedFrame (Memory UInt8)) : Prop where
  isFragment : IsFragment ind
  srcAdd : (fragPayload ind).srcAdd = src
  srcEndpoint : (fragPayload ind).srcEndpoint = p.srcEndpoint
  destAdd : (fragPayload ind).destAdd = p.destAdd
  destEndpoint : (fragPayload ind).destEndpoint = p.destEndpoint
  qos : (fragPayload ind).qosHopCount &&& 0x01 = p.qos
  fullPacketId : (fragPayload ind).fullPacketId = p.fullPacketId
  fragmentOffsetFlag : (fragPayload ind).fragmentOffsetFlag = p.fragmentOffsetFlag
  apdu : (fragPayload ind).apdu.read 0 (fragPayload ind).apduLength.toNat = p.apdu

theorem Brings.found (h : Brings src request ind) :
    ∃ p, request.payload = .frag p ∧ Found src p ind := by
  obtain ⟨p, qosHopCount, travelTime, frameId, indicationStatus, slot, frame, hPayload, hFits, hQos, hFrame⟩ := h
  have hLength := length_fragFrame src p qosHopCount travelTime frameId indicationStatus
  have hWritten : ind.frame = (slot.write 0 (frame.read 0 sizeofWpcFrame)).write 0
      (fragFrame src p qosHopCount travelTime frameId indicationStatus) := by
    rw [hFrame, Wpc.Indications.onIndicationReceivedLocked, Wpc.Indications.slipCopy, if_pos (by omega)]
    exact Memory.write_read_write slot frame (by omega)
  have hFound := dsapDataRxFragIndicationPayload_fragFrame (slot.write 0 (frame.read 0 sizeofWpcFrame)) src p
    qosHopCount travelTime frameId indicationStatus
  rw [← hWritten] at hFound
  refine ⟨p, hPayload, ?_⟩
  constructor
  case isFragment =>
    have hFirst : (slot.write 0 (frame.read 0 sizeofWpcFrame)).write 0
        (fragFrame src p qosHopCount travelTime frameId indicationStatus) 0 = 0x10 :=
      cell_written _ (k := 0) rfl (by omega)
    rw [IsFragment, hWritten, hFirst]
    rfl
  case apdu =>
    have hSmall : (UInt8.ofNat p.apdu.length).toNat = p.apdu.length := by
      have hSize : sizeofWpcFrame < 256 := by decide
      rw [UInt8.toNat_ofNat']
      exact Nat.mod_eq_of_lt (by omega)
    have hEnd := read_written_end (slot.write 0 (frame.read 0 sizeofWpcFrame))
      (b := fragFrame src p qosHopCount travelTime frameId indicationStatus) (i := 24) (by omega)
    rw [hLength, Nat.add_sub_cancel_left, ← hWritten] at hEnd
    rw [fragPayload, hFound]
    simp only [hSmall]
    exact hEnd
  all_goals rw [fragPayload, hFound]
  exact hQos

theorem Brings.fragFrom (h : Brings src request ind) : request.fragFrom src = some (fragPayload ind).frag := by
  obtain ⟨p, hPayload, hFound⟩ := h.found
  simp only [TxRequest.fragFrom, hPayload, DsapDataRxFragIndPl.frag, DsapDataRxFragIndPl.packetId,
    hFound.srcAdd, hFound.fullPacketId, hFound.fragmentOffsetFlag, hFound.apdu]

end Brought

section Receiving

variable {ν : Type}

/-- What an effect is for the receiving half of `dsap.c`. -/
def rxEvent : Served ν → Option Dsap.RxEvent
  | .handle ind answers start finish =>
    if IsFragment ind then
      some (.fragIndication (fragPayload ind) ind.timestampMsEpoch ⟨answers.allocs, start, finish⟩)
    else none
  | .collect now => some (.collect now)
  | .configure (.registerForData cb) => some (.register cb)
  | .configure .unregisterForData => some .unregister
  | .configure (.setMaxFragmentDuration d) => some (.setMaxFragmentDuration d)
  | .configure (.others _) => none

variable {env : Environment ν} {r : Store ν} {key : PacketKey}

section Handled

variable {ind : TimestampedFrame (Memory UInt8)} {answers : Answers} {start finish : Nat}

theorem rxEvent_fragment (h : IsFragment ind) :
    rxEvent (Effect.handle ind answers start finish : Served ν) =
      some (.fragIndication (fragPayload ind) ind.timestampMsEpoch ⟨answers.allocs, start, finish⟩) :=
  if_pos h

theorem rxEvent_other (h : ¬ IsFragment ind) :
    rxEvent (Effect.handle ind answers start finish : Served ν) = none :=
  if_neg h

theorem isFragmentOf_fragment (h : IsFragment ind) :
    isFragmentOf key ind = decide ((fragPayload ind).key = key) := by
  rw [isFragmentOf, decide_eq_true h, Bool.true_and]

theorem isFragmentOf_other (h : ¬ IsFragment ind) : isFragmentOf key ind = false := by
  rw [isFragmentOf, decide_eq_false h, Bool.false_and]

theorem dispatched_fragment (h : IsFragment ind) :
    (dispatched r ind answers start finish).handlers.receiver =
        (dsapDataRxFragIndicationHandler r.handlers.receiver (fragPayload ind) ind.timestampMsEpoch
          ⟨answers.allocs, start, finish⟩).1 ∧
      dataReceived (dispatched r ind answers start finish) =
        (dsapDataRxFragIndicationHandler r.handlers.receiver (fragPayload ind) ind.timestampMsEpoch
          ⟨answers.allocs, start, finish⟩).2.map receivedOf := by
  rw [dispatched, Indications.dispatchIndication, show Indications.Primitive.ofId (ind.frame 0) = _ from h]
  refine ⟨rfl, ?_⟩
  simp only [Indications.handlePrimitive, dataReceived, fragPayload, Store.current]
  cases (dsapDataRxFragIndicationHandler r.handlers.receiver
    (Indications.dsapDataRxFragIndicationPayload ind.frame) ind.timestampMsEpoch
      ⟨answers.allocs, start, finish⟩).2 with
  | none => rfl
  | some data => rfl

theorem dispatched_other (h : ¬ IsFragment ind) :
    (dispatched r ind answers start finish).handlers.receiver = r.handlers.receiver := by
  unfold IsFragment at h
  rw [dispatched, Indications.dispatchIndication]
  cases hId : Indications.Primitive.ofId (ind.frame 0) with
  | none => rfl
  | some primitive =>
    cases primitive with
    | dsapDataRxFrag => exact absurd hId h
    | _ => rfl

end Handled

/-- Of all effects, the receiver knows only its own. -/
theorem serve_receiver (effect : Served ν) :
    (serve (services env) r effect).handlers.receiver =
      ((rxEvent effect).map fun e => (respond r.handlers.receiver e).1).getD r.handlers.receiver := by
  cases effect with
  | handle ind answers start finish =>
    change (dispatched r ind answers start finish).handlers.receiver = _
    by_cases h : IsFragment ind
    · rw [(dispatched_fragment h).1, rxEvent_fragment h]
      rfl
    · rw [dispatched_other h, rxEvent_other h]
      rfl
  | collect now => rfl
  | configure setting => cases setting <;> rfl

/-- What the fragments of a packet lead to. -/
def deliveriesOf (env : Environment ν) (key : PacketKey) (r : Store ν) :
    List (Served ν) → List (Gateway × Occasion × Received)
  | [] => []
  | effect :: effects =>
    (if effect.ind.any (isFragmentOf key) then (delivery r effect).toList else []) ++
      deliveriesOf env key (serve (services env) r effect) effects

theorem deliveriesOf_sublist (effects : List (Served ν)) :
    (deliveriesOf env key r effects).Sublist (deliveries env r effects) := by
  induction effects generalizing r with
  | nil => exact List.Sublist.refl _
  | cons effect effects ih =>
    rw [deliveriesOf, deliveries]
    refine List.Sublist.append ?_ ih
    split
    · exact List.Sublist.refl _
    · exact List.nil_sublist _

theorem packets_deliveriesOf (effects : List (Served ν)) :
    (deliveriesOf env key r effects).map (·.2.2) =
      ((answersTo respond (IsFor key) r.handlers.receiver (effects.filterMap rxEvent)).filterMap id).map
        receivedOf := by
  induction effects generalizing r with
  | nil => rfl
  | cons effect effects ih =>
    have hReceiver : (serve (services env) r effect).handlers.receiver = _ := serve_receiver effect
    rw [deliveriesOf, List.map_append, ih, hReceiver]
    cases effect with
    | handle ind answers start finish =>
      by_cases h : IsFragment ind
      · rw [List.filterMap_cons_some (rxEvent_fragment h), answersTo, rxEvent_fragment h]
        simp only [Effect.ind, Option.any_some, isFragmentOf_fragment h, IsFor, delivery, (dispatched_fragment h).2, respond,
          Option.map_some, Option.getD_some]
        by_cases hKey : (fragPayload ind).key = key
        · simp only [hKey, decide_true, if_true]
          cases (dsapDataRxFragIndicationHandler r.handlers.receiver (fragPayload ind) ind.timestampMsEpoch
            ⟨answers.allocs, start, finish⟩).2 with
          | none => rfl
          | some data => rfl
        · simp [hKey]
      · rw [List.filterMap_cons_none (rxEvent_other h), rxEvent_other h]
        simp [Effect.ind, isFragmentOf_other h]
    | collect now => rfl
    | configure setting => cases setting <;> rfl

theorem fragsFor_effects (effects : List (Served ν)) :
    fragsFor key (effects.filterMap rxEvent) =
      ((handledInds effects).filter (isFragmentOf key)).map fun ind => (fragPayload ind).frag := by
  induction effects with
  | nil => rfl
  | cons effect effects ih =>
    cases effect with
    | handle ind answers start finish =>
      have hInds : handledInds (.handle ind answers start finish :: effects) = ind :: handledInds effects := rfl
      rw [hInds]
      by_cases h : IsFragment ind
      · rw [List.filterMap_cons_some (rxEvent_fragment h), fragsFor, ih, List.filter_cons]
        simp only [isFragmentOf_fragment h, decide_eq_true_eq]
        split
        · rfl
        · rfl
      · rw [List.filterMap_cons_none (rxEvent_other h), ih, List.filter_cons]
        simp [isFragmentOf_other h]
    | collect now => exact ih
    | configure setting =>
      cases setting with
      | others world => exact ih
      | _ => exact ih

end Receiving

theorem received_of_handler {s : Receiver} {payload : DsapDataRxFragIndPl} {timestampMsEpoch : Nat} {env : Env}
    {call : DataReceived} (h : (dsapDataRxFragIndicationHandler s payload timestampMsEpoch env).2 = some call) :
    ∃ cb bytes, call = received cb payload timestampMsEpoch bytes := by
  rw [handler_call] at h
  by_cases hCompletes : Completes s payload env
  · obtain ⟨packets, -, -, hTake⟩ := takeFragment_of_completes timestampMsEpoch hCompletes
    rw [hTake] at h
    split at h
    all_goals
      rw [handOver_call] at h
      obtain ⟨cb, -, rfl⟩ := Option.map_eq_some_iff.mp h
      exact ⟨cb, _, rfl⟩
  · obtain ⟨packets, -, hTake⟩ := takeFragment_of_not_completes timestampMsEpoch hCompletes
    rw [hTake] at h
    cases h

/-- A callback has the addresses of the fragment with which it comes. -/
theorem received_of_answersTo {s : Receiver} {key : PacketKey} {events : List Dsap.RxEvent} {call : DataReceived}
    (h : some call ∈ answersTo respond (IsFor key) s events) :
    ∃ payload timestampMsEpoch env cb bytes, .fragIndication payload timestampMsEpoch env ∈ events ∧
      payload.key = key ∧ call = received cb payload timestampMsEpoch bytes := by
  obtain ⟨e, hEvent, t, hFor, hCall⟩ := mem_answersTo h
  cases e with
  | fragIndication payload timestampMsEpoch env =>
    obtain ⟨cb, bytes, hReceived⟩ := received_of_handler hCall
    exact ⟨payload, timestampMsEpoch, env, cb, bytes, hEvent, of_decide_eq_true hFor, hReceived⟩
  | _ => cases hFor

/-- The step leaves the callback for data registered as it is, and has memory for fragments. -/
def LeavesCallback {ν : Type} : Event (Memory UInt8) Answers (Setting ν) → Prop
  | .handle outcomes _ _ => outcomes.allocs = .all
  | .configure (.registerForData _) | .configure .unregisterForData => False
  | _ => True

instance {ν : Type} : (e : Event (Memory UInt8) Answers (Setting ν)) → Decidable (LeavesCallback e)
  | .handle outcomes _ _ => inferInstanceAs (Decidable (outcomes.allocs = .all))
  | .configure (.registerForData _) | .configure .unregisterForData => .isFalse id
  | .configure (.setMaxFragmentDuration _) | .configure (.others _) => .isTrue trivial
  | .poll | .pollAnswer _ | .indicate _ _ _ | .indicationError | .dispatch | .wakeUp _ | .timeoutReached _
  | .close _ | .lockRequest _ | .unlockRequest _ | .joinedPoller | .joinedDispatcher
  | .disablePollRequest _ | .setTimeoutNoAnswer _ => .isTrue trivial

theorem effects_ordinary {ν : Type} {s : State (Memory UInt8) (Store ν)}
    {e : Event (Memory UInt8) Answers (Setting ν)} (h : LeavesCallback e) :
    ∀ effect ∈ s.effects e, ∀ x, rxEvent effect = some x → Ordinary x := by
  intro effect hEffect x hEvent
  cases e with
  | handle outcomes start finish =>
    obtain rfl := List.mem_singleton.mp hEffect
    obtain ⟨-, hEvent⟩ := Option.ite_none_right_eq_some.mp hEvent
    cases hEvent
    exact h
  | wakeUp now =>
    obtain rfl := List.mem_singleton.mp hEffect
    cases hEvent
    trivial
  | configure setting =>
    obtain rfl := List.mem_singleton.mp hEffect
    cases setting with
    | registerForData cb => exact absurd h id
    | unregisterForData => exact absurd h id
    | setMaxFragmentDuration d =>
      cases hEvent
      trivial
    | others world => cases hEvent
  | _ => cases hEffect

/-- The packet that was asked for, as another gateway gets it from the sending node. -/
structure SentAs (req : SendPacketReq) (src : UInt32) (packet : Received) : Prop where
  bytes : packet.bytes = req.payload
  srcAddr : packet.srcAddr = src
  dstAddr : packet.dstAddr = req.destinationAddress
  srcEp : packet.srcEp.toUInt32 = req.sourceEndpoint
  dstEp : packet.dstEp.toUInt32 = req.destinationEndpoint
  qos : packet.qos = if req.qos &&& 0xff = appQosHigh then 1 else 0

theorem appQosValue_appQos {qosHopCount : UInt8} {c : Prop} [Decidable c]
    (h : qosHopCount &&& 0x01 = if c then 1 else 0) :
    appQosValue (appQos qosHopCount) = if c then 1 else 0 := by
  rw [appQos, h]
  split
  · rfl
  · rfl

theorem toUInt32_toUInt8_of_le {v : UInt32} (h : v ≤ 0xff) : v.toUInt8.toUInt32 = v := by
  have hLe : v.toNat ≤ 255 := h
  apply UInt32.toNat_inj.mp
  rw [UInt8.toNat_toUInt32, UInt32.toNat_toUInt8]
  omega

/-- What comes out of the fragments has the addresses of the request. -/
theorem sentAs_of_found {req : SendPacketReq} {src : UInt32} {mtu i : Nat} {pId : UInt16}
    {ind : TimestampedFrame (Memory UInt8)} {cb : OnDataReceivedCb} {timestampMsEpoch : Nat} {bytes : List UInt8}
    (hEndpoints : req.sourceEndpoint ≤ 0xff ∧ req.destinationEndpoint ≤ 0xff)
    (hBrings : Brings src (fragRequest mtu req.dataTx pId i) ind) (hBytes : bytes = req.payload) :
    SentAs req src (receivedOf (received cb (fragPayload ind) timestampMsEpoch bytes)) := by
  obtain ⟨p, hPayload, hFound⟩ := hBrings.found
  cases hPayload
  constructor
  case bytes => exact hBytes
  case srcAddr => exact hFound.srcAdd
  case dstAddr => exact hFound.destAdd
  case srcEp =>
    exact (congrArg UInt8.toUInt32 hFound.srcEndpoint).trans (toUInt32_toUInt8_of_le hEndpoints.1)
  case dstEp =>
    exact (congrArg UInt8.toUInt32 hFound.destEndpoint).trans (toUInt32_toUInt8_of_le hEndpoints.2)
  case qos => exact appQosValue_appQos hFound.qos

theorem filterMap_fragFrom {src : UInt32} {order : List TxRequest} {inds : List (TimestampedFrame (Memory UInt8))}
    (h : List.Forall₂ (Brings src) order inds) :
    order.filterMap (·.fragFrom src) = inds.map fun ind => (fragPayload ind).frag := by
  induction h with
  | nil => rfl
  | cons hBrings hRest ih => rw [List.filterMap_cons_some hBrings.fragFrom, ih, List.map_cons]

theorem exists_brings {src : UInt32} {order : List TxRequest} {inds : List (TimestampedFrame (Memory UInt8))}
    {ind : TimestampedFrame (Memory UInt8)} (h : List.Forall₂ (Brings src) order inds) (hInd : ind ∈ inds) :
    ∃ request ∈ order, Brings src request ind := by
  induction h with
  | nil => cases hInd
  | cons hBrings hRest ih =>
    rcases List.mem_cons.mp hInd with rfl | hTail
    · exact ⟨_, List.mem_cons_self, hBrings⟩
    · obtain ⟨request, hRequest, hOne⟩ := ih hTail
      exact ⟨request, List.mem_cons_of_mem _ hRequest, hOne⟩

/-- The indication of a fragment that the receiver gets is one of those handled. -/
theorem mem_handledInds {ν : Type} {key : PacketKey} {effects : List (Served ν)} {payload : DsapDataRxFragIndPl}
    {timestampMsEpoch : Nat} {env : Env}
    (hEvent : .fragIndication payload timestampMsEpoch env ∈ effects.filterMap rxEvent)
    (hKey : payload.key = key) :
    ∃ ind ∈ (handledInds effects).filter (isFragmentOf key), payload = fragPayload ind := by
  obtain ⟨effect, hEffect, hSome⟩ := List.mem_filterMap.mp hEvent
  cases effect with
  | handle ind answers start finish =>
    obtain ⟨hFragment, hSame⟩ := Option.ite_none_right_eq_some.mp hSome
    cases hSame
    refine ⟨ind, ?_, rfl⟩
    rw [List.mem_filter, isFragmentOf_fragment hFragment]
    exact ⟨List.mem_filterMap.mpr ⟨_, hEffect, rfl⟩, decide_eq_true hKey⟩
  | collect now => cases hSome
  | configure setting => cases setting <;> cases hSome

section Delivered

variable {ν : Type} {env : Environment ν} {r : Store ν} {key : PacketKey} {src : UInt32} {req : SendPacketReq}
  {mtu : Nat} {pId : UInt16}

/-- All fragments of the packet, each handled once and in any order, lead to one delivery. -/
theorem fragments_delivered {effects : List (Served ν)} {order : List TxRequest} (hMtu : 0 < mtu)
    (hLen : 0 < req.payload.length) (hSize : req.payload.length ≤ maxFullPacketSize)
    (hEndpoints : req.sourceEndpoint ≤ 0xff ∧ req.destinationEndpoint ≤ 0xff)
    (hCb : r.handlers.receiver.dataCb.isSome)
    (hNothing : getPacketFromHash r.handlers.receiver.reassembly.packets key = none)
    (hPerm : order.Perm ((List.range (fragments mtu req.payload.length)).map (fragRequest mtu req.dataTx pId)))
    (hBrings : List.Forall₂ (Brings src) order ((handledInds effects).filter (isFragmentOf key)))
    (hOrdinary : ∀ e ∈ effects.filterMap rxEvent, Ordinary e)
    (hKeeps : Meets Dsap.step (KeepsPacket key) r.handlers.receiver (effects.filterMap rxEvent)) :
    ∃ gateway occasion packet, SentAs req src packet ∧
      deliveriesOf env key r effects = [(gateway, occasion, packet)] := by
  have hSent : ((List.range (fragments mtu req.payload.length)).map (fragRequest mtu req.dataTx pId)).filterMap
      (·.fragFrom src) = (List.range (fragments mtu req.payload.length)).map
        (chunkFragment src pId mtu req.payload) := by
    rw [List.filterMap_map, ← List.filterMap_eq_map]
    refine List.filterMap_congr fun i hi => ?_
    exact fragFrom_fragRequest src pId hMtu hLen hSize (List.mem_range.mp hi)
  have hSplits : Splits req.payload (fragsFor key (effects.filterMap rxEvent)) := by
    have hChunks : Splits req.dataTx.buffer ((List.range (fragments mtu req.payload.length)).map
      (chunkFragment src pId mtu req.payload)) := splits_chunks src pId hMtu hLen
    refine hChunks.perm ?_
    rw [fragsFor_effects, ← filterMap_fragFrom hBrings]
    exact (hSent ▸ hPerm.filterMap _).symm
  have hSome : fragsFor key (effects.filterMap rxEvent) ≠ [] := by
    intro hNil
    obtain ⟨f, hf, -⟩ := hSplits.has_last
    rw [hNil] at hf
    cases hf
  have hAwaits : Awaits r.handlers.receiver key req.payload [] := by
    rw [Awaits, target, hNothing]
    exact holds_nil _
  obtain ⟨cb, hCb⟩ := Option.isSome_iff_exists.mp hCb
  obtain ⟨call, hCalls, -, -, hBytes⟩ := run_delivers hOrdinary hKeeps hCb (List.ne_nil_of_length_pos hLen) hSize
    hAwaits hSplits hSome
  have hPackets : (deliveriesOf env key r effects).map (·.2.2) = _ := packets_deliveriesOf effects
  rw [hCalls, List.filterMap_append, List.filterMap_replicate_of_none rfl] at hPackets
  obtain ⟨x, hOne, hPacket⟩ := List.map_eq_singleton_iff.mp hPackets
  refine ⟨x.1, x.2.1, x.2.2, ?_, hOne⟩
  obtain ⟨payload, timestampMsEpoch, env, cb', bytes, hEvent, hKey, rfl⟩ := received_of_answersTo
    (show some call ∈ answersTo respond (IsFor key) r.handlers.receiver (effects.filterMap rxEvent) by
      rw [hCalls]
      exact List.mem_append_right _ (List.mem_singleton.mpr rfl))
  obtain ⟨ind, hInd, rfl⟩ := mem_handledInds hEvent hKey
  obtain ⟨request, hRequest, hOneBrings⟩ := exists_brings hBrings hInd
  obtain ⟨i, -, rfl⟩ := List.mem_map.mp (hPerm.mem_iff.mp hRequest)
  rw [hPacket]
  exact sentAs_of_found hEndpoints hOneBrings hBytes

end Delivered

/-- A request to send a long packet that is answered without an error has requested its fragments of
the node. If these then come, each once, in any order and among frames that are not taken for fragments
of this packet, into the queue of another gateway that has none of them yet, the threads there hand
the packet on once, and the event that it leads to is read as the packet that was asked for. -/
theorem sent_packet_published {σ ν : Type} {sending : Environment σ} {send : UInt8 → DataTx → σ → Int × σ}
    {sender : σ → Sender} {answer : σ → Nat → Dsap.Answer} {requests : σ → List TxRequest}
    {req : SendPacketReq} {memory resp : Raw.SendPacketResp} {w t : World Gateway σ} {res : AppProtoRes}
    {sent : List TxRequest} {src : UInt32} {env : Environment ν} {reads : RoomReads} {r : Store ν} {clock : Nat}
    {events : List (Event (Memory UInt8) Answers (Setting ν))} {s : State (Memory UInt8) (Store ν)}
    (hSends : SendsBy sending send sender answer requests) (hMtu : w.statics.wpcIntGetMtu ≠ 0)
    (hLong : w.statics.wpcIntGetMtu.toNat < req.payload.length)
    (hReturns : Returns (protoDataHandleSendData sending send req memory) w (res, resp) t)
    (hOk : resp.header.res = ErrorCode.ok.value) (hSent : requests t.node = requests w.node ++ sent)
    (hFirst : r.published = []) (hCb : r.handlers.receiver.dataCb.isSome)
    (hNothing : getPacketFromHash r.handlers.receiver.reassembly.packets (sentKey src (sender w.node)) = none)
    (hRun : run (State.step (services env) reads) (State.init r clock) events = some s)
    (hLeaves : ∀ e ∈ events, LeavesCallback e) (hAll : s.handledCount = s.indications.inserted.length)
    (hArrives : ∃ order, order.Perm sent ∧ List.Forall₂ (Brings src) order
      (s.indications.inserted.filter (isFragmentOf (sentKey src (sender w.node)))))
    (hKeeps : Meets Dsap.step (KeepsPacket (sentKey src (sender w.node))) r.handlers.receiver
      ((served env reads r clock events).filterMap rxEvent)) :
    sent = (List.range (fragments w.statics.wpcIntGetMtu.toNat req.payload.length)).map
        (fragRequest w.statics.wpcIntGetMtu.toNat req.dataTx ((sender w.node).packetId &&& 0xfff)) ∧
    ∃ gateway occasion packet, SentAs req src packet ∧
      deliveriesOf env (sentKey src (sender w.node)) r (served env reads r clock events) =
        [(gateway, occasion, packet)] ∧
      ((event (gateway, occasion, packet)).isSome → some (published gateway occasion packet) ∈
        s.receiver.published.map fun e => readPacketReceivedEvent e.encoded) := by
  obtain ⟨hEndpoints, hSize, hRequests⟩ := requests_of_ok hSends hMtu hLong hReturns hOk
  obtain rfl := List.append_cancel_left (hSent.symm.trans hRequests)
  obtain ⟨order, hPerm, hBrings⟩ := hArrives
  have hServes := State.serves_run (State.serves_init (services env) r clock) hRun
  rw [List.nil_append] at hServes
  rw [← hServes.all hAll] at hBrings
  have hOrdinary : ∀ e ∈ (served env reads r clock events).filterMap rxEvent, Ordinary e := by
    intro e he
    obtain ⟨effect, hEffect, hSome⟩ := List.mem_filterMap.mp he
    exact forall_mem_journal (fun u f hf => effects_ordinary (hLeaves f hf)) effect hEffect e hSome
  have hMtuPos : 0 < w.statics.wpcIntGetMtu.toNat :=
    Nat.pos_of_ne_zero fun hZero => hMtu (UInt8.toNat_inj.mp hZero)
  obtain ⟨gateway, occasion, packet, hSentAs, hOne⟩ : ∃ gateway occasion packet, SentAs req src packet ∧
      deliveriesOf env (sentKey src (sender w.node)) r (served env reads r clock events) =
        [(gateway, occasion, packet)] :=
    fragments_delivered hMtuPos (by omega) hSize hEndpoints hCb hNothing hPerm hBrings hOrdinary hKeeps
  refine ⟨rfl, gateway, occasion, packet, hSentAs, hOne, fun hEvent => ?_⟩
  have hMem : (gateway, occasion, packet) ∈ deliveries env r (served env reads r clock events) :=
    (deliveriesOf_sublist _).subset (by rw [hOne]; exact List.mem_singleton.mpr rfl)
  rw [hServes.receiver, serveAll_published, hFirst, List.nil_append, events_read]
  exact List.mem_map.mpr ⟨_, List.mem_filter.mpr ⟨hMem, hEvent⟩, rfl⟩

structure SendingNode where
  sender : Sender
  requests : List TxRequest

/-- Each request is confirmed. -/
def confirmedSend (mtu : UInt8) (tx : DataTx) (n : SendingNode) : Int × SendingNode :=
  match dsapDataTxRequest mtu n.sender tx fun _ => ⟨0, 0⟩ with
  | some (sender, sent, result) => (result, ⟨sender, n.requests ++ sent⟩)
  | none => (0, n)

def sendingEnvironment : Environment SendingNode where
  request _ n := (-1, n)
  attributeRead _ _ n := ((-1, []), n)
  appConfigDataRead n := ((-1, ⟨0, 0, []⟩), n)
  scratchpadStatus n := ((-1, ⟨0, 0, 0, 0, 0, 0, 0, 0, 0⟩), n)
  scratchpadTargetRead n := ((-1, ⟨0, 0, 0, 0⟩), n)
  timestampMsMonotonic n := (0, n)
  timestampMsEpoch n := (0, n)
  malloc n := (true, n)
  rand n := (0, n)
  rounds := 1

theorem sendsBy_confirmedSend :
    SendsBy sendingEnvironment confirmedSend SendingNode.sender (fun _ _ => ⟨0, 0⟩) SendingNode.requests where
  calls mtu tx n hMtu := by
    cases hCall : dsapDataTxRequest mtu n.sender tx fun _ => ⟨0, 0⟩ with
    | none =>
      simp only [dsapDataTxRequest, Option.map_eq_none_iff, transmit, hMtu, if_false] at hCall
      repeat' split at hCall
      all_goals cases hCall
    | some result =>
      refine ⟨result.2.1, ?_⟩
      simp only [confirmedSend, hCall]
      exact ⟨trivial, trivial⟩
  clock _ := rfl

def sendThree : SendPacketReq := ⟨⟨1⟩, 9, 4, 5, 1, [10, 20, 30]⟩

def sendingWorld : World Gateway SendingNode :=
  ⟨⟨60, 2⟩, Gateway.initialized .zero, ⟨⟨0x1fff, .init⟩, []⟩⟩

def someResponse : Raw.SendPacketResp := ⟨zeroHeader⟩

/-- The fragment of the request, in a slot that another frame has left. -/
def fragmentSlot (i : Nat) : Memory UInt8 :=
  match (fragRequest 2 sendThree.dataTx 0xfff i).payload with
  | .frag p => Wpc.Indications.onIndicationReceivedLocked (fun _ => 0xEE)
      (Wpc.Indications.slipCopy (fun _ => 0xDD) (fragFrame 7 p 9 128 3 0))
  | .tt _ => fun _ => 0

/-- The last fragment comes first, and a data frame between the two. -/
def threePolled : List (Event (Memory UInt8) Answers (Setting Unit)) :=
  List.replicate 7 .poll ++
    [.pollAnswer .pending, .indicate (fragmentSlot 1) 100 1, .indicate oneFrame 101 1, .dispatch,
      .handle ⟨.all, ⟨true, true, 5, 6, 7⟩⟩ 10 10, .indicate (fragmentSlot 0) 102 0, .dispatch,
      .dispatch, .handle ⟨.all, ⟨true, true, 5, 6, 7⟩⟩ 10 10, .dispatch, .dispatch,
      .handle ⟨.all, ⟨true, true, 5, 6, 8⟩⟩ 11 11]

theorem brings_fragmentSlot (i : Nat) (hi : i < 2) (timestampMsEpoch : Nat) :
    Brings 7 (fragRequest 2 sendThree.dataTx 0xfff i) ⟨fragmentSlot i, timestampMsEpoch⟩ := by
  refine ⟨_, 9, 128, 3, 0, fun _ => 0xEE, fun _ => 0xDD, rfl, ?_, rfl, rfl⟩
  obtain rfl | rfl : i = 0 ∨ i = 1 := by omega
  · decide
  · decide

theorem takeFragment_fragmentMaxDurationS (s : Receiver) (payload : DsapDataRxFragIndPl) (timestampMsEpoch : Nat)
    (env : Env) : (takeFragment s payload timestampMsEpoch env).1.reassembly.fragmentMaxDurationS =
      s.reassembly.fragmentMaxDurationS := by
  have hAdd := addFragment_fragmentMaxDurationS s.reassembly payload.frag env.allocs env.addedAt
  unfold takeFragment
  dsimp only
  split
  · rw [handOver_reassembly, getFullMessage_fragmentMaxDurationS, hAdd]
  · exact hAdd

/-- Without a maximum duration nothing is collected. -/
theorem keepsPacket_of_zero {s : Receiver} {key : PacketKey} {e : Dsap.RxEvent}
    (h : s.reassembly.fragmentMaxDurationS = 0) : KeepsPacket key s e := by
  have hNot {t : Reassembly.State} {now : Nat} (hZero : t.fragmentMaxDurationS = 0) : ¬ Collects t now := by
    rintro ⟨hPos, -⟩
    rw [hZero] at hPos
    exact absurd hPos (by decide)
  cases e with
  | fragIndication payload timestampMsEpoch env =>
    exact fun hCollects => absurd hCollects (hNot ((takeFragment_fragmentMaxDurationS ..).trans h))
  | collect now => exact fun hCollects => absurd hCollects (hNot h)
  | _ => trivial

theorem filter_threeInserted :
    [⟨fragmentSlot 1, 100⟩, ⟨oneFrame, 101⟩, ⟨fragmentSlot 0, 102⟩].filter
        (isFragmentOf (sentKey 7 sendingWorld.node.sender)) = [⟨fragmentSlot 1, 100⟩, ⟨fragmentSlot 0, 102⟩] := by
  have hFirst : isFragmentOf (sentKey 7 sendingWorld.node.sender) ⟨fragmentSlot 1, 100⟩ = true := by decide
  have hSecond : isFragmentOf (sentKey 7 sendingWorld.node.sender) ⟨oneFrame, 101⟩ = false := by decide
  have hThird : isFragmentOf (sentKey 7 sendingWorld.node.sender) ⟨fragmentSlot 0, 102⟩ = true := by decide
  rw [List.filter_cons_of_pos hFirst, List.filter_cons_of_neg (by rw [hSecond]; decide),
    List.filter_cons_of_pos hThird, List.filter_nil]

theorem sent_packet_published_three :
    ∃ resp t s, Returns (protoDataHandleSendData sendingEnvironment confirmedSend sendThree someResponse)
        sendingWorld (.ok, resp) t ∧
      run (State.step (services silentNode) .again) (State.init registered 0) threePolled = some s ∧
      [fragRequest 2 sendThree.dataTx 0xfff 0, fragRequest 2 sendThree.dataTx 0xfff 1] =
        (List.range (fragments sendingWorld.statics.wpcIntGetMtu.toNat sendThree.payload.length)).map
          (fragRequest sendingWorld.statics.wpcIntGetMtu.toNat sendThree.dataTx
            (sendingWorld.node.sender.packetId &&& 0xfff)) ∧
      ∃ gateway occasion packet, SentAs sendThree 7 packet ∧
        deliveriesOf silentNode (sentKey 7 sendingWorld.node.sender) registered
          (served silentNode .again registered 0 threePolled) = [(gateway, occasion, packet)] ∧
        ((event (gateway, occasion, packet)).isSome → some (published gateway occasion packet) ∈
          s.receiver.published.map fun e => readPacketReceivedEvent e.encoded) := by
  obtain ⟨resp, t, hReturns, hOk, hSent⟩ : ∃ resp t,
      Returns (protoDataHandleSendData sendingEnvironment confirmedSend sendThree someResponse) sendingWorld
        (.ok, resp) t ∧ resp.header.res = ErrorCode.ok.value ∧ t.node.requests = sendingWorld.node.requests ++
          [fragRequest 2 sendThree.dataTx 0xfff 0, fragRequest 2 sendThree.dataTx 0xfff 1] :=
    ⟨_, _, rfl, rfl, rfl⟩
  obtain ⟨s, hRun, hInserted, hAll⟩ : ∃ s,
      run (State.step (services silentNode) .again) (State.init registered 0) threePolled = some s ∧
        s.indications.inserted = [⟨fragmentSlot 1, 100⟩, ⟨oneFrame, 101⟩, ⟨fragmentSlot 0, 102⟩] ∧
        s.handledCount = s.indications.inserted.length := ⟨_, rfl, rfl, rfl⟩
  refine ⟨resp, t, s, hReturns, hRun, ?_⟩
  refine sent_packet_published sendsBy_confirmedSend (by decide) (by decide) hReturns hOk hSent rfl rfl rfl hRun
    (by decide) hAll ?_ ⟨keepsPacket_of_zero rfl, keepsPacket_of_zero rfl, trivial⟩
  refine ⟨_, List.Perm.swap _ _ [], ?_⟩
  rw [hInserted, filter_threeInserted]
  exact .cons (brings_fragmentSlot 1 (by decide) 100) (.cons (brings_fragmentSlot 0 (by decide) 102) .nil)

end Pipeline

end CMeshApi.Proto
