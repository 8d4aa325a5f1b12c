import CMeshApi.Reassembly.Store
import CMeshApi.Util
import CMeshApi.WpcConstants

/-!
# Receiving fragments

The receiving half of `dsap.c`, built without `REGISTER_DATA_PER_ENDPOINT`: the
registered data callback, the buffer that every message is reassembled in, and
the handler of fragment indications. A run also holds the registrations and the
collections that the dispatch thread makes between two indications.
-/

namespace CMeshApi.Dsap

open Reassembly

inductive AppQos where
  | normal
  | high
deriving DecidableEq, Repr

/-- The address of a function that the application registered. -/
abbrev OnDataReceivedCb := Nat

/-- What a data callback is called with. -/
structure DataReceived where
  cb : OnDataReceivedCb
  bytes : List UInt8
  srcAdd : UInt32
  destAdd : UInt32
  qos : AppQos
  srcEndpoint : UInt8
  destEndpoint : UInt8
  travelTime : UInt32
  hopCount : UInt8
  timestampMsEpoch : Nat
deriving DecidableEq, Repr

/-- `dsap_data_rx_frag_ind_pl_t`. -/
structure DsapDataRxFragIndPl where
  indicationStatus : UInt8
  srcAdd : UInt32
  srcEndpoint : UInt8
  destAdd : UInt32
  destEndpoint : UInt8
  qosHopCount : UInt8
  travelTime : UInt32
  fullPacketId : BitVec 12
  fragmentOffsetFlag : UInt16
  apduLength : UInt8
  apdu : Memory UInt8

namespace DsapDataRxFragIndPl

def packetId (payload : DsapDataRxFragIndPl) : UInt16 := ⟨payload.fullPacketId.setWidth 16⟩

def key (payload : DsapDataRxFragIndPl) : PacketKey := ⟨payload.srcAdd, payload.packetId⟩

/-- The fragment as it is handed to the store. -/
def frag (payload : DsapDataRxFragIndPl) : ReassemblyFragment where
  srcAdd := payload.srcAdd
  packetId := payload.packetId
  offset := (payload.fragmentOffsetFlag &&& dsapFragLengthMask).toNat
  lastFragment := payload.fragmentOffsetFlag &&& dsapFragLastFlagMask == dsapFragLastFlagMask
  bytes := payload.apdu.read 0 payload.apduLength.toNat

@[simp] theorem key_frag (payload : DsapDataRxFragIndPl) : payload.frag.key = payload.key := rfl

end DsapDataRxFragIndPl

/-- The static variables of the receiving half. -/
structure Receiver where
  reassembly : Reassembly.State
  reassemblyBuffer : Memory UInt8
  dataCb : Option OnDataReceivedCb

/-- What a call of the handler gets from the platform: its allocations, and the clock when
the fragment is stored and when the store is collected. -/
structure Env where
  allocs : Allocs
  addedAt : Nat
  collectedAt : Nat
deriving DecidableEq, Repr

def appQos (qosHopCount : UInt8) : AppQos := if qosHopCount &&& 0x01 ≠ 0 then .high else .normal

def received (cb : OnDataReceivedCb) (payload : DsapDataRxFragIndPl) (timestampMsEpoch : Nat)
    (bytes : List UInt8) : DataReceived where
  cb := cb
  bytes := bytes
  srcAdd := payload.srcAdd
  destAdd := payload.destAdd
  qos := appQos payload.qosHopCount
  srcEndpoint := payload.srcEndpoint
  destEndpoint := payload.destEndpoint
  travelTime := internalTimeToMs payload.travelTime
  hopCount := payload.qosHopCount >>> 2
  timestampMsEpoch := timestampMsEpoch

/-- The retrieved message goes to the callback; so does what is left in the buffer and in the
size when the retrieval failed, which is only logged. -/
def handOver (s : Receiver) (payload : DsapDataRxFragIndPl) (timestampMsEpoch : Nat)
    (reassembly : Reassembly.State) (message : FullMessage) :
    Receiver × Option DataReceived × Bool :=
  let t := { s with reassembly, reassemblyBuffer := message.buffer }
  match s.dataCb with
  | none => (t, none, false)
  | some cb =>
    (t, some (received cb payload timestampMsEpoch (message.buffer.read 0 message.size)), true)

/-- The handler up to the collection, with whether it is reached: not when a full message
meets no callback. -/
def takeFragment (s : Receiver) (payload : DsapDataRxFragIndPl) (timestampMsEpoch : Nat)
    (env : Env) : Receiver × Option DataReceived × Bool :=
  match reassemblyAddFragment s.reassembly payload.frag env.allocs env.addedAt with
  | (reassembly, added, fullSize) =>
    if added = true ∧ fullSize ≠ 0 then
      match reassemblyGetFullMessage reassembly payload.key s.reassemblyBuffer
        maxFullPacketSize with
      | (reassembly, message) => handOver s payload timestampMsEpoch reassembly message
    else ({ s with reassembly }, none, true)

def collect (s : Receiver) (now : Nat) : Receiver :=
  { s with reassembly := reassemblyGarbageCollect s.reassembly now }

/-- The handler's effect, and the call of the data callback it makes. -/
def dsapDataRxFragIndicationHandler (s : Receiver) (payload : DsapDataRxFragIndPl)
    (timestampMsEpoch : Nat) (env : Env) : Receiver × Option DataReceived :=
  match takeFragment s payload timestampMsEpoch env with
  | (t, call, true) => (collect t env.collectedAt, call)
  | (t, call, false) => (t, call)

def dsapRegisterForData (s : Receiver) (cb : OnDataReceivedCb) : Receiver :=
  { s with dataCb := some cb }

def dsapUnregisterForData (s : Receiver) : Receiver := { s with dataCb := none }

def dsapSetMaxFragmentDuration (s : Receiver) (fragmentMaxDurationS : UInt32) : Receiver :=
  { s with reassembly := setMaxFragmentDuration s.reassembly fragmentMaxDurationS }

inductive RxEvent where
  | fragIndication (payload : DsapDataRxFragIndPl) (timestampMsEpoch : Nat) (env : Env)
  | collect (now : Nat)
  | register (cb : OnDataReceivedCb)
  | unregister
  | setMaxFragmentDuration (fragmentMaxDurationS : UInt32)

def respond (s : Receiver) : RxEvent → Receiver × Option DataReceived
  | .fragIndication payload timestampMsEpoch env =>
    dsapDataRxFragIndicationHandler s payload timestampMsEpoch env
  | .collect now => (collect s now, none)
  | .register cb => (dsapRegisterForData s cb, none)
  | .unregister => (dsapUnregisterForData s, none)
  | .setMaxFragmentDuration d => (dsapSetMaxFragmentDuration s d, none)

def step (s : Receiver) (e : RxEvent) : Option Receiver := some (respond s e).1

theorem handler_call (s : Receiver) (payload : DsapDataRxFragIndPl) (timestampMsEpoch : Nat)
    (env : Env) :
    (dsapDataRxFragIndicationHandler s payload timestampMsEpoch env).2 =
      (takeFragment s payload timestampMsEpoch env).2.1 := by
  unfold dsapDataRxFragIndicationHandler
  split <;> next h => rw [h]

theorem handOver_call (s : Receiver) (payload : DsapDataRxFragIndPl) (timestampMsEpoch : Nat)
    (reassembly : Reassembly.State) (message : FullMessage) :
    (handOver s payload timestampMsEpoch reassembly message).2.1 = s.dataCb.map fun cb =>
      received cb payload timestampMsEpoch (message.buffer.read 0 message.size) := by
  unfold handOver
  cases s.dataCb with
  | none => rfl
  | some cb => rfl

theorem handOver_reassembly (s : Receiver) (payload : DsapDataRxFragIndPl)
    (timestampMsEpoch : Nat) (reassembly : Reassembly.State) (message : FullMessage) :
    (handOver s payload timestampMsEpoch reassembly message).1.reassembly = reassembly := by
  unfold handOver
  cases s.dataCb with
  | none => rfl
  | some cb => rfl

/-- The fragment is stored, and its packet counts as full then. -/
def Completes (s : Receiver) (payload : DsapDataRxFragIndPl) (env : Env) : Prop :=
  Stores s.reassembly payload.frag env.allocs ∧
    (grown s.reassembly payload.frag env.addedAt).isFull = true ∧
    (grown s.reassembly payload.frag env.addedAt).fullSize ≠ 0

instance (s : Receiver) (payload : DsapDataRxFragIndPl) (env : Env) :
    Decidable (Completes s payload env) := inferInstanceAs (Decidable (_ ∧ _))

structure Added (s : Receiver) (payload : DsapDataRxFragIndPl) (env : Env)
    (packets : List FullPacket) : Prop where
  same : Stores s.reassembly payload.frag env.allocs →
    getPacketFromHash packets payload.key = some (grown s.reassembly payload.frag env.addedAt)
  other : ∀ k, payload.key ≠ k →
    getPacketFromHash packets k = getPacketFromHash s.reassembly.packets k

theorem takeFragment_of_not_completes {s : Receiver} {payload : DsapDataRxFragIndPl} {env : Env}
    (timestampMsEpoch : Nat) (h : ¬ Completes s payload env) :
    ∃ packets, Added s payload env packets ∧
      takeFragment s payload timestampMsEpoch env =
        ({ s with reassembly := { s.reassembly with isQueueEmpty := false, packets } }, none,
          true) := by
  by_cases hStores : Stores s.reassembly payload.frag env.allocs
  · obtain ⟨packets, hAdd, hSame, hOther⟩ := addFragment_of_stores env.addedAt hStores
    refine ⟨packets, ⟨fun _ => hSame, hOther⟩, ?_⟩
    rw [takeFragment, hAdd]
    have hIncomplete := fun hFull hSize => h ⟨hStores, hFull, hSize⟩
    cases hFull : (grown s.reassembly payload.frag env.addedAt).isFull with
    | false => rfl
    | true =>
      have hZero := not_not.mp (hIncomplete hFull)
      simp [hZero]
  · obtain ⟨packets, hAdd, hOther⟩ := addFragment_of_not_stores env.addedAt hStores
    refine ⟨packets, ⟨fun hIs => absurd hIs hStores, hOther⟩, ?_⟩
    rw [takeFragment, hAdd]
    rfl

theorem takeFragment_of_completes {s : Receiver} {payload : DsapDataRxFragIndPl} {env : Env}
    (timestampMsEpoch : Nat) (h : Completes s payload env) :
    ∃ packets, Added s payload env packets ∧
      reassemblyAddFragment s.reassembly payload.frag env.allocs env.addedAt =
        ({ s.reassembly with isQueueEmpty := false, packets }, true,
          (grown s.reassembly payload.frag env.addedAt).fullSize) ∧
      takeFragment s payload timestampMsEpoch env =
        if maxFullPacketSize < (grown s.reassembly payload.frag env.addedAt).fullSize then
          handOver s payload timestampMsEpoch
            { s.reassembly with isQueueEmpty := false, packets }
            ⟨false, s.reassemblyBuffer, maxFullPacketSize⟩
        else
          handOver s payload timestampMsEpoch
            { s.reassembly with
              packets := deletePacket payload.key packets
              isQueueEmpty := (deletePacket payload.key packets).isEmpty }
            ⟨true, Segment.assemble s.reassemblyBuffer
                (grown s.reassembly payload.frag env.addedAt).head,
              (grown s.reassembly payload.frag env.addedAt).fullSize⟩ := by
  obtain ⟨hStores, hFull, hSize⟩ := h
  obtain ⟨packets, hAdd, hSame, hOther⟩ := addFragment_of_stores env.addedAt hStores
  rw [if_pos hFull] at hAdd
  refine ⟨packets, ⟨fun _ => hSame, hOther⟩, hAdd, ?_⟩
  rw [takeFragment, hAdd]
  simp only [hSize, ne_eq, not_false_eq_true, and_self, if_true]
  rw [getFullMessage_of_full hSame hFull]
  split <;> rfl

theorem takeFragment_other {s : Receiver} {payload : DsapDataRxFragIndPl} {timestampMsEpoch : Nat}
    {env : Env} {k : PacketKey} (h : payload.key ≠ k) :
    getPacketFromHash (takeFragment s payload timestampMsEpoch env).1.reassembly.packets k =
      getPacketFromHash s.reassembly.packets k := by
  by_cases hCompletes : Completes s payload env
  · obtain ⟨packets, hAdded, -, hTake⟩ := takeFragment_of_completes timestampMsEpoch hCompletes
    rw [hTake]
    split
    · rw [handOver_reassembly]
      exact hAdded.other k h
    · rw [handOver_reassembly]
      exact (get_deletePacket_other h).trans (hAdded.other k h)
  · obtain ⟨packets, hAdded, hTake⟩ := takeFragment_of_not_completes timestampMsEpoch hCompletes
    rw [hTake]
    exact hAdded.other k h

theorem takeFragment_dataCb (s : Receiver) (payload : DsapDataRxFragIndPl)
    (timestampMsEpoch : Nat) (env : Env) :
    (takeFragment s payload timestampMsEpoch env).1.dataCb = s.dataCb := by
  unfold takeFragment handOver
  split
  split
  · cases s.dataCb <;> rfl
  · rfl

/-- No collection in the step removes the packet of the key. -/
def KeepsPacket (key : PacketKey) (s : Receiver) : RxEvent → Prop
  | .fragIndication payload timestampMsEpoch env =>
    Keeps (takeFragment s payload timestampMsEpoch env).1.reassembly key env.collectedAt
  | .collect now => Keeps s.reassembly key now
  | _ => True

instance (key : PacketKey) (s : Receiver) (e : RxEvent) : Decidable (KeepsPacket key s e) := by
  cases e <;> unfold KeepsPacket <;> infer_instance

def IsFor (key : PacketKey) : RxEvent → Bool
  | .fragIndication payload _ _ => payload.key = key
  | _ => false

theorem handler_get {key : PacketKey} {s : Receiver} {payload : DsapDataRxFragIndPl}
    {timestampMsEpoch : Nat} {env : Env}
    (h : Keeps (takeFragment s payload timestampMsEpoch env).1.reassembly key env.collectedAt) :
    getPacketFromHash
        (dsapDataRxFragIndicationHandler s payload timestampMsEpoch env).1.reassembly.packets key =
      getPacketFromHash (takeFragment s payload timestampMsEpoch env).1.reassembly.packets key := by
  unfold dsapDataRxFragIndicationHandler
  split
  · next hTake =>
    rw [hTake] at h ⊢
    exact get_garbageCollect h
  · next hTake => rw [hTake]

theorem handler_dataCb (s : Receiver) (payload : DsapDataRxFragIndPl) (timestampMsEpoch : Nat)
    (env : Env) :
    (dsapDataRxFragIndicationHandler s payload timestampMsEpoch env).1.dataCb = s.dataCb := by
  rw [← takeFragment_dataCb s payload timestampMsEpoch env]
  unfold dsapDataRxFragIndicationHandler
  split
  · next hTake =>
    rw [hTake]
    rfl
  · next hTake => rw [hTake]

theorem respond_get {key : PacketKey} {s : Receiver} {e : RxEvent} (hKey : IsFor key e = false)
    (hKeeps : KeepsPacket key s e) :
    getPacketFromHash (respond s e).1.reassembly.packets key =
      getPacketFromHash s.reassembly.packets key := by
  cases e with
  | fragIndication payload timestampMsEpoch env =>
    exact (handler_get hKeeps).trans (takeFragment_other (of_decide_eq_false hKey))
  | collect now => exact get_garbageCollect hKeeps
  | register cb => rfl
  | unregister => rfl
  | setMaxFragmentDuration d => rfl

end CMeshApi.Dsap
