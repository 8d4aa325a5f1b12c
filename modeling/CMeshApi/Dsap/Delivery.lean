import CMeshApi.Dsap.Reception

/-!
# What the data callback is called with

The handler goes on to the callback when the retrieval of a full message failed:
this happens to a message that is full but larger than the reassembly buffer. A
message that is retrieved may lack bytes too. The sizes of its fragments add up,
but the fragments leave a gap, and there the buffer still holds an earlier message.
-/

namespace CMeshApi.Dsap

open Reassembly Machine Segment

/-- A call of the data callback comes from a fragment that was stored and completed its
packet. The packet was retrieved, all of it inside the reassembly buffer, and the call has its
size and the bytes of its fragments. -/
def DeliversRetrieved (s : Receiver) (payload : DsapDataRxFragIndPl) (timestampMsEpoch : Nat)
    (env : Env) : Prop :=
  let stored := reassemblyAddFragment s.reassembly payload.frag env.allocs env.addedAt
  let message :=
    (reassemblyGetFullMessage stored.1 payload.key s.reassemblyBuffer maxFullPacketSize).2
  ∀ call, (dsapDataRxFragIndicationHandler s payload timestampMsEpoch env).2 = some call →
    stored.2.1 = true ∧ stored.2.2 ≠ 0 ∧ message.retrieved = true ∧
      ∃ p, getPacketFromHash stored.1.packets payload.key = some p ∧
        Within maxFullPacketSize p.head ∧ call.bytes.length = p.fullSize ∧ MadeOf p.head call.bytes

/-- With a callback registered, a packet does not become full beyond the reassembly buffer. -/
def FitsBuffer (s : Receiver) (payload : DsapDataRxFragIndPl) (env : Env) : Prop :=
  s.dataCb ≠ none → Completes s payload env →
    (grown s.reassembly payload.frag env.addedAt).fullSize ≤ maxFullPacketSize

instance (s : Receiver) (payload : DsapDataRxFragIndPl) (env : Env) :
    Decidable (FitsBuffer s payload env) := inferInstanceAs (Decidable (_ → _ → _))

/-- With a callback registered, a packet does not become full with a byte missing, nor with a
fragment beyond the reassembly buffer. -/
def CoversMessage (s : Receiver) (payload : DsapDataRxFragIndPl) (env : Env) : Prop :=
  s.dataCb ≠ none → Completes s payload env →
    Covered (grown s.reassembly payload.frag env.addedAt).fullSize
        (grown s.reassembly payload.frag env.addedAt).head ∧
      Within maxFullPacketSize (grown s.reassembly payload.frag env.addedAt).head

instance (s : Receiver) (payload : DsapDataRxFragIndPl) (env : Env) :
    Decidable (CoversMessage s payload env) := inferInstanceAs (Decidable (_ → _ → _ ∧ _))

theorem deliversRetrieved_iff {s : Receiver} {payload : DsapDataRxFragIndPl}
    {timestampMsEpoch : Nat} {env : Env} :
    DeliversRetrieved s payload timestampMsEpoch env ↔
      FitsBuffer s payload env ∧ CoversMessage s payload env := by
  unfold DeliversRetrieved FitsBuffer CoversMessage
  rw [handler_call]
  by_cases hCompletes : Completes s payload env
  · obtain ⟨packets, hAdded, hAdd, hTake⟩ := takeFragment_of_completes timestampMsEpoch hCompletes
    have hStored := hAdded.same hCompletes.1
    have hGet := getFullMessage_of_full (s := { s.reassembly with isQueueEmpty := false, packets })
      hStored hCompletes.2.1 s.reassemblyBuffer maxFullPacketSize
    rw [hAdd, hTake]
    simp only [hGet, hStored, Option.some.injEq, exists_eq_left']
    split
    · next hLarge =>
      rw [handOver_call]
      cases hCb : s.dataCb with
      | none => simp
      | some cb => simp [hCompletes, Nat.not_le.mpr hLarge]
    · next hSmall =>
      rw [handOver_call]
      constructor
      · intro h
        refine ⟨fun _ _ => Nat.le_of_not_lt hSmall, fun hCb _ => ?_⟩
        obtain ⟨cb, hCb⟩ := Option.ne_none_iff_exists'.mp hCb
        obtain ⟨-, -, -, hWithin, -, hMade⟩ := h _ (by rw [hCb]; rfl)
        exact ⟨madeOf_read_assemble.mp hMade, hWithin⟩
      · rintro ⟨-, hCovers⟩ call hCall
        obtain ⟨cb, hCb, rfl⟩ := Option.map_eq_some_iff.mp hCall
        obtain ⟨hCovered, hWithin⟩ := hCovers (by rw [hCb]; nofun) hCompletes
        exact ⟨trivial, hCompletes.2.2, rfl, hWithin, Memory.length_read _ _ _,
          madeOf_read_assemble.mpr hCovered⟩
  · obtain ⟨packets, -, hTake⟩ := takeFragment_of_not_completes timestampMsEpoch hCompletes
    rw [hTake]
    constructor
    · intro _
      exact ⟨fun _ h => absurd h hCompletes, fun _ h => absurd h hCompletes⟩
    · intro _ stored message call hCall
      cases hCall

def DeliverableWhenReceived (s : Receiver) : RxEvent → Prop
  | .fragIndication payload _ env => FitsBuffer s payload env ∧ CoversMessage s payload env
  | _ => True

def Receiver.init : Receiver := ⟨Reassembly.init, fun _ => 0, none⟩

def fullFragment (flags : UInt16) : DsapDataRxFragIndPl where
  indicationStatus := 0
  srcAdd := 7
  srcEndpoint := 1
  destAdd := 9
  destEndpoint := 1
  qosHopCount := 0
  travelTime := 0
  fullPacketId := 3
  fragmentOffsetFlag := flags
  apduLength := 180
  apdu := fun _ => 0xF1

def eightFragments : List RxEvent :=
  .register 1 :: ([0, 180, 360, 540, 720, 900, 1080, 1260].map fun offset =>
    .fragIndication (fullFragment offset) 0 ⟨.all, 0, 0⟩)

end CMeshApi.Dsap
