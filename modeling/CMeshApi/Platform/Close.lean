import CMeshApi.Dsap.Reception
import CMeshApi.Platform.Leaving

/-!
# Closing the platform with the receiving half of the stack

The threads of the platform with the handlers of `wpc_internal.c` in their place, as far
as these touch the reassembly store: the fragment indication does, every other one
leaves it alone.
-/

namespace CMeshApi.Platform

open Machine Reassembly Dsap

inductive Indication where
  | dsapDataRxFrag (payload : DsapDataRxFragIndPl)
  | other (primitiveId : UInt8)

instance : Inhabited Indication := ⟨.other 0⟩

instance : Inhabited Allocs := ⟨.all⟩

/-- The settings that application threads change while the platform runs. -/
inductive Setting where
  | registerForData (cb : OnDataReceivedCb)
  | unregisterForData
  | setMaxFragmentDuration (fragmentMaxDurationS : UInt32)

def dispatchIndication (r : Receiver) (ind : TimestampedFrame Indication) (allocs : Allocs)
    (start finish : Nat) : Receiver :=
  match ind.frame with
  | .dsapDataRxFrag payload =>
    (dsapDataRxFragIndicationHandler r payload ind.timestampMsEpoch ⟨allocs, start, finish⟩).1
  | .other _ => r

def applySetting (r : Receiver) : Setting → Receiver
  | .registerForData cb => dsapRegisterForData r cb
  | .unregisterForData => dsapUnregisterForData r
  | .setMaxFragmentDuration d => dsapSetMaxFragmentDuration r d

def wpcServices : Services Indication Receiver Allocs Setting where
  dispatchIndication := dispatchIndication
  reassemblyGarbageCollect := collect
  reassemblyIsQueueEmpty r := reassemblyIsQueueEmpty r.reassembly
  configure := applySetting

abbrev Host := State Indication Receiver

abbrev HostEvent := Event Indication Allocs Setting

theorem handler_fragmentMaxDurationS (r : Receiver) (payload : DsapDataRxFragIndPl)
    (timestampMsEpoch : Nat) (env : Env) :
    (dsapDataRxFragIndicationHandler r payload timestampMsEpoch env).1.reassembly.fragmentMaxDurationS =
      r.reassembly.fragmentMaxDurationS := by
  have hTake : (takeFragment r payload timestampMsEpoch env).1.reassembly.fragmentMaxDurationS =
      r.reassembly.fragmentMaxDurationS := by
    have hAdd := addFragment_fragmentMaxDurationS r.reassembly payload.frag env.allocs env.addedAt
    unfold takeFragment
    dsimp only
    split
    · rw [handOver_reassembly, getFullMessage_fragmentMaxDurationS, hAdd]
    · exact hAdd
  unfold dsapDataRxFragIndicationHandler
  split
  · next hEq =>
    rw [hEq] at hTake
    exact (garbageCollect_fragmentMaxDurationS _ _).trans hTake
  · next hEq =>
    rw [hEq] at hTake
    exact hTake

theorem dispatchIndication_fragmentMaxDurationS (r : Receiver)
    (ind : TimestampedFrame Indication) (allocs : Allocs) (start finish : Nat) :
    (dispatchIndication r ind allocs start finish).reassembly.fragmentMaxDurationS =
      r.reassembly.fragmentMaxDurationS := by
  unfold dispatchIndication
  split
  · exact handler_fragmentMaxDurationS _ _ _ _
  · rfl

namespace Backlog

variable {b : Backlog Indication Receiver}

def CanExpire (b : Backlog Indication Receiver) : Prop := b.receiver.reassembly.CanExpire

instance : Decidable b.CanExpire := inferInstanceAs (Decidable b.receiver.reassembly.CanExpire)

theorem CanExpire.of_eq {c : Backlog Indication Receiver} (h : b.CanExpire)
    (hEq : c.receiver.reassembly.fragmentMaxDurationS =
      b.receiver.reassembly.fragmentMaxDurationS) : c.CanExpire := by
  unfold CanExpire State.CanExpire at h ⊢
  rw [hEq]
  exact h

theorem CanExpire.dispatches (h : b.CanExpire) (hPending : b.pending ≠ []) :
    CanReach (step wpcServices)
      (fun c => c.CanExpire ∧ 2 * c.pending.length + c.waiting.toNat <
        2 * b.pending.length + b.waiting.toNat) b := by
  cases hWaiting : b.waiting with
  | true =>
    refine .step (e := .collect b.clock)
      (t := { b with receiver := collect b.receiver b.clock, waiting := false }) ?_
      (.here ⟨h.of_eq (garbageCollect_fragmentMaxDurationS _ _), by simp⟩)
    simp [step, hWaiting, wpcServices]
  | false =>
    obtain ⟨ind, rest, hCons⟩ := List.exists_cons_of_ne_nil hPending
    refine .step (e := .handle .all b.clock b.clock)
      (t := { b with
        receiver := dispatchIndication b.receiver ind .all b.clock b.clock
        pending := rest }) ?_
      (.here ⟨h.of_eq (dispatchIndication_fragmentMaxDurationS _ _ _ _ _), ?_⟩)
    · simp [step, hWaiting, hCons, wpcServices]
    · simp [hCons, hWaiting]

theorem CanExpire.collects (h : b.CanExpire) (hPending : b.pending = []) :
    CanReach (step wpcServices)
      (fun c => c.Emptied wpcServices ∨ ((c.CanExpire ∧ c.pending = []) ∧
        c.receiver.reassembly.packets.length < b.receiver.reassembly.packets.length)) b := by
  obtain ⟨now, hNow, hCollects, hFewer⟩ := h.exists_fewer b.clock
  refine .step (e := .collect now)
    (t := { b with receiver := collect b.receiver now, clock := now, waiting := false }) ?_ (.here ?_)
  · simp [step, hPending, hNow, wpcServices]
  by_cases hEmpty : b.receiver.reassembly.packets = []
  · left
    refine ⟨hPending, ?_⟩
    simp [wpcServices, collect, reassemblyIsQueueEmpty, reassemblyGarbageCollect, hCollects, hEmpty]
  · right
    exact ⟨⟨h.of_eq (garbageCollect_fragmentMaxDurationS _ _), hPending⟩, hFewer hEmpty⟩

/-- With a maximum duration that every packet can exceed, the store empties in time, whatever
is left to dispatch. -/
theorem CanExpire.canEmpty (h : b.CanExpire) : b.CanEmpty wpcServices := by
  have hDispatch : ∀ c : Backlog Indication Receiver, c.CanExpire →
      ¬ (c.CanExpire ∧ c.pending = []) →
      CanReach (step wpcServices)
        (fun d => (d.CanExpire ∧ d.pending = []) ∨
          (d.CanExpire ∧ 2 * d.pending.length + d.waiting.toNat <
            2 * c.pending.length + c.waiting.toNat)) c := by
    intro c hExpire hNot
    exact (hExpire.dispatches fun hNil => hNot ⟨hExpire, hNil⟩).mono fun d hd => Or.inr hd
  have hCollect : ∀ c : Backlog Indication Receiver, c.CanExpire ∧ c.pending = [] →
      ¬ c.Emptied wpcServices →
      CanReach (step wpcServices)
        (fun d => d.Emptied wpcServices ∨ ((d.CanExpire ∧ d.pending = []) ∧
          d.receiver.reassembly.packets.length < c.receiver.reassembly.packets.length)) c := by
    rintro c ⟨hExpire, hNil⟩ -
    exact hExpire.collects hNil
  refine (canReach_of_measure _ hDispatch b h).trans fun c hc => ?_
  exact canReach_of_measure _ hCollect c hc

end Backlog

namespace State

/-- The store empties: collections can remove every packet, or what is left to dispatch, and
what the node can still send, completes the packets stored. -/
def StoreEmpties (t : Host) : Prop := t.backlog.CanExpire ∨ t.backlog.CanEmpty wpcServices

/-- A fragment with nothing in it but its offset, of a packet that stays incomplete. -/
def fragment : DsapDataRxFragIndPl where
  indicationStatus := 0
  srcAdd := 1
  srcEndpoint := 2
  destAdd := 3
  destEndpoint := 4
  qosHopCount := 0
  travelTime := 0
  fullPacketId := 5
  fragmentOffsetFlag := 0
  apduLength := 2
  apdu := fun _ => 0xaa

/-- An application thread closes the platform while a fragment of a packet is in dispatch. -/
def closedInTime : List HostEvent :=
  List.replicate 7 .poll ++
    [.pollAnswer .pending, .indicate (.dsapDataRxFrag fragment) 100 0, .dispatch,
      .close .application, .handle .all 10 10, .dispatch]

/-- The dispatch thread closes the platform inside the handler of `MSAP_STACK_STATE_INDICATION`. -/
def closedInHandler : List HostEvent :=
  List.replicate 7 .poll ++
    [.pollAnswer .pending, .indicate (.other 0x07) 100 0, .dispatch, .close .dispatchThread]

end State

end CMeshApi.Platform
