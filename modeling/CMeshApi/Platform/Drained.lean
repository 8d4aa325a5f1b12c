import CMeshApi.Platform.StopRequest
import CMeshApi.Reassembly.Integrity

/-!
# What is left when the polling thread leaves

The polling thread leaves its loop after two reads without a lock, one of the flag of
the indication queue and one of the flag of the reassembly store. Nothing but the
polling thread fills the queue, and nothing but an indication under dispatch fills the
store, so that what the first read has found still holds at the second one.
-/

namespace CMeshApi.Platform

open Machine Reassembly Dsap

theorem takeFragment_flagSound (r : Receiver) (payload : DsapDataRxFragIndPl)
    (timestampMsEpoch : Nat) (env : Env) :
    (takeFragment r payload timestampMsEpoch env).1.reassembly.FlagSound := by
  have hAdd := flagSound_addFragment r.reassembly payload.frag env.allocs env.addedAt
  unfold takeFragment
  dsimp only
  split
  · rw [handOver_reassembly]
    exact hAdd.getFullMessage _ _ _
  · exact hAdd

theorem handler_flagSound (r : Receiver) (payload : DsapDataRxFragIndPl)
    (timestampMsEpoch : Nat) (env : Env) :
    (dsapDataRxFragIndicationHandler r payload timestampMsEpoch env).1.reassembly.FlagSound := by
  have hTake := takeFragment_flagSound r payload timestampMsEpoch env
  unfold dsapDataRxFragIndicationHandler
  split
  · next hEq =>
    rw [hEq] at hTake
    exact hTake.garbageCollect _
  · next hEq =>
    rw [hEq] at hTake
    exact hTake

theorem dispatchIndication_flagSound {r : Receiver} (h : r.reassembly.FlagSound)
    (ind : TimestampedFrame Indication) (allocs : Allocs) (start finish : Nat) :
    (dispatchIndication r ind allocs start finish).reassembly.FlagSound := by
  unfold dispatchIndication
  split
  · exact handler_flagSound _ _ _ _
  · exact h

theorem applySetting_reassembly (r : Receiver) (setting : Setting) :
    (applySetting r setting).reassembly.packets = r.reassembly.packets ∧
      (applySetting r setting).reassembly.isQueueEmpty = r.reassembly.isQueueEmpty := by
  cases setting with
  | registerForData cb => exact ⟨rfl, rfl⟩
  | unregisterForData => exact ⟨rfl, rfl⟩
  | setMaxFragmentDuration d => exact ⟨rfl, rfl⟩

namespace State

section Steps

variable {φ ρ ω κ : Type} {m : Services φ ρ ω κ} {reads : RoomReads} {s t : State φ ρ}

inductive ReceiverStep (m : Services φ ρ ω κ) (s t : State φ ρ) : Prop where
  | same (hReceiver : t.receiver = s.receiver)
  | collects (now : Nat) (hReceiver : t.receiver = m.reassemblyGarbageCollect s.receiver now)
  | handles (ind : TimestampedFrame φ) (outcomes : ω) (start finish : Nat)
      (hBusy : s.dispatcher.InHandler)
      (hReceiver : t.receiver = m.dispatchIndication s.receiver ind outcomes start finish)
  | configures (setting : κ) (hReceiver : t.receiver = m.configure s.receiver setting)

theorem platformClose_receiver (s : State φ ρ) (party : Party) :
    (platformClose s party).receiver = s.receiver := by
  cases party <;> rfl

theorem step_receiverStep {e : Event φ ω κ} (h : step m reads s e = some t) :
    ReceiverStep m s t := by
  obtain ⟨-, h⟩ := step_eq_some.mp h
  cases e with
  | poll =>
    rw [pollStep_frame h]
    exact .same rfl
  | pollAnswer answer =>
    obtain ⟨maxInd, -, rfl | rfl⟩ := pollAnswered_cases h
    · exact .same rfl
    · exact .same rfl
  | indicate frame timestampMsEpoch remaining =>
    obtain ⟨maxInd, -, ⟨-, rfl⟩ | rfl⟩ := indicated_cases h
    · exact .same rfl
    · exact .same rfl
  | indicationError =>
    obtain ⟨-, -, rfl⟩ := indicationError_cases h
    exact .same rfl
  | dispatch =>
    cases dispatchStep_cases h with
    | ends _ _ hStep | waits _ hStep | picks _ _ hStep | completes _ _ hStep | closes _ _ hStep =>
      subst hStep
      exact .same rfl
  | wakeUp now =>
    obtain ⟨-, rfl | ⟨-, rfl⟩⟩ := wokenUp_cases h
    · exact .collects now rfl
    · exact .collects now rfl
  | handle outcomes start finish =>
    obtain ⟨hAt, rfl⟩ := handled_cases h
    refine .handles s.indications.ring.front outcomes start finish ?_ rfl
    rw [hAt]
    trivial
  | timeoutReached party =>
    obtain ⟨-, rfl⟩ := timeoutReached_cases h
    exact .same (platformClose_receiver _ party)
  | close party =>
    obtain ⟨-, rfl⟩ := close_cases h
    exact .same (platformClose_receiver _ party)
  | lockRequest party | unlockRequest party | joinedPoller | joinedDispatcher =>
    simp only [act, Option.ite_none_right_eq_some, Option.some.injEq] at h
    obtain ⟨-, rfl⟩ := h
    exact .same rfl
  | configure setting =>
    cases h
    exact .configures setting rfl
  | disablePollRequest disabled | setTimeoutNoAnswer durationS =>
    cases h
    exact .same rfl

theorem QueueSound.not_inHandler (hSound : s.QueueSound)
    (hEmpty : s.indications.ring.empty = true) : ¬ s.dispatcher.InHandler := by
  intro hBusy
  unfold QueueSound at hSound
  have hLt := hSound.busy_lt (decide_eq_true hBusy)
  have hDone := hSound.holds.empty_iff.mp hEmpty
  omega

/-- Only the polling thread ends the emptiness of the queue, and only while it receives. -/
theorem QueueSound.empty_step {e : Event φ ω κ} (hSound : s.QueueSound)
    (hEmpty : s.indications.ring.empty = true)
    (hNotReceiving : ∀ maxInd, s.poller ≠ .receive maxInd)
    (hStep : State.step m reads s e = some t) : t.indications.ring.empty = true := by
  cases step_queueStep hStep with
  | quiet hIndications hHandler hPoller => rw [hIndications, hEmpty]
  | polls hPoll => rw [(pollStep_indications hPoll).1, hEmpty]
  | answered maxInd hRequest hTaken =>
    rw [hTaken]
    exact hEmpty
  | inserts maxInd ind hReceive hIndications hDispatcher hPoller =>
    exact absurd hReceive (hNotReceiving maxInd)
  | picks hIdle hNotEmpty hIndications hBusy hPoller =>
    rw [hEmpty] at hNotEmpty
    cases hNotEmpty
  | completes hBusy hIndications hIdle hPoller => exact absurd hBusy (hSound.not_inHandler hEmpty)

end Steps

variable {reads : RoomReads} {s t : Host}

structure LeavingInv (s : Host) : Prop where
  queue : s.QueueSound
  flag : s.receiver.reassembly.FlagSound
  stopped : s.pollingThreadStateRequest = .stop → s.poller = .start ∨ s.poller = .left
  /-- The queue stays empty between the two reads. -/
  checked : s.poller = .stopStoreCheck → s.indications.ring.empty = true
  left : s.poller = .left →
    s.indications.ring.empty = true ∧ s.receiver.reassembly.packets = []

theorem leavingInv_init (receiver : Receiver) (clock : Nat)
    (hFlag : receiver.reassembly.FlagSound) : (State.init receiver clock : Host).LeavingInv :=
  ⟨queueSound_init receiver clock, hFlag, fun _ => Or.inl rfl, nofun, nofun⟩

theorem LeavingInv.flag_step {e : HostEvent} (hInv : s.LeavingInv)
    (h : State.step wpcServices reads s e = some t) : t.receiver.reassembly.FlagSound := by
  cases step_receiverStep h with
  | same hReceiver =>
    rw [hReceiver]
    exact hInv.flag
  | collects now hReceiver =>
    rw [hReceiver]
    exact hInv.flag.garbageCollect now
  | handles ind outcomes start finish hBusy hReceiver =>
    rw [hReceiver]
    exact dispatchIndication_flagSound hInv.flag ind outcomes start finish
  | configures setting hReceiver =>
    obtain ⟨hPackets, hFlag⟩ := applySetting_reassembly s.receiver setting
    rw [hReceiver]
    intro hRaised
    exact hPackets.trans (hInv.flag (hFlag.symm.trans hRaised))

/-- Only the polling thread writes the stop, and it leaves with that write. -/
theorem LeavingInv.stopped_step {e : HostEvent} (hInv : s.LeavingInv)
    (h : State.step wpcServices reads s e = some t)
    (hStop : t.pollingThreadStateRequest = .stop) : t.poller = .start ∨ t.poller = .left := by
  cases step_requestStep h with
  | polls hPoll =>
    cases hPoll with
    | starts hAt hTaken =>
      subst hTaken
      cases hStop
    | checksQueue hAt hEmpty hTaken =>
      subst hTaken
      rcases hInv.stopped hStop with hGone | hGone <;> rw [hAt] at hGone <;> cases hGone
    | leaves hAt hEmpty hTaken | stopped hAt hEmpty hTaken =>
      subst hTaken
      exact Or.inr rfl
    | moves hFrom hNext hRequest =>
      rcases hInv.stopped (hRequest.symm.trans hStop) with hGone | hGone
      · exact absurd hGone hFrom.1
      · exact absurd hGone hFrom.2
  | closes hRequest hPoller =>
    rw [hStop] at hRequest
    cases hRequest
  | others hRequest hPoller =>
    have hWas := hInv.stopped (hRequest.symm.trans hStop)
    rcases hPoller with hSame | ⟨hFrom, -⟩
    · rw [hSame]
      exact hWas
    · rcases hWas with hGone | hGone
      · exact absurd hGone hFrom.1
      · exact absurd hGone hFrom.2.2

theorem LeavingInv.checked_step {e : HostEvent} (hInv : s.LeavingInv)
    (h : State.step wpcServices reads s e = some t) (hAt : t.poller = .stopStoreCheck) :
    t.indications.ring.empty = true := by
  rcases (step_requestStep h).place with hPoll | hSame | hBetween
  · cases hPoll with
    | starts _ hTaken | leaves _ _ hTaken | stopped _ _ hTaken =>
      subst hTaken
      cases hAt
    | checksQueue hWas hEmpty hTaken =>
      subst hTaken
      exact hEmpty
    | moves hFrom hNext hRequest => exact absurd hAt hNext.2.1
  · have hWas : s.poller = .stopStoreCheck := hSame.symm.trans hAt
    exact hInv.queue.empty_step (hInv.checked hWas) (by simp [hWas]) h
  · exact absurd hAt hBetween.2.1

/-- No indication is under dispatch once the polling thread has left, so nothing is added. -/
theorem LeavingInv.stays_empty {e : HostEvent} (hInv : s.LeavingInv) (hLeft : s.poller = .left)
    (h : State.step wpcServices reads s e = some t) :
    t.indications.ring.empty = true ∧ t.receiver.reassembly.packets = [] := by
  obtain ⟨hEmpty, hPackets⟩ := hInv.left hLeft
  refine ⟨hInv.queue.empty_step hEmpty (by simp [hLeft]) h, ?_⟩
  cases step_receiverStep h with
  | same hReceiver => rw [hReceiver, hPackets]
  | collects now hReceiver =>
    rw [hReceiver]
    exact garbageCollect_nil hPackets now
  | handles ind outcomes start finish hBusy hReceiver =>
    exact absurd hBusy (hInv.queue.not_inHandler hEmpty)
  | configures setting hReceiver =>
    rw [hReceiver]
    exact (applySetting_reassembly s.receiver setting).1.trans hPackets

theorem LeavingInv.left_step {e : HostEvent} (hInv : s.LeavingInv)
    (h : State.step wpcServices reads s e = some t) (hLeft : t.poller = .left) :
    t.indications.ring.empty = true ∧ t.receiver.reassembly.packets = [] := by
  rcases (step_requestStep h).place with hPoll | hSame | hBetween
  · cases hPoll with
    | starts _ hTaken | checksQueue _ _ hTaken =>
      subst hTaken
      cases hLeft
    | leaves hAt hFlag hTaken =>
      subst hTaken
      exact ⟨hInv.checked hAt, hInv.flag hFlag⟩
    | stopped hAt hStop hTaken =>
      rcases hInv.stopped hStop with hGone | hGone <;> rw [hAt] at hGone <;> cases hGone
    | moves hFrom hNext hRequest => exact absurd hLeft hNext.2.2
  · exact hInv.stays_empty (hSame.symm.trans hLeft) h
  · exact absurd hLeft hBetween.2.2

theorem LeavingInv.step {e : HostEvent} (hInv : s.LeavingInv)
    (h : State.step wpcServices reads s e = some t) : t.LeavingInv :=
  ⟨hInv.queue.step h, hInv.flag_step h, hInv.stopped_step h, hInv.checked_step h,
    hInv.left_step h⟩

/-- Nothing is left of what was received: each indication inserted is dispatched, with its
handler at its end, and the queue and the store are empty. -/
structure Drained (s : Host) : Prop where
  dispatched : s.indications.dispatched = s.indications.inserted
  completed : s.indications.completed = s.indications.inserted.length
  noHandler : ¬ s.dispatcher.InHandler
  queue : s.indications.ring.empty = true
  store : s.receiver.reassembly.packets = []

theorem LeavingInv.drained (hInv : s.LeavingInv) (hLeft : s.poller = .left) : s.Drained := by
  obtain ⟨hEmpty, hPackets⟩ := hInv.left hLeft
  have hNotBusy := hInv.queue.not_inHandler hEmpty
  have hCompleted : s.indications.completed = s.indications.inserted.length := by
    have hSound := hInv.queue
    unfold QueueSound at hSound
    exact hSound.holds.empty_iff.mp hEmpty
  exact ⟨hInv.queue.dispatchedInOrder.all hEmpty, hCompleted, hNotBusy, hEmpty, hPackets⟩

/-- However the platform is closed, a polling thread that has left its loop leaves nothing
behind. The store at the start is what any use of it since the process began has made it. -/
theorem polling_thread_leaves_drained (reads : RoomReads) (receiver : Receiver) (clock : Nat)
    (uses : List Reassembly.Op)
    (hStore : run Reassembly.step Reassembly.init uses = some receiver.reassembly)
    (events : List HostEvent) (t : Host)
    (hRun : run (step wpcServices reads) (.init receiver clock) events = some t)
    (hLeft : t.poller = .left) : t.Drained := by
  have hFlag : receiver.reassembly.FlagSound :=
    run_invariant' (fun _ _ _ hInv hStep => hInv.step hStep) flagSound_init hStore
  have hInv : t.LeavingInv :=
    run_invariant' (fun _ _ _ hInv hStep => hInv.step hStep)
      (leavingInv_init receiver clock hFlag) hRun
  exact hInv.drained hLeft

/-- An application closes the platform while an indication is under dispatch, and the polling
thread looks at the queue before and after its end. -/
def closedWhileDispatching : List HostEvent :=
  List.replicate 7 .poll ++
    [.pollAnswer .pending, .indicate (.other 0x07) 100 0, .dispatch, .close .application,
      .poll, .poll, .poll, .handle .all 10 10, .dispatch, .poll, .poll, .poll, .poll]

theorem polling_thread_leaves_drained_closedWhileDispatching :
    ∃ t, run (step wpcServices .again) (.init ⟨Reassembly.init, fun _ => 0, none⟩ 0)
        closedWhileDispatching = some t ∧
      t.indications.inserted.length = 1 ∧ t.poller = .left ∧ t.Drained :=
  ⟨_, rfl, rfl, rfl,
    polling_thread_leaves_drained .again ⟨Reassembly.init, fun _ => 0, none⟩ 0 [] rfl
      closedWhileDispatching _ rfl rfl⟩

/-- Whatever is done with the store, keys and offsets are unique in it, its flag is raised only
when it is empty, and no polling thread that reads the flag leaves while a message is pending. -/
theorem stored_messages_intact (uses : List Use) (store : Reassembly.State)
    (hRun : run Use.step Reassembly.init uses = some store) :
    (store.packets.map FullPacket.key).Nodup ∧
      (∀ p ∈ store.packets, (p.head.map Segment.offset).Nodup) ∧
      (store.isQueueEmpty = true → store.packets = []) ∧
      ∀ (reads : RoomReads) (s t : Host), s.receiver.reassembly = store →
        s.poller = .stopStoreCheck → pollStep wpcServices reads s = some t → t.poller = .left →
        store.packets = [] := by
  have hIntact : Intact store := intact_run hRun
  refine ⟨hIntact.keys, hIntact.offsets, hIntact.flag, ?_⟩
  rintro reads s t rfl hCheck hPoll hLeft
  cases pollStep_exitStep hPoll with
  | starts hAt hTaken | checksQueue hAt _ hTaken | stopped hAt _ hTaken =>
    rw [hCheck] at hAt
    cases hAt
  | leaves hAt hFlag hTaken => exact hIntact.flag hFlag
  | moves hFrom hNext hRequest => exact absurd hLeft hNext.2.2

/-- A second packet finds no memory for its fragment, and a reading of the clock before the first
packet's time stamp lets a collection take out both. -/
def strandedPackets : List Use :=
  [.plain (.setMaxFragmentDuration 2), .plain (.addFragment ⟨7, 1, 0, false, [10]⟩ .all 9000),
    .plain (.addFragment ⟨7, 2, 0, false, [20]⟩ ⟨true, false, true⟩ 9000),
    .garbageCollect ⟨9000, 9000, fun _ => 8999⟩]

theorem stored_messages_intact_stranded :
    ∃ store, run Use.step Reassembly.init strandedPackets = some store ∧
      (store.packets.map FullPacket.key).Nodup ∧
      (∀ p ∈ store.packets, (p.head.map Segment.offset).Nodup) ∧
      (store.isQueueEmpty = true → store.packets = []) ∧
      ∀ (reads : RoomReads) (s t : Host), s.receiver.reassembly = store →
        s.poller = .stopStoreCheck → pollStep wpcServices reads s = some t → t.poller = .left →
        store.packets = [] :=
  ⟨_, rfl, stored_messages_intact strandedPackets _ rfl⟩

end State

end CMeshApi.Platform
