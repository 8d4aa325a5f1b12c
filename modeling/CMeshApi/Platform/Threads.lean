import Mathlib.Algebra.Group.Nat.Defs
import CMeshApi.Foundations.Machine
import CMeshApi.Foundations.Ring

/-!
# The threads of the Linux platform

`platform.c` after a successful `Platform_init`: the polling thread with each
unlocked read of a shared variable a step of its own, the dispatch thread, and the
application threads as far as they take the request lock, change settings or close
the platform. What `Platform_init` is given and the reassembly store are parameters.

Sections under the queue lock are single steps. The sleeps of the polling thread are
not modelled, and neither is whatever a thread does once `Platform_close` has
destroyed the mutexes or the process has ended.
-/

namespace CMeshApi.Platform

open Machine

def maxNumberIndication : Nat := 30

def maxNumberIndicationQueue : Nat := maxNumberIndication * 2

def defaultMaxPollFailDurationMs : Nat := 60 * 1000

/-- `timestamped_frame_t`. -/
structure TimestampedFrame (φ : Type) where
  frame : φ
  timestampMsEpoch : Nat
deriving Inhabited

/-- The handler of indications, the reassembly store it works on, and the settings of both.
The handler gets the outcomes of its allocations and the clock at its start and its end. -/
structure Services (φ ρ ω κ : Type) where
  dispatchIndication : ρ → TimestampedFrame φ → ω → Nat → Nat → ρ
  reassemblyGarbageCollect : ρ → Nat → ρ
  reassemblyIsQueueEmpty : ρ → Bool
  configure : ρ → κ → ρ

/-- The queue, and the record of what went through it: all indications inserted, all passed to
the dispatch function, and the number of those whose dispatch is completed. -/
structure Indications (φ : Type) where
  ring : Ring (TimestampedFrame φ)
  inserted : List (TimestampedFrame φ)
  dispatched : List (TimestampedFrame φ)
  completed : Nat

namespace Indications

variable {φ : Type}

def init [Inhabited φ] : Indications φ := ⟨⟨fun _ => default, 0, 0, true⟩, [], [], 0⟩

def onIndicationReceivedLocked (q : Indications φ) (ind : TimestampedFrame φ) : Indications φ :=
  if q.ring.Full then q
  else { q with
    ring := q.ring.put maxNumberIndicationQueue ind
    inserted := q.inserted ++ [ind] }

def pick (q : Indications φ) : Indications φ :=
  { q with dispatched := q.dispatched ++ [q.ring.front] }

def complete (q : Indications φ) : Indications φ :=
  { q with ring := q.ring.advance maxNumberIndicationQueue, completed := q.completed + 1 }

end Indications

inductive PollingThreadState where
  | run
  | stop
  | stopRequested
deriving DecidableEq, Repr

inductive Poller where
  /-- Sets the state to `POLLING_THREAD_RUN`. -/
  | start
  | loop
  /-- Has slept, and looks for a stop request. -/
  | wake
  | stopQueueCheck
  | stopStoreCheck
  /-- Reads the flag of the test for a full queue, and then its indices. -/
  | fullFlag
  | fullIndices
  | emptyFlag
  | compare
  /-- Reads the indices again, to subtract them. -/
  | subtract (writeAbove : Bool)
  /-- Looks for a stop request again, and sets the maximum. -/
  | limit (freeBufferRoom : Nat)
  | getIndication (maxInd : Nat)
  /-- The poll request is sent under the request lock. -/
  | request (maxInd : Nat)
  /-- In `handle_indication`, with what is left of the maximum after it. -/
  | receive (maxInd : Nat)
  | left
  /-- In a `Platform_close` of its own. -/
  | closing
  | joining
deriving DecidableEq, Repr

def Poller.HoldsLock : Poller → Prop
  | .request _ | .receive _ => True
  | _ => False

inductive Dispatcher where
  | loop
  | waiting
  /-- In the handler of the indication at the read index, before and after its effect. -/
  | dispatching
  | handled
  /-- In a `Platform_close` called inside the handler, at the join of the polling thread. -/
  | joining
  | ended
deriving DecidableEq, Repr

def Dispatcher.InHandler : Dispatcher → Prop
  | .dispatching | .handled | .joining => True
  | _ => False

instance : DecidablePred Dispatcher.InHandler := fun d => by
  cases d <;> unfold Dispatcher.InHandler <;> infer_instance

inductive Party where
  | pollingThread
  | dispatchThread
  | application
deriving DecidableEq, Repr

structure State (φ ρ : Type) where
  pollingThreadStateRequest : PollingThreadState
  dispatchThreadRunning : Bool
  indications : Indications φ
  receiver : ρ
  clock : Nat
  sendingMutex : Option Party
  disabledPollRequest : Bool
  timeoutNoAnswerMs : Nat
  poller : Poller
  dispatcher : Dispatcher
  /-- The application threads at the two joins of `Platform_close`. -/
  joiningPoller : Nat
  joiningDispatcher : Nat
  /-- A record: some thread has called `Platform_close`. -/
  closeCalled : Bool
  /-- The mutexes are destroyed, or the process has ended. -/
  finished : Bool

/-- Whether the room computation reads each index once, or again to subtract them, as the
source does. -/
inductive RoomReads where
  | once
  | again
deriving DecidableEq, Repr

inductive PollAnswer where
  | error
  | nothing
  | pending
deriving DecidableEq, Repr

inductive Event (φ ω κ : Type) where
  /-- The polling thread's next step, where nothing outside the process decides it. -/
  | poll
  | pollAnswer (answer : PollAnswer)
  | indicate (frame : φ) (timestampMsEpoch : Nat) (remaining : UInt8)
  | indicationError
  | dispatch
  | wakeUp (now : Nat)
  | handle (outcomes : ω) (start finish : Nat)
  /-- A request made by an application thread or inside the handler. -/
  | lockRequest (party : Party)
  | unlockRequest (party : Party)
  /-- `check_if_timeout_reached_locked` finds that the node was silent for too long. -/
  | timeoutReached (party : Party)
  | close (party : Party)
  | joinedPoller
  | joinedDispatcher
  | configure (setting : κ)
  | disablePollRequest (disabled : Bool)
  | setTimeoutNoAnswer (durationS : UInt32)

/-- Subtraction of `unsigned int`s. -/
def unsignedSub (a b : Nat) : Nat := (a + 2 ^ 32 - b) % 2 ^ 32

def freeBufferRoom (writeAbove : Bool) (write read : Nat) : Nat :=
  if writeAbove then unsignedSub maxNumberIndicationQueue (unsignedSub write read)
  else unsignedSub read write

namespace State

variable {φ ρ ω κ : Type}

def init [Inhabited φ] (receiver : ρ) (clock : Nat) : State φ ρ where
  pollingThreadStateRequest := .stop
  dispatchThreadRunning := true
  indications := .init
  receiver := receiver
  clock := clock
  sendingMutex := none
  disabledPollRequest := false
  timeoutNoAnswerMs := defaultMaxPollFailDurationMs
  poller := .start
  dispatcher := .loop
  joiningPoller := 0
  joiningDispatcher := 0
  closeCalled := false
  finished := false

def endPoll (s : State φ ρ) : State φ ρ := { s with poller := .loop, sendingMutex := none }

/-- The first assignment of `Platform_close`. -/
def requestStop (s : State φ ρ) : State φ ρ :=
  { s with pollingThreadStateRequest := .stopRequested, closeCalled := true }

def pollStep (m : Services φ ρ ω κ) (reads : RoomReads) (s : State φ ρ) : Option (State φ ρ) :=
  let ring := s.indications.ring
  match s.poller with
  | .start => some { s with pollingThreadStateRequest := .run, poller := .loop }
  | .loop =>
    some { s with poller := if s.pollingThreadStateRequest = .stop then .left else .wake }
  | .wake =>
    some { s with
      poller := if s.pollingThreadStateRequest = .stopRequested then .stopQueueCheck
        else .fullFlag }
  | .stopQueueCheck => some { s with poller := if ring.empty then .stopStoreCheck else .loop }
  | .stopStoreCheck =>
    if m.reassemblyIsQueueEmpty s.receiver then
      some { s with pollingThreadStateRequest := .stop, poller := .left }
    else some { s with poller := .fullFlag }
  | .fullFlag => some { s with poller := if ring.empty then .emptyFlag else .fullIndices }
  | .fullIndices =>
    some { s with poller := if ring.write = ring.read then .loop else .emptyFlag }
  | .emptyFlag =>
    some { s with
      poller := if ring.empty then .limit maxNumberIndicationQueue else .compare }
  | .compare =>
    some { s with
      poller := match reads with
        | .once => .limit (freeBufferRoom (ring.read < ring.write) ring.write ring.read)
        | .again => .subtract (ring.read < ring.write) }
  | .subtract writeAbove =>
    some { s with poller := .limit (freeBufferRoom writeAbove ring.write ring.read) }
  | .limit room =>
    some { s with
      poller := .getIndication (if s.pollingThreadStateRequest = .stopRequested then 1
        else min maxNumberIndication room) }
  | .getIndication maxInd =>
    if s.sendingMutex = none then
      if s.disabledPollRequest = true ∨ maxInd = 0 then some { s with poller := .loop }
      else some { s with poller := .request maxInd, sendingMutex := some .pollingThread }
    else none
  | .closing => some { s with poller := .joining, dispatchThreadRunning := false }
  | .joining => if s.dispatcher = .ended then some { s with finished := true } else none
  | .request _ | .receive _ | .left => none

def pollAnswered (s : State φ ρ) (answer : PollAnswer) : Option (State φ ρ) :=
  match s.poller with
  | .request maxInd =>
    if answer = .pending then some { s with poller := .receive (maxInd - 1) }
    else some s.endPoll
  | _ => none

def indicated (s : State φ ρ) (ind : TimestampedFrame φ) (remaining : UInt8) :
    Option (State φ ρ) :=
  match s.poller with
  | .receive maxInd =>
    let t := { s with indications := s.indications.onIndicationReceivedLocked ind }
    if maxInd ≠ 0 ∧ remaining ≠ 0 then some { t with poller := .receive (maxInd - 1) }
    else some t.endPoll
  | _ => none

def pick (s : State φ ρ) : State φ ρ :=
  { s with indications := s.indications.pick, dispatcher := .dispatching }

def dispatchStep (s : State φ ρ) : Option (State φ ρ) :=
  match s.dispatcher with
  | .loop =>
    if s.dispatchThreadRunning = false then some { s with dispatcher := .ended }
    else if s.indications.ring.empty then some { s with dispatcher := .waiting }
    else some s.pick
  | .handled =>
    if s.sendingMutex = some .dispatchThread then none
    else some { s with indications := s.indications.complete, dispatcher := .loop }
  | .joining => if s.poller = .left then some { s with finished := true } else none
  | .waiting | .dispatching | .ended => none

/-- The dispatch thread wakes up, collects, and looks at the queue again. -/
def wokenUp (m : Services φ ρ ω κ) (s : State φ ρ) (now : Nat) : Option (State φ ρ) :=
  if s.dispatcher = .waiting ∧ s.clock ≤ now then
    let t := { s with receiver := m.reassemblyGarbageCollect s.receiver now, clock := now }
    if s.indications.ring.empty then some { t with dispatcher := .loop } else some t.pick
  else none

def handled (m : Services φ ρ ω κ) (s : State φ ρ) (outcomes : ω) (start finish : Nat) :
    Option (State φ ρ) :=
  if s.dispatcher = .dispatching ∧ s.clock ≤ start ∧ start ≤ finish then
    some { s with
      receiver := m.dispatchIndication s.receiver s.indications.ring.front outcomes start finish
      clock := finish
      dispatcher := .handled }
  else none

/-- The thread can make a request, or call `Platform_close`, outside the request lock. -/
def CanCall (s : State φ ρ) : Party → Prop
  | .pollingThread => False
  | .dispatchThread =>
    (s.dispatcher = .dispatching ∨ s.dispatcher = .handled) ∧
      s.sendingMutex ≠ some .dispatchThread
  | .application => True

instance (s : State φ ρ) : DecidablePred s.CanCall := fun p => by
  cases p <;> unfold CanCall <;> infer_instance

/-- The call of `Platform_close` up to its first join. -/
def platformClose (s : State φ ρ) : Party → State φ ρ
  | .pollingThread => { s.requestStop with poller := .closing }
  | .dispatchThread => { s.requestStop with dispatcher := .joining }
  | .application => { s.requestStop with joiningPoller := s.joiningPoller + 1 }

def AtRequest : Poller → Prop
  | .request _ => True
  | _ => False

instance : DecidablePred AtRequest := fun p => by
  cases p <;> unfold AtRequest <;> infer_instance

/-- The thread has sent a request, and waits for its confirm. -/
def Requesting (s : State φ ρ) : Party → Prop
  | .pollingThread => AtRequest s.poller ∧ s.sendingMutex = some .pollingThread
  | .dispatchThread =>
    (s.dispatcher = .dispatching ∨ s.dispatcher = .handled) ∧
      s.sendingMutex = some .dispatchThread
  | .application => s.sendingMutex = some .application

instance (s : State φ ρ) : DecidablePred s.Requesting := fun p => by
  cases p <;> unfold Requesting <;> infer_instance

def act (m : Services φ ρ ω κ) (reads : RoomReads) (s : State φ ρ) :
    Event φ ω κ → Option (State φ ρ)
  | .poll => pollStep m reads s
  | .pollAnswer answer => pollAnswered s answer
  | .indicate frame timestampMsEpoch remaining =>
    indicated s ⟨frame, timestampMsEpoch⟩ remaining
  | .indicationError =>
    match s.poller with
    | .receive _ => some s.endPoll
    | _ => none
  | .dispatch => dispatchStep s
  | .wakeUp now => wokenUp m s now
  | .handle outcomes start finish => handled m s outcomes start finish
  | .lockRequest party =>
    if s.CanCall party ∧ s.sendingMutex = none then some { s with sendingMutex := some party }
    else none
  | .unlockRequest party =>
    if s.sendingMutex = some party ∧ party ≠ .pollingThread then
      some { s with sendingMutex := none }
    else none
  | .timeoutReached party =>
    if s.Requesting party ∧ 0 < s.timeoutNoAnswerMs then
      some (platformClose { s with sendingMutex := none } party)
    else none
  | .close party => if s.CanCall party then some (platformClose s party) else none
  | .joinedPoller =>
    if 0 < s.joiningPoller ∧ s.poller = .left then
      some { s with
        joiningPoller := s.joiningPoller - 1
        joiningDispatcher := s.joiningDispatcher + 1
        dispatchThreadRunning := false }
    else none
  | .joinedDispatcher =>
    if 0 < s.joiningDispatcher ∧ s.dispatcher = .ended then some { s with finished := true }
    else none
  | .configure setting => some { s with receiver := m.configure s.receiver setting }
  | .disablePollRequest disabled => some { s with disabledPollRequest := disabled }
  | .setTimeoutNoAnswer durationS =>
    some { s with timeoutNoAnswerMs := durationS.toNat * 1000 % 2 ^ 32 }

def step (m : Services φ ρ ω κ) (reads : RoomReads) : Step (State φ ρ) (Event φ ω κ) :=
  fun s e => if s.finished then none else act m reads s e

section Steps

variable {m : Services φ ρ ω κ} {reads : RoomReads} {s t : State φ ρ}

theorem step_eq_some {e : Event φ ω κ} :
    step m reads s e = some t ↔ s.finished = false ∧ act m reads s e = some t := by
  unfold step
  cases s.finished <;> simp

/-- Locks, joins and settings, which move neither thread of the platform. -/
def Aside : Event φ ω κ → Prop
  | .lockRequest _ | .unlockRequest _ | .joinedPoller | .joinedDispatcher | .configure _
  | .disablePollRequest _ | .setTimeoutNoAnswer _ => True
  | _ => False

structure SameThreads (s t : State φ ρ) : Prop where
  indications : t.indications = s.indications
  poller : t.poller = s.poller
  dispatcher : t.dispatcher = s.dispatcher
  request : t.pollingThreadStateRequest = s.pollingThreadStateRequest

theorem act_aside {e : Event φ ω κ} (h : act m reads s e = some t) (hAside : Aside e) :
    SameThreads s t := by
  cases e with
  | lockRequest party | unlockRequest party | joinedPoller | joinedDispatcher =>
    simp only [act, Option.ite_none_right_eq_some, Option.some.injEq] at h
    obtain ⟨-, rfl⟩ := h
    exact ⟨rfl, rfl, rfl, rfl⟩
  | configure setting | disablePollRequest disabled | setTimeoutNoAnswer durationS =>
    cases h
    exact ⟨rfl, rfl, rfl, rfl⟩
  | _ => exact hAside.elim

/-- The polling thread's own steps, as far as the other threads can tell. -/
inductive PollStep (s t : State φ ρ) : Prop where
  | starts (hStart : s.poller = .start)
      (hStep : t = { s with pollingThreadStateRequest := .run, poller := .loop })
  | looks (next : Poller) (hLock : ¬ s.poller.HoldsLock)
      (hFrom : s.poller ≠ .left ∧ s.poller ≠ .joining)
      (hNext : next ≠ .start ∧ next ≠ .joining)
      (hStep : t = { s with poller := next })
  | leaves (hLock : ¬ s.poller.HoldsLock)
      (hStep : t = { s with pollingThreadStateRequest := .stop, poller := .left })
  | locks (maxInd : Nat) (hFrom : s.poller = .getIndication maxInd)
      (hStep : t = { s with
        poller := .request maxInd, sendingMutex := some .pollingThread })
  | stopsDispatch (hClosing : s.poller = .closing)
      (hStep : t = { s with poller := .joining, dispatchThreadRunning := false })
  | exits (hStep : t = { s with finished := true })

theorem pollStep_cases (h : pollStep m reads s = some t) : PollStep s t := by
  unfold pollStep at h
  split at h
  case h_1 hAt =>
    cases h
    exact .starts hAt rfl
  case h_5 hAt =>
    split at h
    · cases h
      exact .leaves (by rw [hAt]; exact id) rfl
    · cases h
      exact .looks .fullFlag (by rw [hAt]; exact id) (by simp [hAt]) (by simp) rfl
  case h_12 maxInd hAt =>
    split at h
    · split at h
      · cases h
        exact .looks .loop (by rw [hAt]; exact id) (by simp [hAt]) (by simp) rfl
      · cases h
        exact .locks maxInd hAt rfl
    · cases h
  case h_13 hAt =>
    cases h
    exact .stopsDispatch hAt rfl
  case h_14 hAt =>
    split at h
    · cases h
      exact .exits rfl
    · cases h
  case h_15 | h_16 | h_17 => cases h
  -- the reads, each of which leads on to another place in the loop
  all_goals
    next hAt =>
    cases h
    refine .looks _ (by rw [hAt]; exact id) (by simp [hAt]) ?_ rfl
    try split
    all_goals simp

theorem pollAnswered_cases {answer : PollAnswer} (h : pollAnswered s answer = some t) :
    ∃ maxInd, s.poller = .request maxInd ∧
      (t = { s with poller := .receive (maxInd - 1) } ∨ t = s.endPoll) := by
  unfold pollAnswered at h
  split at h
  · next maxInd hRequest =>
    refine ⟨maxInd, hRequest, ?_⟩
    split at h
    · exact Or.inl (Option.some.inj h).symm
    · exact Or.inr (Option.some.inj h).symm
  · cases h

theorem indicated_cases {ind : TimestampedFrame φ} {remaining : UInt8}
    (h : indicated s ind remaining = some t) :
    ∃ maxInd, s.poller = .receive maxInd ∧
      ((maxInd ≠ 0 ∧ t = { s with
          indications := s.indications.onIndicationReceivedLocked ind
          poller := .receive (maxInd - 1) }) ∨
        t = endPoll { s with indications := s.indications.onIndicationReceivedLocked ind }) := by
  unfold indicated at h
  split at h
  · next maxInd hReceive =>
    refine ⟨maxInd, hReceive, ?_⟩
    dsimp only at h
    split at h
    · next hMore => exact Or.inl ⟨hMore.1, (Option.some.inj h).symm⟩
    · exact Or.inr (Option.some.inj h).symm
  · cases h

theorem indicationError_cases (h : act m reads s .indicationError = some t) :
    ∃ maxInd, s.poller = .receive maxInd ∧ t = s.endPoll := by
  simp only [act] at h
  split at h
  · next maxInd hReceive => exact ⟨maxInd, hReceive, (Option.some.inj h).symm⟩
  · cases h

inductive DispatchStep (s t : State φ ρ) : Prop where
  | ends (hLoop : s.dispatcher = .loop) (hStop : s.dispatchThreadRunning = false)
      (hStep : t = { s with dispatcher := .ended })
  | waits (hLoop : s.dispatcher = .loop) (hStep : t = { s with dispatcher := .waiting })
  | picks (hLoop : s.dispatcher = .loop) (hEmpty : s.indications.ring.empty = false)
      (hStep : t = s.pick)
  | completes (hHandled : s.dispatcher = .handled)
      (hFree : s.sendingMutex ≠ some .dispatchThread)
      (hStep : t = { s with indications := s.indications.complete, dispatcher := .loop })
  | closes (hJoining : s.dispatcher = .joining) (hLeft : s.poller = .left)
      (hStep : t = { s with finished := true })

theorem dispatchStep_cases (h : dispatchStep s = some t) : DispatchStep s t := by
  unfold dispatchStep at h
  split at h
  case h_1 hLoop =>
    split at h
    · next hStop => exact .ends hLoop hStop (Option.some.inj h).symm
    · split at h
      · exact .waits hLoop (Option.some.inj h).symm
      · next hEmpty =>
        exact .picks hLoop (eq_false_of_ne_true hEmpty) (Option.some.inj h).symm
  case h_2 hHandled =>
    split at h
    · cases h
    · next hFree => exact .completes hHandled hFree (Option.some.inj h).symm
  case h_3 hJoining =>
    split at h
    · next hLeft => exact .closes hJoining hLeft (Option.some.inj h).symm
    · cases h
  all_goals cases h

theorem wokenUp_cases {now : Nat} (h : wokenUp m s now = some t) :
    s.dispatcher = .waiting ∧
      (t = { s with
          receiver := m.reassemblyGarbageCollect s.receiver now
          clock := now
          dispatcher := .loop } ∨
        (s.indications.ring.empty = false ∧ t = pick { s with
          receiver := m.reassemblyGarbageCollect s.receiver now
          clock := now })) := by
  unfold wokenUp at h
  split at h
  · next hWaiting =>
    refine ⟨hWaiting.1, ?_⟩
    dsimp only at h
    split at h
    · exact Or.inl (Option.some.inj h).symm
    · next hEmpty =>
      exact Or.inr ⟨eq_false_of_ne_true hEmpty, (Option.some.inj h).symm⟩
  · cases h

theorem handled_cases {outcomes : ω} {start finish : Nat}
    (h : handled m s outcomes start finish = some t) :
    s.dispatcher = .dispatching ∧ t = { s with
      receiver := m.dispatchIndication s.receiver s.indications.ring.front outcomes start finish
      clock := finish
      dispatcher := .handled } := by
  simp only [handled, Option.ite_none_right_eq_some, Option.some.injEq] at h
  exact ⟨h.1.1, h.2.symm⟩

theorem timeoutReached_cases {party : Party} (h : act m reads s (.timeoutReached party) = some t) :
    s.Requesting party ∧ t = platformClose { s with sendingMutex := none } party := by
  simp only [act, Option.ite_none_right_eq_some, Option.some.injEq] at h
  exact ⟨h.1.1, h.2.symm⟩

theorem close_cases {party : Party} (h : act m reads s (.close party) = some t) :
    s.CanCall party ∧ t = platformClose s party := by
  simp only [act, Option.ite_none_right_eq_some, Option.some.injEq] at h
  exact ⟨h.1, h.2.symm⟩

end Steps

end State

end CMeshApi.Platform
