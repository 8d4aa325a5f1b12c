import CMeshApi.Platform.IndicationQueue

/-!
# Closing the platform

Whether the polling thread can leave its loop once `Platform_close` is called. The
continuations looked for are made of what is already under way: no thread makes a
further request, calls `Platform_close` again or changes a setting.
-/

namespace CMeshApi.Platform

open Machine

def Event.Quiet {φ ω κ : Type} : Event φ ω κ → Bool
  | .lockRequest _ | .timeoutReached _ | .close _ => false
  | .configure _ | .disablePollRequest _ | .setTimeoutNoAnswer _ => false
  | _ => true

namespace State

variable {φ ρ ω κ : Type} {m : Services φ ρ ω κ} {reads : RoomReads} {s t : State φ ρ}

def quietStep (m : Services φ ρ ω κ) (reads : RoomReads) : Step (State φ ρ) (Event φ ω κ) :=
  fun s e => if e.Quiet then step m reads s e else none

/-- The polling thread has left its loop, or the process has ended. -/
def Gone (s : State φ ρ) : Prop := s.poller = .left ∨ s.finished = true

/-- `Platform_close` is called outside of the dispatch thread, and once the polling thread has
started. -/
def ClosesOrderly (s : State φ ρ) : Event φ ω κ → Prop
  | .close party | .timeoutReached party => party ≠ .dispatchThread ∧ s.poller ≠ .start
  | _ => True

instance (s : State φ ρ) (e : Event φ ω κ) : Decidable (s.ClosesOrderly e) := by
  cases e <;> unfold ClosesOrderly <;> infer_instance

structure CloseInv (s : State φ ρ) : Prop where
  notJoining : s.dispatcher ≠ .joining
  requested : s.closeCalled = true →
    s.poller = .left ∨ (s.poller ≠ .start ∧ s.pollingThreadStateRequest = .stopRequested)
  running : s.dispatchThreadRunning = false → s.poller = .left ∨ s.poller = .joining
  joining : s.poller = .joining → s.dispatchThreadRunning = false
  ended : s.dispatcher = .ended → s.dispatchThreadRunning = false
  polling : s.sendingMutex = some .pollingThread → s.poller.HoldsLock
  handling : s.sendingMutex = some .dispatchThread →
    s.dispatcher = .dispatching ∨ s.dispatcher = .handled

theorem closeInv_init [Inhabited φ] (receiver : ρ) (clock : Nat) :
    (State.init receiver clock : State φ ρ).CloseInv := by
  constructor <;> simp [State.init]

theorem CloseInv.pollStep (hInv : s.CloseInv) (h : State.pollStep m reads s = some t) :
    t.CloseInv := by
  obtain ⟨hJoin, hRequested, hRunning, hJoining, hEnded, hPolling, hHandling⟩ := hInv
  cases pollStep_cases h with
  | starts hStart hStep =>
    rw [hStart] at hRequested hRunning hPolling
    rw [hStep]
    refine ⟨hJoin, fun hCalled => ?_, fun hStop => ?_, nofun, hEnded, fun hMutex => ?_, hHandling⟩
    · rcases hRequested hCalled with hLeft | ⟨hStarted, -⟩
      · cases hLeft
      · exact absurd rfl hStarted
    · rcases hRunning hStop with hLeft | hJoining
      · cases hLeft
      · cases hJoining
    · exact (hPolling hMutex).elim
  | looks next hLock hFrom hNext hStep =>
    rw [hStep]
    refine ⟨hJoin, fun hCalled => ?_, fun hStop => ?_, fun hAt => absurd hAt hNext.2, hEnded,
      fun hMutex => ?_, hHandling⟩
    · rcases hRequested hCalled with hLeft | ⟨-, hStopRequested⟩
      · exact absurd hLeft hFrom.1
      · exact Or.inr ⟨hNext.1, hStopRequested⟩
    · rcases hRunning hStop with hLeft | hJoining
      · exact absurd hLeft hFrom.1
      · exact absurd hJoining hFrom.2
    · exact absurd (hPolling hMutex) hLock
  | leaves hLock hStep =>
    rw [hStep]
    exact ⟨hJoin, fun _ => Or.inl rfl, fun _ => Or.inl rfl, nofun, hEnded,
      fun hMutex => absurd (hPolling hMutex) hLock, hHandling⟩
  | locks maxInd hFrom hStep =>
    rw [hStep]
    rw [hFrom] at hRequested hRunning
    refine ⟨hJoin, fun hCalled => ?_, fun hStop => ?_, nofun, hEnded, fun _ => trivial, ?_⟩
    · rcases hRequested hCalled with hLeft | ⟨-, hStopRequested⟩
      · cases hLeft
      · exact Or.inr ⟨by simp, hStopRequested⟩
    · rcases hRunning hStop with hLeft | hJoining
      · cases hLeft
      · cases hJoining
    · intro hMutex
      cases hMutex
  | stopsDispatch hClosing hStep =>
    rw [hClosing] at hRequested hPolling
    rw [hStep]
    refine ⟨hJoin, fun hCalled => ?_, fun _ => Or.inr rfl, fun _ => rfl, fun _ => rfl, hPolling,
      hHandling⟩
    rcases hRequested hCalled with hLeft | ⟨-, hStopRequested⟩
    · cases hLeft
    · exact Or.inr ⟨by simp, hStopRequested⟩
  | exits hStep =>
    rw [hStep]
    exact ⟨hJoin, hRequested, hRunning, hJoining, hEnded, hPolling, hHandling⟩

theorem CloseInv.endPoll (hInv : s.CloseInv) (hLock : s.poller.HoldsLock) :
    s.endPoll.CloseInv := by
  have hNotLeft : s.poller ≠ .left ∧ s.poller ≠ .joining := by
    constructor <;> intro hEq <;> rw [hEq] at hLock <;> exact hLock
  refine ⟨hInv.notJoining, fun hCalled => ?_, fun hStop => ?_, nofun, hInv.ended, ?_, ?_⟩
  · rcases hInv.requested hCalled with hLeft | ⟨-, hStopRequested⟩
    · exact absurd hLeft hNotLeft.1
    · exact Or.inr ⟨by simp [State.endPoll], hStopRequested⟩
  · rcases hInv.running hStop with hLeft | hJoining
    · exact absurd hLeft hNotLeft.1
    · exact absurd hJoining hNotLeft.2
  · intro hMutex
    cases hMutex
  · intro hMutex
    cases hMutex

theorem CloseInv.receives {maxInd : Nat} {q : Indications φ} (hInv : s.CloseInv)
    (hLock : s.poller.HoldsLock) :
    ({ s with indications := q, poller := .receive maxInd } : State φ ρ).CloseInv := by
  refine ⟨hInv.notJoining, fun hCalled => ?_, fun hStop => ?_, nofun, hInv.ended,
    fun _ => trivial, hInv.handling⟩
  · rcases hInv.requested hCalled with hLeft | ⟨-, hStopRequested⟩
    · rw [hLeft] at hLock
      exact hLock.elim
    · exact Or.inr ⟨by simp, hStopRequested⟩
  · rcases hInv.running hStop with hLeft | hJoining
    · rw [hLeft] at hLock
      exact hLock.elim
    · rw [hJoining] at hLock
      exact hLock.elim

theorem CloseInv.pollAnswered {answer : PollAnswer} (hInv : s.CloseInv)
    (h : State.pollAnswered s answer = some t) : t.CloseInv := by
  obtain ⟨maxInd, hRequest, hStep⟩ := pollAnswered_cases h
  have hLock : s.poller.HoldsLock := by
    rw [hRequest]
    trivial
  rcases hStep with rfl | rfl
  · exact hInv.receives hLock
  · exact hInv.endPoll hLock

theorem CloseInv.indicated {ind : TimestampedFrame φ} {remaining : UInt8} (hInv : s.CloseInv)
    (h : State.indicated s ind remaining = some t) : t.CloseInv := by
  obtain ⟨maxInd, hReceive, hStep⟩ := indicated_cases h
  have hLock : s.poller.HoldsLock := by
    rw [hReceive]
    trivial
  rcases hStep with ⟨-, rfl⟩ | rfl
  · exact hInv.receives hLock
  · obtain ⟨hJoin, hRequested, hRunning, hJoining, hEnded, hPolling, hHandling⟩ :=
      hInv.endPoll hLock
    exact ⟨hJoin, hRequested, hRunning, hJoining, hEnded, hPolling, hHandling⟩

theorem CloseInv.dispatches (hInv : s.CloseInv) {d : Dispatcher} {q : Indications φ} {r : ρ}
    {now : Nat} (hJoin : d ≠ .joining) (hEnded : d = .ended → s.dispatchThreadRunning = false)
    (hHandling : s.sendingMutex = some .dispatchThread → d = .dispatching ∨ d = .handled) :
    ({ s with dispatcher := d, indications := q, receiver := r, clock := now } :
      State φ ρ).CloseInv :=
  ⟨hJoin, hInv.requested, hInv.running, hInv.joining, hEnded, hInv.polling, hHandling⟩

theorem CloseInv.not_handling (hInv : s.CloseInv)
    (hOutside : s.dispatcher ≠ .dispatching ∧ s.dispatcher ≠ .handled) :
    s.sendingMutex ≠ some .dispatchThread := by
  intro hMutex
  rcases hInv.handling hMutex with h | h
  · exact hOutside.1 h
  · exact hOutside.2 h

theorem CloseInv.dispatchStep (hInv : s.CloseInv) (h : State.dispatchStep s = some t) :
    t.CloseInv := by
  cases dispatchStep_cases h with
  | ends hLoop hStop hStep =>
    have hFree := hInv.not_handling (by simp [hLoop])
    rw [hStep]
    exact hInv.dispatches (by simp) (fun _ => hStop) fun hMutex => absurd hMutex hFree
  | waits hLoop hStep =>
    have hFree := hInv.not_handling (by simp [hLoop])
    rw [hStep]
    exact hInv.dispatches (by simp) (by simp) fun hMutex => absurd hMutex hFree
  | picks hLoop hEmpty hStep =>
    rw [hStep]
    exact hInv.dispatches (by simp) (by simp) fun _ => Or.inl rfl
  | completes hHandled hFree hStep =>
    rw [hStep]
    exact hInv.dispatches (by simp) (by simp) fun hMutex => absurd hMutex hFree
  | closes hJoining hLeft hStep => exact absurd hJoining hInv.notJoining

theorem CloseInv.wokenUp {now : Nat} (hInv : s.CloseInv) (h : State.wokenUp m s now = some t) :
    t.CloseInv := by
  obtain ⟨hWaiting, hStep⟩ := wokenUp_cases h
  have hFree := hInv.not_handling (by simp [hWaiting])
  rcases hStep with rfl | ⟨-, rfl⟩
  · exact hInv.dispatches (by simp) (by simp) fun hMutex => absurd hMutex hFree
  · exact hInv.dispatches (by simp) (by simp) fun _ => Or.inl rfl

theorem CloseInv.setMutex {mutex : Option Party} (hInv : s.CloseInv)
    (hPolling : mutex ≠ some .pollingThread)
    (hHandling : mutex = some .dispatchThread →
      s.dispatcher = .dispatching ∨ s.dispatcher = .handled) :
    ({ s with sendingMutex := mutex } : State φ ρ).CloseInv :=
  ⟨hInv.notJoining, hInv.requested, hInv.running, hInv.joining, hInv.ended,
    fun h => absurd h hPolling, hHandling⟩

theorem CloseInv.platformClose {party : Party} (hInv : s.CloseInv)
    (hParty : party ≠ .dispatchThread) (hStarted : s.poller ≠ .start)
    (hPoller : party = .pollingThread → s.sendingMutex = none ∧ AtRequest s.poller) :
    (State.platformClose s party).CloseInv := by
  cases party with
  | pollingThread =>
    obtain ⟨hFree, hRequest⟩ := hPoller rfl
    refine ⟨hInv.notJoining, fun _ => Or.inr ⟨by simp [State.platformClose], rfl⟩,
      fun hStop => ?_, nofun, hInv.ended, fun hMutex => ?_, hInv.handling⟩
    · rcases hInv.running hStop with hLeft | hJoining
      · rw [hLeft] at hRequest
        exact hRequest.elim
      · rw [hJoining] at hRequest
        exact hRequest.elim
    · change s.sendingMutex = _ at hMutex
      rw [hFree] at hMutex
      cases hMutex
  | dispatchThread => exact absurd rfl hParty
  | application =>
    exact ⟨hInv.notJoining, fun _ => Or.inr ⟨hStarted, rfl⟩, hInv.running, hInv.joining,
      hInv.ended, hInv.polling, hInv.handling⟩

theorem CloseInv.step {e : Event φ ω κ} (hInv : s.CloseInv) (hOrderly : s.ClosesOrderly e)
    (h : State.step m reads s e = some t) : t.CloseInv := by
  obtain ⟨-, h⟩ := step_eq_some.mp h
  cases e with
  | poll => exact hInv.pollStep h
  | pollAnswer answer => exact hInv.pollAnswered h
  | indicate frame timestampMsEpoch remaining => exact hInv.indicated h
  | indicationError =>
    obtain ⟨maxInd, hReceive, rfl⟩ := indicationError_cases h
    exact hInv.endPoll (by rw [hReceive]; trivial)
  | dispatch => exact hInv.dispatchStep h
  | wakeUp now => exact hInv.wokenUp h
  | handle outcomes start finish =>
    obtain ⟨-, rfl⟩ := handled_cases h
    exact hInv.dispatches (by simp) (by simp) fun _ => Or.inr rfl
  | lockRequest party =>
    simp only [act, Option.ite_none_right_eq_some, Option.some.injEq] at h
    obtain ⟨⟨hCan, -⟩, rfl⟩ := h
    cases party with
    | pollingThread => exact hCan.elim
    | dispatchThread => exact hInv.setMutex (by simp) fun _ => hCan.1
    | application => exact hInv.setMutex (by simp) (by simp)
  | unlockRequest party =>
    simp only [act, Option.ite_none_right_eq_some, Option.some.injEq] at h
    obtain ⟨-, rfl⟩ := h
    exact hInv.setMutex (by simp) (by simp)
  | timeoutReached party =>
    obtain ⟨hRequesting, rfl⟩ := timeoutReached_cases h
    have hUnlocked : ({ s with sendingMutex := none } : State φ ρ).CloseInv :=
      hInv.setMutex (by simp) (by simp)
    refine hUnlocked.platformClose hOrderly.1 hOrderly.2 fun hParty => ⟨rfl, ?_⟩
    subst hParty
    exact hRequesting.1
  | close party =>
    obtain ⟨hCan, rfl⟩ := close_cases h
    refine hInv.platformClose hOrderly.1 hOrderly.2 fun hParty => ?_
    subst hParty
    exact hCan.elim
  | joinedPoller =>
    simp only [act, Option.ite_none_right_eq_some, Option.some.injEq] at h
    obtain ⟨⟨-, hLeft⟩, rfl⟩ := h
    exact ⟨hInv.notJoining, fun _ => Or.inl hLeft, fun _ => Or.inl hLeft, fun _ => rfl,
      fun _ => rfl, hInv.polling, hInv.handling⟩
  | joinedDispatcher =>
    simp only [act, Option.ite_none_right_eq_some, Option.some.injEq] at h
    obtain ⟨-, rfl⟩ := h
    exact ⟨hInv.notJoining, hInv.requested, hInv.running, hInv.joining, hInv.ended, hInv.polling,
      hInv.handling⟩
  | configure setting | disablePollRequest disabled | setTimeoutNoAnswer durationS =>
    cases h
    exact ⟨hInv.notJoining, hInv.requested, hInv.running, hInv.joining, hInv.ended, hInv.polling,
      hInv.handling⟩

end State

end CMeshApi.Platform
