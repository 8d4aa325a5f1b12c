import CMeshApi.Platform.Backlog

/-!
# Leaving the polling loop

From every state after an orderly call of `Platform_close`, the requests under way end,
the polling thread comes back to the top of its loop, and from there it leaves if what
is left to dispatch can empty the store. A dispatch thread that closes the platform
inside a handler waits for a polling thread that waits for that handler.
-/

namespace CMeshApi.Platform

open Machine

/-- How far the polling thread is from the top of its loop. -/
def Poller.distance : Poller → Nat
  | .wake => 0
  | .loop => 1
  | .request _ | .receive _ => 2
  | .getIndication _ => 3
  | .limit _ => 4
  | .subtract _ => 5
  | .compare => 6
  | .emptyFlag => 7
  | .fullIndices => 8
  | .fullFlag => 9
  | .stopStoreCheck => 10
  | .stopQueueCheck => 11
  | .start | .left | .closing | .joining => 0

/-- The polling thread neither has left its loop nor is in a `Platform_close` of its own. -/
def Poller.InLoop : Poller → Prop
  | .left | .closing | .joining => False
  | _ => True

theorem Poller.inLoop_iff {p : Poller} : p.InLoop ↔ p ≠ .left ∧ p ≠ .closing ∧ p ≠ .joining := by
  cases p <;> simp [Poller.InLoop]

/-- How far the dispatch thread is from its end. -/
def Dispatcher.distance : Dispatcher → Nat
  | .ended | .joining => 0
  | .loop => 1
  | .handled => 2
  | .dispatching => 3
  | .waiting => 4

namespace State

variable {φ ρ ω κ : Type} {m : Services φ ρ ω κ} {reads : RoomReads} {s t : State φ ρ}

/-- The polling thread was asked to stop and is in its loop; the dispatch thread goes on. -/
structure Stopping (s : State φ ρ) (b : Backlog φ ρ) : Prop where
  notFinished : s.finished = false
  request : s.pollingThreadStateRequest = .stopRequested
  poller : s.poller ≠ .start ∧ s.poller ≠ .left ∧ s.poller ≠ .closing ∧ s.poller ≠ .joining
  mutex : s.sendingMutex = none ∨ s.poller.HoldsLock
  running : s.dispatchThreadRunning = true
  dispatcher : s.dispatcher ≠ .joining ∧ s.dispatcher ≠ .ended
  sound : s.QueueSound
  backlog : s.backlog = b

theorem Stopping.moves {b : Backlog φ ρ} {next : Poller} (h : s.Stopping b)
    (hFree : s.sendingMutex = none)
    (hNext : next ≠ .start ∧ next ≠ .left ∧ next ≠ .closing ∧ next ≠ .joining) :
    ({ s with poller := next } : State φ ρ).Stopping b :=
  ⟨h.notFinished, h.request, hNext, Or.inl hFree, h.running, h.dispatcher, h.sound, h.backlog⟩

theorem Stopping.endPoll {b : Backlog φ ρ} (h : s.Stopping b) : s.endPoll.Stopping b :=
  ⟨h.notFinished, h.request, by simp [State.endPoll], Or.inl rfl, h.running, h.dispatcher, h.sound,
    h.backlog⟩

theorem Stopping.looks {b : Backlog φ ρ} {p : Poller} (h : s.Stopping b) (hAt : s.poller = p)
    (next : Poller) (hLock : ¬ p.HoldsLock)
    (hNext : next ≠ .start ∧ next ≠ .left ∧ next ≠ .closing ∧ next ≠ .joining)
    (hCloser : next.distance < p.distance)
    (hStep : pollStep m reads s = some { s with poller := next }) :
    CanReach (quietStep m reads)
      (fun t => Gone t ∨ (t.Stopping b ∧ t.poller.distance < p.distance)) s := by
  have hFree : s.sendingMutex = none := h.mutex.resolve_right (hAt ▸ hLock)
  exact canReach_of_act (e := .poll) rfl h.notFinished hStep
    (.here (Or.inr ⟨h.moves hFree hNext, hCloser⟩))

theorem Stopping.approaches {b : Backlog φ ρ} (h : s.Stopping b) (hWake : s.poller ≠ .wake) :
    CanReach (quietStep m reads)
      (fun t => Gone t ∨ (t.Stopping b ∧ t.poller.distance < s.poller.distance)) s := by
  cases hAt : s.poller with
  | start => exact absurd hAt h.poller.1
  | left => exact absurd hAt h.poller.2.1
  | closing => exact absurd hAt h.poller.2.2.1
  | joining => exact absurd hAt h.poller.2.2.2
  | wake => exact absurd hAt hWake
  | loop =>
    apply h.looks hAt .wake id (by simp) (by decide)
    simp [pollStep, hAt, h.request]
  | stopQueueCheck =>
    cases hEmpty : s.indications.ring.empty with
    | true =>
      apply h.looks hAt .stopStoreCheck id (by simp) (by decide)
      simp [pollStep, hAt, hEmpty]
    | false =>
      apply h.looks hAt .loop id (by simp) (by decide)
      simp [pollStep, hAt, hEmpty]
  | stopStoreCheck =>
    cases hStore : m.reassemblyIsQueueEmpty s.receiver with
    | true =>
      refine canReach_of_act (e := .poll)
        (t := { s with pollingThreadStateRequest := .stop, poller := .left }) rfl h.notFinished ?_
        (.here (Or.inl (Or.inl rfl)))
      simp [act, pollStep, hAt, hStore]
    | false =>
      apply h.looks hAt .fullFlag id (by simp) (by decide)
      simp [pollStep, hAt, hStore]
  | fullFlag =>
    cases hEmpty : s.indications.ring.empty with
    | true =>
      apply h.looks hAt .emptyFlag id (by simp) (by decide)
      simp [pollStep, hAt, hEmpty]
    | false =>
      apply h.looks hAt .fullIndices id (by simp) (by decide)
      simp [pollStep, hAt, hEmpty]
  | fullIndices =>
    by_cases hIndices : s.indications.ring.write = s.indications.ring.read
    · apply h.looks hAt .loop id (by simp) (by decide)
      simp [pollStep, hAt, hIndices]
    · apply h.looks hAt .emptyFlag id (by simp) (by decide)
      simp [pollStep, hAt, hIndices]
  | emptyFlag =>
    cases hEmpty : s.indications.ring.empty with
    | true =>
      apply h.looks hAt (.limit maxNumberIndicationQueue) id (by simp) (by simp [Poller.distance])
      simp [pollStep, hAt, hEmpty]
    | false =>
      apply h.looks hAt .compare id (by simp) (by decide)
      simp [pollStep, hAt, hEmpty]
  | compare =>
    let ring := s.indications.ring
    cases hReads : reads with
    | once =>
      apply h.looks hAt (.limit (freeBufferRoom (ring.read < ring.write) ring.write ring.read)) id
        (by simp) (by simp [Poller.distance])
      simp only [pollStep, hAt, ring]
    | again =>
      apply h.looks hAt (.subtract (ring.read < ring.write)) id (by simp)
        (by simp [Poller.distance])
      simp only [pollStep, hAt, ring]
  | subtract writeAbove =>
    let ring := s.indications.ring
    apply h.looks hAt (.limit (freeBufferRoom writeAbove ring.write ring.read)) id (by simp)
      (by simp [Poller.distance])
    simp only [pollStep, hAt, ring]
  | limit room =>
    apply h.looks hAt (.getIndication 1) id (by simp) (by simp [Poller.distance])
    simp [pollStep, hAt, h.request]
  | getIndication maxInd =>
    have hFree : s.sendingMutex = none :=
      h.mutex.resolve_right (by simp [hAt, Poller.HoldsLock])
    by_cases hNone : s.disabledPollRequest = true ∨ maxInd = 0
    · apply h.looks hAt .loop id (by simp) (by simp [Poller.distance])
      simp only [pollStep, hAt, hFree, if_true, if_pos hNone]
    · refine canReach_of_act (e := .poll)
        (t := { s with poller := .request maxInd, sendingMutex := some .pollingThread }) rfl
        h.notFinished ?_ (.here (Or.inr ⟨?_, by simp [Poller.distance]⟩))
      · simp only [act, pollStep, hAt, hFree, if_true, if_neg hNone]
      · exact ⟨h.notFinished, h.request, by simp, Or.inr trivial, h.running, h.dispatcher, h.sound,
          h.backlog⟩
  | request maxInd =>
    refine canReach_of_act (e := .pollAnswer .error) (t := s.endPoll) rfl h.notFinished ?_
      (.here (Or.inr ⟨h.endPoll, by simp [State.endPoll, Poller.distance]⟩))
    simp [act, pollAnswered, hAt]
  | receive maxInd =>
    refine canReach_of_act (e := .indicationError) (t := s.endPoll) rfl h.notFinished ?_
      (.here (Or.inr ⟨h.endPoll, by simp [State.endPoll, Poller.distance]⟩))
    simp [act, hAt]

theorem Stopping.comesBack {b : Backlog φ ρ} (h : s.Stopping b) :
    CanReach (quietStep m reads) (fun t => Gone t ∨ (t.Stopping b ∧ t.poller = .wake)) s := by
  have hAll : ∀ t : State φ ρ, t.Stopping b → ¬ (Gone t ∨ (t.Stopping b ∧ t.poller = .wake)) →
      CanReach (quietStep m reads)
        (fun u => (Gone u ∨ (u.Stopping b ∧ u.poller = .wake)) ∨
          (u.Stopping b ∧ u.poller.distance < t.poller.distance)) t := by
    intro t hStopping hNot
    have hWake : t.poller ≠ .wake := fun hAt => hNot (Or.inr ⟨hStopping, hAt⟩)
    exact (hStopping.approaches hWake).mono fun u hu => hu.imp_left Or.inl
  exact canReach_of_measure (fun t => t.poller.distance) hAll s h

theorem Stopping.parks {b : Backlog φ ρ} (h : s.Stopping b) (hWake : s.poller = .wake) :
    CanReach (quietStep m reads) (fun t => t.Parked ∧ t.backlog = b) s := by
  have hFree : s.sendingMutex = none := h.mutex.resolve_right (by simp [hWake, Poller.HoldsLock])
  have hSound := h.sound
  cases hAt : s.dispatcher with
  | loop => exact .here ⟨⟨h.notFinished, h.request, hWake, hFree, h.running, Or.inl hAt, hSound⟩, h.backlog⟩
  | waiting =>
    exact .here ⟨⟨h.notFinished, h.request, hWake, hFree, h.running, Or.inr (Or.inl hAt), hSound⟩,
      h.backlog⟩
  | dispatching =>
    exact .here ⟨⟨h.notFinished, h.request, hWake, hFree, h.running, Or.inr (Or.inr hAt), hSound⟩,
      h.backlog⟩
  | joining => exact absurd hAt h.dispatcher.1
  | ended => exact absurd hAt h.dispatcher.2
  | handled =>
    unfold QueueSound at hSound
    rw [hAt] at hSound
    refine canReach_of_act (e := .dispatch)
      (t := { s with indications := s.indications.complete, dispatcher := .loop }) rfl h.notFinished
      ?_ (.here ⟨⟨h.notFinished, h.request, hWake, hFree, h.running, Or.inl rfl, hSound.complete⟩, ?_⟩)
    · simp [act, dispatchStep, hAt, hFree]
    · rw [← h.backlog]
      simp only [State.backlog, handledCount, hAt, Indications.complete]
      rfl

theorem Stopping.canLeave {b : Backlog φ ρ} (h : s.Stopping b) (hCan : b.CanEmpty m) :
    CanReach (quietStep m reads) Gone s := by
  refine h.comesBack.trans fun t ht => ?_
  rcases ht with hGone | ⟨hStopping, hWake⟩
  · exact .here hGone
  · refine (hStopping.parks hWake).trans fun u hu => ?_
    obtain ⟨hParked, rfl⟩ := hu
    exact hParked.canLeave hCan

/-- The polling thread has stopped the dispatch thread, and waits for it to end. -/
structure Exiting (s : State φ ρ) : Prop where
  notFinished : s.finished = false
  poller : s.poller = .joining
  mutex : s.sendingMutex ≠ some .dispatchThread
  running : s.dispatchThreadRunning = false
  dispatcher : s.dispatcher ≠ .joining

theorem Exiting.moves {d : Dispatcher} {q : Indications φ} {r : ρ} {now : Nat} (h : s.Exiting)
    (hJoin : d ≠ .joining) :
    ({ s with dispatcher := d, indications := q, receiver := r, clock := now } :
      State φ ρ).Exiting :=
  ⟨h.notFinished, h.poller, h.mutex, h.running, hJoin⟩

theorem Exiting.approaches [Inhabited ω] {m : Services φ ρ ω κ} (h : s.Exiting)
    (hEnded : s.dispatcher ≠ .ended) :
    CanReach (quietStep m reads)
      (fun t => t.Exiting ∧ t.dispatcher.distance < s.dispatcher.distance)
      s := by
  cases hAt : s.dispatcher with
  | joining => exact absurd hAt h.dispatcher
  | ended => exact absurd hAt hEnded
  | loop =>
    refine canReach_of_act (e := .dispatch) (t := { s with dispatcher := .ended }) rfl h.notFinished
      ?_ (.here ⟨h.moves (by simp), by simp [Dispatcher.distance]⟩)
    simp only [act, dispatchStep, hAt, h.running, if_true]
  | handled =>
    refine canReach_of_act (e := .dispatch)
      (t := { s with indications := s.indications.complete, dispatcher := .loop }) rfl h.notFinished
      ?_ (.here ⟨h.moves (by simp), by simp [Dispatcher.distance]⟩)
    simp only [act, dispatchStep, hAt, if_neg h.mutex]
  | dispatching =>
    let receiver := m.dispatchIndication s.receiver s.indications.ring.front default s.clock s.clock
    refine canReach_of_act (e := .handle default s.clock s.clock)
      (t := { s with receiver := receiver, dispatcher := .handled }) rfl h.notFinished
      ?_ (.here ⟨h.moves (by simp), by simp [Dispatcher.distance]⟩)
    simp only [act, handled, hAt, Nat.le_refl, and_self, if_true, receiver]
  | waiting =>
    let receiver := m.reassemblyGarbageCollect s.receiver s.clock
    cases hEmpty : s.indications.ring.empty with
    | true =>
      refine canReach_of_act (e := .wakeUp s.clock)
        (t := { s with receiver := receiver, dispatcher := .loop }) rfl h.notFinished
        ?_ (.here ⟨h.moves (by simp), by simp [Dispatcher.distance]⟩)
      simp only [act, wokenUp, hAt, Nat.le_refl, and_self, if_true, hEmpty, receiver]
    | false =>
      refine canReach_of_act (e := .wakeUp s.clock)
        (t := State.pick { s with receiver := receiver }) rfl h.notFinished
        ?_ (.here ⟨h.moves (by simp), by simp [State.pick, Dispatcher.distance]⟩)
      simp [act, wokenUp, hAt, hEmpty, receiver]

theorem Exiting.exits [Inhabited ω] {m : Services φ ρ ω κ} (h : s.Exiting) :
    CanReach (quietStep m reads) Gone s := by
  have hAll : ∀ t : State φ ρ, t.Exiting → ¬ (t.Exiting ∧ t.dispatcher = .ended) →
      CanReach (quietStep m reads)
        (fun u => (u.Exiting ∧ u.dispatcher = .ended) ∨
          (u.Exiting ∧ u.dispatcher.distance < t.dispatcher.distance)) t := by
    intro t hExiting hNot
    have hEnded : t.dispatcher ≠ .ended := fun hAt => hNot ⟨hExiting, hAt⟩
    exact (hExiting.approaches hEnded).mono fun u hu => Or.inr hu
  refine (canReach_of_measure (fun t => t.dispatcher.distance) hAll s h).trans
    fun t ht => ?_
  obtain ⟨hExiting, hEnded⟩ := ht
  refine canReach_of_act (e := .poll) (t := { t with finished := true }) rfl hExiting.notFinished ?_
    (.here (Or.inr rfl))
  simp [act, pollStep, hExiting.poller, hEnded]

theorem CloseInv.exiting (hInv : s.CloseInv) (hNotFinished : s.finished = false)
    (hAt : s.poller = .joining) (hMutex : s.sendingMutex ≠ some .dispatchThread) : s.Exiting :=
  ⟨hNotFinished, hAt, hMutex, hInv.joining hAt, hInv.notJoining⟩

theorem CloseInv.stopping (hInv : s.CloseInv) (hSound : s.QueueSound) (hNotFinished : s.finished = false)
    (hCalled : s.closeCalled = true) (hMutex : s.sendingMutex = none ∨ s.poller.HoldsLock)
    (hAt : s.poller.InLoop) : s.Stopping s.backlog := by
  have hLoop := Poller.inLoop_iff.mp hAt
  obtain ⟨hStarted, hRequest⟩ := (hInv.requested hCalled).resolve_left hLoop.1
  have hRunning : s.dispatchThreadRunning = true := by
    refine eq_true_of_ne_false fun hStop => ?_
    rcases hInv.running hStop with hLeft | hJoining
    · exact hLoop.1 hLeft
    · exact hLoop.2.2 hJoining
  have hEnded : s.dispatcher ≠ .ended := by
    intro hAt
    rw [hInv.ended hAt] at hRunning
    cases hRunning
  exact ⟨hNotFinished, hRequest, ⟨hStarted, hLoop⟩, hMutex, hRunning, ⟨hInv.notJoining, hEnded⟩, hSound,
    rfl⟩

theorem CloseInv.canLeave_unlocked [Inhabited ω] {m : Services φ ρ ω κ} (hInv : s.CloseInv)
    (hSound : s.QueueSound) (hCalled : s.closeCalled = true)
    (hMutex : s.sendingMutex = none ∨ s.poller.HoldsLock)
    (hCan : s.poller.InLoop → s.backlog.CanEmpty m) : CanReach (quietStep m reads) Gone s := by
  cases hFinished : s.finished with
  | true => exact .here (Or.inr hFinished)
  | false =>
    have hNotHandling : ¬ s.poller.HoldsLock → s.sendingMutex ≠ some .dispatchThread := by
      intro hLock
      rw [hMutex.resolve_right hLock]
      nofun
    by_cases hLeft : s.poller = .left
    · exact .here (Or.inl hLeft)
    by_cases hClosing : s.poller = .closing
    · have hFree := hNotHandling (by simp [hClosing, Poller.HoldsLock])
      refine canReach_of_act (e := .poll)
        (t := { s with poller := .joining, dispatchThreadRunning := false }) rfl hFinished ?_ ?_
      · simp [act, State.pollStep, hClosing]
      · exact Exiting.exits ⟨hFinished, rfl, hFree, rfl, hInv.notJoining⟩
    by_cases hJoining : s.poller = .joining
    · exact (hInv.exiting hFinished hJoining
        (hNotHandling (by simp [hJoining, Poller.HoldsLock]))).exits
    · have hLoop := Poller.inLoop_iff.mpr ⟨hLeft, hClosing, hJoining⟩
      exact (hInv.stopping hSound hFinished hCalled hMutex hLoop).canLeave (hCan hLoop)

/-- Once the platform is closed in order, the polling thread can leave its loop, if what is left
to dispatch can empty the store. -/
theorem CloseInv.canLeave [Inhabited ω] {m : Services φ ρ ω κ} (hInv : s.CloseInv)
    (hSound : s.QueueSound) (hCalled : s.closeCalled = true)
    (hCan : s.poller.InLoop → s.backlog.CanEmpty m) : CanReach (quietStep m reads) Gone s := by
  have hUnlock : ∀ party, party ≠ .pollingThread → s.sendingMutex = some party →
      CanReach (quietStep m reads) Gone s := by
    intro party hParty hMutex
    by_cases hFinished : s.finished = true
    · exact .here (Or.inr hFinished)
    · have hUnlocked : ({ s with sendingMutex := none } : State φ ρ).CloseInv :=
        hInv.setMutex (by simp) (by simp)
      refine canReach_of_act (e := .unlockRequest party) (t := { s with sendingMutex := none }) rfl
        (eq_false_of_ne_true hFinished) (by simp [act, hMutex, hParty]) ?_
      exact hUnlocked.canLeave_unlocked hSound hCalled (Or.inl rfl) hCan
  cases hMutex : s.sendingMutex with
  | none => exact hInv.canLeave_unlocked hSound hCalled (Or.inl hMutex) hCan
  | some party =>
    cases party with
    | pollingThread =>
      exact hInv.canLeave_unlocked hSound hCalled (Or.inr (hInv.polling hMutex)) hCan
    | dispatchThread => exact hUnlock .dispatchThread (by simp) hMutex
    | application => exact hUnlock .application (by simp) hMutex

/-- The dispatch thread waits for the polling thread inside a handler, and the polling thread
for the queue to be emptied. -/
structure Deadlocked (s : State φ ρ) : Prop where
  notFinished : s.finished = false
  request : s.pollingThreadStateRequest = .stopRequested
  dispatcher : s.dispatcher = .joining
  queue : s.indications.ring.empty = false
  poller : s.poller = .loop ∨ s.poller = .wake ∨ s.poller = .stopQueueCheck

theorem Deadlocked.not_gone (h : s.Deadlocked) : ¬ Gone s := by
  rintro (hLeft | hFinished)
  · rcases h.poller with hAt | hAt | hAt <;> rw [hAt] at hLeft <;> cases hLeft
  · rw [h.notFinished] at hFinished
    cases hFinished

theorem Deadlocked.pollStep (h : s.Deadlocked) (hStep : State.pollStep m reads s = some t) :
    t.Deadlocked := by
  obtain ⟨hNotFinished, hRequest, hDispatcher, hQueue, hPoller⟩ := h
  rcases hPoller with hAt | hAt | hAt
  · simp only [State.pollStep, hAt, hRequest, reduceCtorEq, if_false, Option.some.injEq] at hStep
    subst hStep
    exact ⟨hNotFinished, rfl, hDispatcher, hQueue, Or.inr (Or.inl rfl)⟩
  · simp only [State.pollStep, hAt, hRequest, if_true, Option.some.injEq] at hStep
    subst hStep
    exact ⟨hNotFinished, rfl, hDispatcher, hQueue, Or.inr (Or.inr rfl)⟩
  · simp only [State.pollStep, hAt, hQueue, Bool.false_eq_true, if_false, Option.some.injEq] at hStep
    subst hStep
    exact ⟨hNotFinished, hRequest, hDispatcher, hQueue, Or.inl rfl⟩

/-- No step of any thread ends the deadlock, not even a further call of `Platform_close`. -/
theorem Deadlocked.step {e : Event φ ω κ} (h : s.Deadlocked)
    (hStep : State.step m reads s e = some t) : t.Deadlocked := by
  obtain ⟨-, hAct⟩ := step_eq_some.mp hStep
  have hNotLeft : s.poller ≠ .left := fun hLeft => h.not_gone (Or.inl hLeft)
  have hNotLocked : ∀ maxInd, s.poller ≠ .request maxInd ∧ s.poller ≠ .receive maxInd := by
    intro maxInd
    rcases h.poller with hAt | hAt | hAt <;> simp [hAt]
  cases e with
  | poll => exact h.pollStep hAct
  | pollAnswer answer =>
    obtain ⟨maxInd, hRequest, -⟩ := pollAnswered_cases hAct
    exact absurd hRequest (hNotLocked maxInd).1
  | indicate frame timestampMsEpoch remaining =>
    obtain ⟨maxInd, hReceive, -⟩ := indicated_cases hAct
    exact absurd hReceive (hNotLocked maxInd).2
  | indicationError =>
    obtain ⟨maxInd, hReceive, -⟩ := indicationError_cases hAct
    exact absurd hReceive (hNotLocked maxInd).2
  | dispatch =>
    simp only [act, dispatchStep, h.dispatcher, if_neg hNotLeft] at hAct
    cases hAct
  | wakeUp now => simp [act, wokenUp, h.dispatcher] at hAct
  | handle outcomes start finish => simp [act, handled, h.dispatcher] at hAct
  | timeoutReached party =>
    obtain ⟨hRequesting, rfl⟩ := timeoutReached_cases hAct
    cases party with
    | pollingThread =>
      rcases h.poller with hAt | hAt | hAt <;> simp [Requesting, AtRequest, hAt] at hRequesting
    | dispatchThread => simp [Requesting, h.dispatcher] at hRequesting
    | application => exact ⟨h.notFinished, rfl, h.dispatcher, h.queue, h.poller⟩
  | close party =>
    obtain ⟨hCan, rfl⟩ := close_cases hAct
    cases party with
    | pollingThread => exact hCan.elim
    | dispatchThread => simp [CanCall, h.dispatcher] at hCan
    | application => exact ⟨h.notFinished, rfl, h.dispatcher, h.queue, h.poller⟩
  | joinedPoller => simp [act, hNotLeft] at hAct
  | joinedDispatcher => simp [act, h.dispatcher] at hAct
  | lockRequest party | unlockRequest party =>
    simp only [act, Option.ite_none_right_eq_some, Option.some.injEq] at hAct
    obtain ⟨-, rfl⟩ := hAct
    exact ⟨h.notFinished, h.request, h.dispatcher, h.queue, h.poller⟩
  | configure setting | disablePollRequest disabled | setTimeoutNoAnswer durationS =>
    cases hAct
    exact ⟨h.notFinished, h.request, h.dispatcher, h.queue, h.poller⟩

theorem Deadlocked.stuck (h : s.Deadlocked) : ¬ CanReach (State.step m reads) Gone s :=
  not_canReach_of_trap (fun _ _ _ hTrap hStep => hTrap.step hStep) (fun _ hTrap => hTrap.not_gone) h

/-- The polling thread is in its loop, on the way of one that was not asked to stop. -/
def Polls : Poller → Prop
  | .start | .stopQueueCheck | .stopStoreCheck | .left | .closing | .joining => False
  | _ => True

structure Unstopped (s : State φ ρ) : Prop where
  notFinished : s.finished = false
  request : s.pollingThreadStateRequest = .run
  poller : Polls s.poller
  dispatcher : s.dispatcher ≠ .joining
  joiningDispatcher : s.joiningDispatcher = 0

theorem Unstopped.not_left (h : s.Unstopped) : s.poller ≠ .left := by
  intro hLeft
  have hPolls := h.poller
  rw [hLeft] at hPolls
  exact hPolls

theorem Unstopped.not_gone (h : s.Unstopped) : ¬ Gone s := by
  rintro (hLeft | hFinished)
  · exact h.not_left hLeft
  · rw [h.notFinished] at hFinished
    cases hFinished

theorem Unstopped.pollStep (h : s.Unstopped) (hStep : State.pollStep m reads s = some t) :
    t.Unstopped := by
  obtain ⟨hNotFinished, hRequest, hPolls, hDispatcher, hJoining⟩ := h
  have hMoves : ∀ (next : Poller) (mutex : Option Party), Polls next →
      ({ s with poller := next, sendingMutex := mutex } : State φ ρ).Unstopped :=
    fun next mutex hNext => ⟨hNotFinished, hRequest, hNext, hDispatcher, hJoining⟩
  unfold State.pollStep at hStep
  split at hStep
  case h_1 hAt | h_4 hAt | h_5 hAt | h_13 hAt | h_14 hAt =>
    rw [hAt] at hPolls
    exact hPolls.elim
  case h_12 maxInd hAt =>
    split at hStep
    · split at hStep
      · cases hStep
        exact hMoves .loop s.sendingMutex trivial
      · cases hStep
        exact hMoves (.request maxInd) _ trivial
    · cases hStep
  case h_15 | h_16 | h_17 => cases hStep
  -- the request is neither a stop nor a stop request
  case h_2 | h_3 =>
    cases hStep
    refine hMoves _ s.sendingMutex ?_
    simp only [hRequest, reduceCtorEq, if_false]
    trivial
  all_goals
    cases hStep
    refine hMoves _ s.sendingMutex ?_
    try split
    all_goals trivial

theorem Unstopped.step {e : Event φ ω κ} (h : s.Unstopped)
    (hStep : quietStep m reads s e = some t) : t.Unstopped := by
  unfold quietStep at hStep
  split at hStep
  case isFalse => cases hStep
  next hQuiet =>
  obtain ⟨-, hAct⟩ := step_eq_some.mp hStep
  have hEndPoll : s.endPoll.Unstopped :=
    ⟨h.notFinished, h.request, trivial, h.dispatcher, h.joiningDispatcher⟩
  cases e with
  | poll => exact h.pollStep hAct
  | pollAnswer answer =>
    obtain ⟨maxInd, -, rfl | rfl⟩ := pollAnswered_cases hAct
    · exact ⟨h.notFinished, h.request, trivial, h.dispatcher, h.joiningDispatcher⟩
    · exact hEndPoll
  | indicate frame timestampMsEpoch remaining =>
    obtain ⟨maxInd, -, ⟨-, rfl⟩ | rfl⟩ := indicated_cases hAct
    · exact ⟨h.notFinished, h.request, trivial, h.dispatcher, h.joiningDispatcher⟩
    · exact ⟨h.notFinished, h.request, trivial, h.dispatcher, h.joiningDispatcher⟩
  | indicationError =>
    obtain ⟨-, -, rfl⟩ := indicationError_cases hAct
    exact hEndPoll
  | dispatch =>
    cases dispatchStep_cases hAct with
    | ends hLoop hStop hStep =>
      subst hStep
      exact ⟨h.notFinished, h.request, h.poller, nofun, h.joiningDispatcher⟩
    | waits hLoop hStep =>
      subst hStep
      exact ⟨h.notFinished, h.request, h.poller, nofun, h.joiningDispatcher⟩
    | picks hLoop hEmpty hStep =>
      subst hStep
      exact ⟨h.notFinished, h.request, h.poller, nofun, h.joiningDispatcher⟩
    | completes hHandled hFree hStep =>
      subst hStep
      exact ⟨h.notFinished, h.request, h.poller, nofun, h.joiningDispatcher⟩
    | closes hJoining hLeft hStep => exact absurd hJoining h.dispatcher
  | wakeUp now =>
    obtain ⟨-, rfl | ⟨-, rfl⟩⟩ := wokenUp_cases hAct
    · exact ⟨h.notFinished, h.request, h.poller, nofun, h.joiningDispatcher⟩
    · exact ⟨h.notFinished, h.request, h.poller, nofun, h.joiningDispatcher⟩
  | handle outcomes start finish =>
    obtain ⟨-, rfl⟩ := handled_cases hAct
    exact ⟨h.notFinished, h.request, h.poller, nofun, h.joiningDispatcher⟩
  | unlockRequest party =>
    simp only [act, Option.ite_none_right_eq_some, Option.some.injEq] at hAct
    obtain ⟨-, rfl⟩ := hAct
    exact ⟨h.notFinished, h.request, h.poller, h.dispatcher, h.joiningDispatcher⟩
  | joinedPoller => simp [act, h.not_left] at hAct
  | joinedDispatcher => simp [act, h.joiningDispatcher] at hAct
  | lockRequest party | timeoutReached party | close party => cases hQuiet
  | configure setting | disablePollRequest disabled | setTimeoutNoAnswer durationS => cases hQuiet

/-- A stop request made before the polling thread starts is lost, and nothing that is under way
makes the thread leave. -/
theorem start_loses_request (hStart : s.poller = .start) (hDispatcher : s.dispatcher ≠ .joining)
    (hJoining : s.joiningDispatcher = 0) (hStep : State.step m reads s .poll = some t) :
    ¬ CanReach (quietStep m reads) Gone t := by
  obtain ⟨hNotFinished, hAct⟩ := step_eq_some.mp hStep
  simp only [act, pollStep, hStart, Option.some.injEq] at hAct
  subst hAct
  refine not_canReach_of_trap (fun _ _ _ hTrap hTaken => Unstopped.step hTrap hTaken)
    (fun _ hTrap => Unstopped.not_gone hTrap) ?_
  exact ⟨hNotFinished, rfl, trivial, hDispatcher, hJoining⟩

end State

end CMeshApi.Platform
