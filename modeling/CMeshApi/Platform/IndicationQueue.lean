import CMeshApi.Platform.Threads

/-!
# The queue between the polling and the dispatch thread

What the room computation of the polling thread knows stays true while the dispatch
thread moves on: no indication is dropped, the slot under dispatch is left alone,
and the dispatch function gets the indications inserted, in order.
-/

namespace CMeshApi.Platform

open Machine

theorem unsignedSub_of_le {a b : Nat} (hLe : b ≤ a) (hWord : a < 2 ^ 32) :
    unsignedSub a b = a - b := by
  unfold unsignedSub
  omega

namespace Indications

variable {φ : Type} {q : Indications φ} {busy : Bool}

/-- The queue agrees with its record; `busy` says that the oldest indication is in dispatch. -/
structure Sound (q : Indications φ) (busy : Bool) : Prop where
  holds : q.ring.Holds maxNumberIndicationQueue q.inserted q.completed
  dispatched_eq : q.dispatched = q.inserted.take (q.completed + busy.toNat)
  busy_lt : busy = true → q.completed < q.inserted.length

def room (q : Indications φ) : Nat :=
  q.completed + maxNumberIndicationQueue - q.inserted.length

theorem Sound.init [Inhabited φ] : (init : Indications φ).Sound false where
  holds := Ring.holds_nil _ default
  dispatched_eq := rfl
  busy_lt := by simp

theorem Sound.full_iff (h : q.Sound busy) : q.ring.Full ↔ q.room = 0 := by
  have hLe := h.holds.length_le
  rw [h.holds.full_iff (by decide), room]
  omega

theorem Sound.received (h : q.Sound busy) (ind : TimestampedFrame φ) :
    (q.onIndicationReceivedLocked ind).Sound busy := by
  unfold onIndicationReceivedLocked
  split
  · exact h
  · next hFree =>
    have hTake : q.completed + busy.toNat ≤ q.inserted.length := by
      cases hBusy : busy with
      | false => exact h.holds.done_le
      | true => exact h.busy_lt hBusy
    refine ⟨h.holds.put (by decide) hFree ind, ?_, fun hBusy => ?_⟩
    · rw [List.take_append_of_le_length hTake]
      exact h.dispatched_eq
    · have hLt := h.busy_lt hBusy
      rw [List.length_append]
      exact Nat.lt_add_right _ hLt

theorem Sound.room_received (h : q.Sound busy) (hRoom : 0 < q.room) (ind : TimestampedFrame φ) :
    (q.onIndicationReceivedLocked ind).room + 1 = q.room := by
  rw [onIndicationReceivedLocked, if_neg (mt h.full_iff.mp (Nat.ne_of_gt hRoom))]
  simp only [room, List.length_append, List.length_singleton] at hRoom ⊢
  omega

theorem Sound.pick (h : q.Sound false) (hEmpty : q.ring.empty = false) : q.pick.Sound true := by
  have hLt := h.holds.not_empty_iff.mp hEmpty
  refine ⟨h.holds, ?_, fun _ => hLt⟩
  change q.dispatched ++ [q.ring.front] = q.inserted.take (q.completed + 1)
  rw [h.dispatched_eq, h.holds.front_eq hLt]
  exact List.take_append_getElem hLt

theorem Sound.complete (h : q.Sound true) : q.complete.Sound false where
  holds := h.holds.advance (h.busy_lt rfl)
  dispatched_eq := h.dispatched_eq
  busy_lt := by simp

/-- The indication in dispatch is the last one passed to the dispatch function. -/
theorem Sound.front_eq (h : q.Sound true) : q.dispatched.getLast? = some q.ring.front := by
  have hLt := h.busy_lt rfl
  have hLast : q.dispatched = q.inserted.take q.completed ++ [q.inserted[q.completed]] := by
    rw [List.take_append_getElem hLt]
    exact h.dispatched_eq
  rw [hLast, List.getLast?_concat, h.holds.front_eq hLt]

end Indications

namespace State

variable {φ ρ ω κ : Type} {m : Services φ ρ ω κ} {reads : RoomReads} {s t : State φ ρ}

theorem pollStep_frame (h : pollStep m reads s = some t) :
    t = { s with
      pollingThreadStateRequest := t.pollingThreadStateRequest
      poller := t.poller
      dispatchThreadRunning := t.dispatchThreadRunning
      sendingMutex := t.sendingMutex
      finished := t.finished } := by
  unfold pollStep at h
  split at h
  case h_5 | h_12 | h_14 =>
    repeat' split at h
    all_goals cases h
    all_goals rfl
  all_goals cases h
  all_goals rfl

/-- What a step does to the queue and to the threads at its two ends. -/
inductive QueueStep (m : Services φ ρ ω κ) (reads : RoomReads) (s t : State φ ρ) : Prop where
  | quiet (hIndications : t.indications = s.indications)
      (hHandler : t.dispatcher.InHandler ↔ s.dispatcher.InHandler)
      (hPoller : t.poller = s.poller ∨ t.poller = .loop ∨ t.poller = .closing)
  | polls (hPoll : pollStep m reads s = some t)
  | answered (maxInd : Nat) (hRequest : s.poller = .request maxInd)
      (hStep : t = { s with poller := .receive (maxInd - 1) })
  | inserts (maxInd : Nat) (ind : TimestampedFrame φ) (hReceive : s.poller = .receive maxInd)
      (hIndications : t.indications = s.indications.onIndicationReceivedLocked ind)
      (hDispatcher : t.dispatcher = s.dispatcher)
      (hPoller : t.poller = .loop ∨ (maxInd ≠ 0 ∧ t.poller = .receive (maxInd - 1)))
  | picks (hIdle : ¬ s.dispatcher.InHandler) (hEmpty : s.indications.ring.empty = false)
      (hIndications : t.indications = s.indications.pick) (hBusy : t.dispatcher.InHandler)
      (hPoller : t.poller = s.poller)
  | completes (hBusy : s.dispatcher.InHandler)
      (hIndications : t.indications = s.indications.complete) (hIdle : ¬ t.dispatcher.InHandler)
      (hPoller : t.poller = s.poller)

theorem pollAnswered_queueStep {answer : PollAnswer} (h : pollAnswered s answer = some t) :
    QueueStep m reads s t := by
  obtain ⟨maxInd, hRequest, hStep⟩ := pollAnswered_cases h
  rcases hStep with hMore | rfl
  · exact .answered maxInd hRequest hMore
  · exact .quiet rfl Iff.rfl (Or.inr (Or.inl rfl))

theorem indicated_queueStep {ind : TimestampedFrame φ} {remaining : UInt8}
    (h : indicated s ind remaining = some t) : QueueStep m reads s t := by
  obtain ⟨maxInd, hReceive, hStep⟩ := indicated_cases h
  rcases hStep with ⟨hMore, rfl⟩ | rfl
  · exact .inserts maxInd ind hReceive rfl rfl (Or.inr ⟨hMore, rfl⟩)
  · exact .inserts maxInd ind hReceive rfl rfl (Or.inl rfl)

theorem dispatchStep_queueStep (h : dispatchStep s = some t) : QueueStep m reads s t := by
  cases dispatchStep_cases h with
  | ends hLoop hStop hStep =>
    subst hStep
    exact .quiet rfl (iff_of_false id (by rw [hLoop]; exact id)) (Or.inl rfl)
  | waits hLoop hStep =>
    subst hStep
    exact .quiet rfl (iff_of_false id (by rw [hLoop]; exact id)) (Or.inl rfl)
  | picks hLoop hEmpty hStep =>
    subst hStep
    exact .picks (by rw [hLoop]; exact id) hEmpty rfl trivial rfl
  | completes hHandled hFree hStep =>
    subst hStep
    exact .completes (by rw [hHandled]; trivial) rfl id rfl
  | closes hJoining hLeft hStep =>
    subst hStep
    exact .quiet rfl Iff.rfl (Or.inl rfl)

theorem wokenUp_queueStep {now : Nat} (h : wokenUp m s now = some t) :
    QueueStep m reads s t := by
  obtain ⟨hWaiting, hStep⟩ := wokenUp_cases h
  have hIdle : ¬ s.dispatcher.InHandler := by
    rw [hWaiting]
    exact id
  rcases hStep with rfl | ⟨hEmpty, rfl⟩
  · exact .quiet rfl (iff_of_false id hIdle) (Or.inl rfl)
  · exact .picks hIdle hEmpty rfl trivial rfl

theorem handled_queueStep {outcomes : ω} {start finish : Nat}
    (h : handled m s outcomes start finish = some t) : QueueStep m reads s t := by
  obtain ⟨hDispatching, rfl⟩ := handled_cases h
  exact .quiet rfl (iff_of_true trivial (by rw [hDispatching]; trivial)) (Or.inl rfl)

theorem platformClose_queueStep {party : Party} {mutex : Option Party}
    (h : party = .dispatchThread → s.dispatcher.InHandler) :
    QueueStep m reads s (platformClose { s with sendingMutex := mutex } party) := by
  cases party with
  | pollingThread => exact .quiet rfl Iff.rfl (Or.inr (Or.inr rfl))
  | dispatchThread => exact .quiet rfl (iff_of_true trivial (h rfl)) (Or.inl rfl)
  | application => exact .quiet rfl Iff.rfl (Or.inl rfl)

theorem inHandler_of_canCall (h : s.CanCall .dispatchThread) : s.dispatcher.InHandler := by
  rcases h.1 with hAt | hAt <;> rw [hAt] <;> trivial

theorem inHandler_of_requesting (h : s.Requesting .dispatchThread) : s.dispatcher.InHandler := by
  rcases h.1 with hAt | hAt <;> rw [hAt] <;> trivial

theorem step_queueStep {e : Event φ ω κ} (h : step m reads s e = some t) :
    QueueStep m reads s t := by
  obtain ⟨-, h⟩ := step_eq_some.mp h
  cases e with
  | poll => exact .polls h
  | pollAnswer answer => exact pollAnswered_queueStep h
  | indicate frame timestampMsEpoch remaining => exact indicated_queueStep h
  | indicationError =>
    obtain ⟨-, -, rfl⟩ := indicationError_cases h
    exact .quiet rfl Iff.rfl (Or.inr (Or.inl rfl))
  | dispatch => exact dispatchStep_queueStep h
  | wakeUp now => exact wokenUp_queueStep h
  | handle outcomes start finish => exact handled_queueStep h
  | timeoutReached party =>
    obtain ⟨hRequesting, rfl⟩ := timeoutReached_cases h
    exact platformClose_queueStep fun hParty => inHandler_of_requesting (hParty ▸ hRequesting)
  | close party =>
    obtain ⟨hCan, rfl⟩ := close_cases h
    exact platformClose_queueStep fun hParty => inHandler_of_canCall (hParty ▸ hCan)
  | lockRequest party | unlockRequest party | joinedPoller | joinedDispatcher | configure setting
  | disablePollRequest disabled | setTimeoutNoAnswer durationS =>
    have hSame := act_aside h trivial
    exact .quiet hSame.indications (by rw [hSame.dispatcher]) (Or.inl hSame.poller)

end State

/-- The places of the room computation behind its first test, and of the poll that follows. -/
def Poller.InRoom : Poller → Prop
  | .emptyFlag | .compare | .subtract _ | .limit _ | .getIndication _ | .request _ | .receive _ => True
  | _ => False

namespace State

variable {φ ρ ω κ : Type} {m : Services φ ρ ω κ} {reads : RoomReads} {s t : State φ ρ}

/-- A step of the polling thread within the room computation, and the one that leads to the poll. -/
inductive RoomStep (reads : RoomReads) (s t : State φ ρ) : Prop where
  | foundEmpty (hEmpty : s.indications.ring.empty = true) (hStep : t = { s with poller := .emptyFlag })
  | foundApart (hApart : s.indications.ring.write ≠ s.indications.ring.read)
      (hStep : t = { s with poller := .emptyFlag })
  | takesAll (hAt : s.poller = .emptyFlag) (hEmpty : s.indications.ring.empty = true)
      (hStep : t = { s with poller := .limit maxNumberIndicationQueue })
  | findsUsed (hAt : s.poller = .emptyFlag) (hStep : t = { s with poller := .compare })
  | computes (hAt : s.poller = .compare) (hOnce : reads = .once)
      (hStep : t = { s with poller := .limit (freeBufferRoom
        (s.indications.ring.read < s.indications.ring.write) s.indications.ring.write
        s.indications.ring.read) })
  | compares (hAt : s.poller = .compare) (hAgain : reads = .again)
      (hStep : t = { s with
        poller := .subtract (s.indications.ring.read < s.indications.ring.write) })
  | subtracts (writeAbove : Bool) (hAt : s.poller = .subtract writeAbove)
      (hStep : t = { s with poller := .limit (freeBufferRoom writeAbove s.indications.ring.write
        s.indications.ring.read) })
  | limits (room : Nat) (hAt : s.poller = .limit room)
      (hStep : t = { s with poller := .getIndication (if s.pollingThreadStateRequest = .stopRequested
        then 1 else min maxNumberIndication room) })
  | asks (maxInd : Nat) (hAt : s.poller = .getIndication maxInd) (hSome : maxInd ≠ 0)
      (hStep : t = { s with poller := .request maxInd, sendingMutex := some .pollingThread })
  | outside (hIndications : t.indications = s.indications) (hOutside : ¬ t.poller.InRoom)

theorem pollStep_roomStep (h : pollStep m reads s = some t) : RoomStep reads s t := by
  unfold pollStep at h
  split at h
  case h_6 hAt =>
    cases h
    cases hEmpty : s.indications.ring.empty with
    | true => exact .foundEmpty hEmpty rfl
    | false => exact .outside rfl id
  case h_7 hAt =>
    cases h
    by_cases hSame : s.indications.ring.write = s.indications.ring.read
    · rw [if_pos hSame]
      exact .outside rfl id
    · exact .foundApart hSame (by rw [if_neg hSame])
  case h_8 hAt =>
    cases h
    cases hEmpty : s.indications.ring.empty with
    | true => exact .takesAll hAt hEmpty rfl
    | false => exact .findsUsed hAt rfl
  case h_9 hAt =>
    cases h
    cases hReads : reads with
    | once => exact .computes hAt rfl rfl
    | again => exact .compares hAt rfl rfl
  case h_10 writeAbove hAt =>
    cases h
    exact .subtracts writeAbove hAt rfl
  case h_11 room hAt =>
    cases h
    exact .limits room hAt rfl
  case h_12 maxInd hAt =>
    split at h
    · split at h
      · cases h
        exact .outside rfl id
      · next hGo =>
        cases h
        exact .asks maxInd hAt (fun hZero => hGo (Or.inr hZero)) rfl
    · cases h
  case h_14 hAt =>
    split at h <;> cases h
    exact .outside rfl (by rw [hAt]; exact id)
  -- the steps at the other places, which lead neither into the computation nor on in it
  all_goals try split at h
  all_goals cases h
  all_goals refine .outside rfl ?_
  all_goals dsimp only
  all_goals try split
  all_goals exact id

end State

/-- What the polling thread has found out holds of the free slots. In `subtract` it knows
nothing, and only the room computation that reads its indices again gets there. -/
def Poller.Fits (p : Poller) (room : Nat) : Prop :=
  match p with
  | .emptyFlag | .compare => 0 < room
  | .limit freeBufferRoom => freeBufferRoom ≤ room ∧ 0 < room
  | .getIndication maxInd => maxInd ≤ room
  | .request maxInd => 0 < maxInd ∧ maxInd ≤ room
  | .receive maxInd => maxInd < room
  | .subtract _ => False
  | _ => True

theorem Poller.fits_outside {p : Poller} {room : Nat} (h : ¬ p.InRoom) : p.Fits room := by
  cases p <;> first | trivial | exact absurd trivial h

theorem Poller.Fits.mono {p : Poller} {room room' : Nat} (h : p.Fits room) (hLe : room ≤ room') :
    p.Fits room' := by
  cases p with
  | emptyFlag | compare => exact Nat.lt_of_lt_of_le h hLe
  | limit freeBufferRoom => exact ⟨Nat.le_trans h.1 hLe, Nat.lt_of_lt_of_le h.2 hLe⟩
  | getIndication maxInd => exact Nat.le_trans h hLe
  | request maxInd => exact ⟨h.1, Nat.le_trans h.2 hLe⟩
  | receive maxInd => exact Nat.lt_of_lt_of_le h hLe
  | subtract writeAbove => exact h
  | _ => trivial

namespace State

variable {φ ρ ω κ : Type} {m : Services φ ρ ω κ} {s t : State φ ρ}

theorem freeBufferRoom_le {q : Indications φ} {busy : Bool} (h : q.Sound busy)
    (hRoom : 0 < q.room) :
    freeBufferRoom (q.ring.read < q.ring.write) q.ring.write q.ring.read ≤ q.room := by
  have hHolds := h.holds
  have hWrite : q.ring.write < maxNumberIndicationQueue := by
    rw [hHolds.write_eq]
    exact Nat.mod_lt _ (by decide)
  have hRead : q.ring.read < maxNumberIndicationQueue := by
    rw [hHolds.read_eq]
    exact Nat.mod_lt _ (by decide)
  have hNotFull : q.inserted.length < q.completed + maxNumberIndicationQueue := by
    unfold Indications.room at hRoom
    omega
  obtain ⟨hAbove, hBelow⟩ := hHolds.room (by decide) hNotFull
  have hSize : maxNumberIndicationQueue = 60 := rfl
  unfold freeBufferRoom Indications.room
  by_cases hLt : q.ring.read < q.ring.write
  · rw [if_pos (decide_eq_true hLt), unsignedSub_of_le (Nat.le_of_lt hLt) (by omega),
      unsignedSub_of_le (by omega) (by omega)]
    exact Nat.le_of_eq (hAbove hLt)
  · rw [if_neg (by simpa using hLt), unsignedSub_of_le (Nat.le_of_not_lt hLt) (by omega)]
    exact hBelow (Nat.le_of_not_lt hLt)

theorem fits_pollStep {busy : Bool} (hSound : s.indications.Sound busy)
    (hFits : s.poller.Fits s.indications.room) (h : pollStep m .once s = some t) :
    t.poller.Fits t.indications.room := by
  have hEmptyRoom : s.indications.ring.empty = true →
      s.indications.room = maxNumberIndicationQueue := by
    intro hEmpty
    rw [Indications.room, hSound.holds.empty_iff.mp hEmpty, Nat.add_sub_cancel_left]
  cases pollStep_roomStep h with
  | foundEmpty hEmpty hStep =>
    subst hStep
    change 0 < s.indications.room
    rw [hEmptyRoom hEmpty]
    decide
  | foundApart hApart hStep =>
    subst hStep
    exact Nat.pos_of_ne_zero fun hZero => hApart (hSound.full_iff.mpr hZero).2
  | takesAll hAt hEmpty hStep =>
    subst hStep
    rw [hAt] at hFits
    exact ⟨Nat.le_of_eq (hEmptyRoom hEmpty).symm, hFits⟩
  | findsUsed hAt hStep =>
    subst hStep
    rw [hAt] at hFits
    exact hFits
  | computes hAt _ hStep =>
    subst hStep
    rw [hAt] at hFits
    exact ⟨freeBufferRoom_le hSound hFits, hFits⟩
  | compares _ hAgain _ => cases hAgain
  | subtracts writeAbove hAt _ =>
    rw [hAt] at hFits
    exact hFits.elim
  | limits room hAt hStep =>
    subst hStep
    rw [hAt] at hFits
    dsimp only
    split
    · exact hFits.2
    · exact Nat.le_trans (Nat.min_le_right _ _) hFits.1
  | asks maxInd hAt hSome hStep =>
    subst hStep
    rw [hAt] at hFits
    exact ⟨Nat.pos_of_ne_zero hSome, hFits⟩
  | outside _ hOutside => exact Poller.fits_outside hOutside

theorem slot_received {q : Indications φ} (h : q.Sound true) (ind : TimestampedFrame φ) :
    (q.onIndicationReceivedLocked ind).ring.cells q.ring.read = q.ring.cells q.ring.read := by
  unfold Indications.onIndicationReceivedLocked
  split
  · rfl
  · next hFree =>
    have hBusy : q.ring.empty = false := h.holds.not_empty_iff.mpr (h.busy_lt rfl)
    exact Ring.front_put fun hEq => hFree ⟨hBusy, hEq⟩

def QueueSound (s : State φ ρ) : Prop :=
  s.indications.Sound (decide s.dispatcher.InHandler)

theorem queueSound_init [Inhabited φ] (receiver : ρ) (clock : Nat) :
    (State.init receiver clock : State φ ρ).QueueSound := Indications.Sound.init

theorem pollStep_indications {reads : RoomReads} (h : pollStep m reads s = some t) :
    t.indications = s.indications ∧ t.dispatcher = s.dispatcher := by
  rw [pollStep_frame h]
  exact ⟨rfl, rfl⟩

theorem QueueSound.step {reads : RoomReads} {e : Event φ ω κ} (hSound : s.QueueSound)
    (h : State.step m reads s e = some t) : t.QueueSound := by
  unfold QueueSound at hSound ⊢
  cases step_queueStep h with
  | quiet hIndications hHandler hPoller =>
    rw [hIndications, decide_eq_decide.mpr hHandler]
    exact hSound
  | polls hPoll =>
    obtain ⟨hIndications, hDispatcher⟩ := pollStep_indications hPoll
    rw [hIndications, hDispatcher]
    exact hSound
  | answered maxInd hRequest hStep =>
    rw [hStep]
    exact hSound
  | inserts maxInd ind hReceive hIndications hDispatcher hPoller =>
    rw [hIndications, hDispatcher]
    exact hSound.received ind
  | picks hIdle hEmpty hIndications hBusy hPoller =>
    rw [decide_eq_false hIdle] at hSound
    rw [hIndications, decide_eq_true hBusy]
    exact hSound.pick hEmpty
  | completes hBusy hIndications hIdle hPoller =>
    rw [decide_eq_true hBusy] at hSound
    rw [hIndications, decide_eq_false hIdle]
    exact hSound.complete

/-- The queue agrees with its record, and with what the polling thread knows. -/
structure QueueInv (s : State φ ρ) : Prop where
  sound : s.QueueSound
  fits : s.poller.Fits s.indications.room

theorem queueInv_init [Inhabited φ] (receiver : ρ) (clock : Nat) :
    (State.init receiver clock : State φ ρ).QueueInv := ⟨queueSound_init receiver clock, trivial⟩

theorem QueueInv.fits_step {e : Event φ ω κ} (hInv : s.QueueInv)
    (h : State.step m .once s e = some t) : t.poller.Fits t.indications.room := by
  have hFits := hInv.fits
  cases step_queueStep h with
  | quiet hIndications hHandler hPoller =>
    rw [hIndications]
    rcases hPoller with hSame | hLoop | hClosing
    · rw [hSame]
      exact hFits
    · rw [hLoop]
      trivial
    · rw [hClosing]
      trivial
  | polls hPoll => exact fits_pollStep hInv.sound hFits hPoll
  | answered maxInd hRequest hStep =>
    rw [hRequest] at hFits
    rw [hStep]
    change maxInd - 1 < s.indications.room
    have hPos : 0 < maxInd := hFits.1
    have hLe : maxInd ≤ s.indications.room := hFits.2
    omega
  | inserts maxInd ind hReceive hIndications hDispatcher hPoller =>
    rw [hReceive] at hFits
    have hRoom := hInv.sound.room_received (Nat.zero_lt_of_lt hFits) ind
    rcases hPoller with hLoop | ⟨hMore, hNext⟩
    · rw [hLoop]
      trivial
    · rw [hNext, hIndications]
      change maxInd - 1 < _
      change maxInd < _ at hFits
      omega
  | picks hIdle hEmpty hIndications hBusy hPoller =>
    rw [hPoller, hIndications]
    exact hFits
  | completes hBusy hIndications hIdle hPoller =>
    rw [hPoller, hIndications]
    refine hFits.mono ?_
    simp only [Indications.room, Indications.complete]
    omega

theorem QueueInv.step {e : Event φ ω κ} (hInv : s.QueueInv)
    (h : State.step m .once s e = some t) : t.QueueInv := ⟨hInv.sound.step h, hInv.fits_step h⟩

/-- The event makes `onIndicationReceivedLocked` drop its indication. -/
def Drops (s : State φ ρ) : Event φ ω κ → Prop
  | .indicate _ _ _ => s.indications.ring.Full
  | _ => False

/-- The content of the slot under dispatch changes in the step. -/
def Overwrites (s t : State φ ρ) : Prop :=
  s.dispatcher.InHandler ∧
    t.indications.ring.cells s.indications.ring.read ≠ s.indications.ring.front

/-- The dispatch function got the indications inserted, in order and each once: all of them
when the queue is empty, and until then those completed and the one it is working on. -/
structure DispatchedInOrder (s : State φ ρ) : Prop where
  inOrder : s.indications.dispatched <+: s.indications.inserted
  started : s.indications.dispatched.length =
    s.indications.completed + if s.dispatcher.InHandler then 1 else 0
  all : s.indications.ring.empty = true → s.indications.dispatched = s.indications.inserted
  current : s.dispatcher.InHandler →
    s.indications.dispatched.getLast? = some s.indications.ring.front

theorem QueueSound.dispatchedInOrder (h : s.QueueSound) : s.DispatchedInOrder := by
  unfold QueueSound at h
  have hLe := h.holds.done_le
  by_cases hBusy : s.dispatcher.InHandler
  · rw [decide_eq_true hBusy] at h
    have hLt := h.busy_lt rfl
    refine ⟨?_, ?_, fun hEmpty => ?_, fun _ => h.front_eq⟩
    · rw [h.dispatched_eq]
      exact List.take_prefix _ _
    · rw [h.dispatched_eq, if_pos hBusy]
      exact List.length_take_of_le hLt
    · have hDone := h.holds.empty_iff.mp hEmpty
      omega
  · rw [decide_eq_false hBusy] at h
    refine ⟨?_, ?_, fun hEmpty => ?_, fun hIn => absurd hIn hBusy⟩
    · rw [h.dispatched_eq]
      exact List.take_prefix _ _
    · rw [h.dispatched_eq, if_neg hBusy]
      exact List.length_take_of_le hLe
    · rw [h.dispatched_eq, h.holds.empty_iff.mp hEmpty]
      exact List.take_length

theorem QueueSound.not_overwrites {reads : RoomReads} {e : Event φ ω κ} (hSound : s.QueueSound)
    (h : State.step m reads s e = some t) : ¬ s.Overwrites t := by
  rintro ⟨hBusy, hChanged⟩
  unfold QueueSound at hSound
  rw [decide_eq_true hBusy] at hSound
  apply hChanged
  cases step_queueStep h with
  | quiet hIndications hHandler hPoller =>
    rw [hIndications]
    rfl
  | polls hPoll =>
    rw [(pollStep_indications hPoll).1]
    rfl
  | answered maxInd hRequest hStep =>
    rw [hStep]
    rfl
  | inserts maxInd ind hReceive hIndications hDispatcher hPoller =>
    rw [hIndications]
    exact slot_received hSound ind
  | picks hIdle hEmpty hIndications hIn hPoller => exact absurd hBusy hIdle
  | completes hIn hIndications hIdle hPoller =>
    rw [hIndications]
    rfl

theorem QueueInv.not_drops {e : Event φ ω κ} (hInv : s.QueueInv)
    (h : State.step m .once s e = some t) : ¬ s.Drops e := by
  cases e with
  | indicate frame timestampMsEpoch remaining =>
    intro hFull
    have hRoom : s.indications.room = 0 := hInv.sound.full_iff.mp hFull
    have hFits := hInv.fits
    obtain ⟨-, h⟩ := step_eq_some.mp h
    obtain ⟨maxInd, hReceive, -⟩ := indicated_cases h
    rw [hReceive, hRoom] at hFits
    exact Nat.not_lt_zero _ hFits
  | _ => exact id

theorem indications_dispatched_in_order [Inhabited φ] (m : Services φ ρ ω κ) (receiver : ρ)
    (clock : Nat) (events : List (Event φ ω κ)) (t : State φ ρ)
    (hRun : run (step m .once) (.init receiver clock) events = some t) :
    t.DispatchedInOrder ∧
      ∀ s e u, Takes (step m .once) (.init receiver clock) events s e →
        step m .once s e = some u → ¬ s.Drops e ∧ ¬ s.Overwrites u := by
  have hStep : ∀ (s : State φ ρ) (e : Event φ ω κ) (u : State φ ρ),
      s.QueueInv → step m .once s e = some u → u.QueueInv := fun _ _ _ hInv h => hInv.step h
  constructor
  · have hInv := run_invariant' hStep (queueInv_init receiver clock) hRun
    exact hInv.sound.dispatchedInOrder
  · intro s e u hTakes hTaken
    have hInv := hTakes.invariant' hStep (queueInv_init receiver clock)
    exact ⟨hInv.not_drops hTaken, hInv.sound.not_overwrites hTaken⟩

/-- The polling thread fetches two indications, and the first one is dispatched. -/
def twoIndications : List (Event Nat Unit Unit) :=
  List.replicate 7 .poll ++
    [.pollAnswer .pending, .indicate 7 100 1, .dispatch, .indicate 8 101 0,
      .handle () 1 2, .dispatch]

theorem indications_dispatched_in_order_two :
    ∃ t, run (step ⟨fun r _ _ _ _ => r, fun r _ => r, fun _ => true, fun r _ => r⟩ .once)
        (.init () 0) twoIndications = some t ∧
      t.indications.inserted = [⟨7, 100⟩, ⟨8, 101⟩] ∧ t.indications.dispatched = [⟨7, 100⟩] ∧
      t.DispatchedInOrder :=
  ⟨_, rfl, rfl, rfl, (indications_dispatched_in_order _ () 0 twoIndications _ rfl).1⟩

end State

end CMeshApi.Platform
