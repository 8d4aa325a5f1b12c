import CMeshApi.Platform.IndicationQueue
import CMeshApi.Platform.StopRequest

/-!
# The room computation between two stores

The polling thread computes the room in the queue without the queue lock, and the dispatch
thread removes an indication with two stores, one of the read index and one of the emptiness
flag. Each read of the one can fall between the stores of the other.
-/

namespace CMeshApi.Platform

open Machine

namespace Indications

variable {φ : Type} {q : Indications φ} {busy : Bool}

/-- The first store at the end of a dispatch. It frees the slot. -/
def advanceRead (q : Indications φ) : Indications φ :=
  { q with
    ring := { q.ring with read := (q.ring.read + 1) % maxNumberIndicationQueue }
    completed := q.completed + 1 }

/-- The second one, if the indication was the last one. -/
def noteEmpty (q : Indications φ) : Indications φ :=
  { q with ring := { q.ring with empty := if q.ring.read = q.ring.write then true else q.ring.empty } }

theorem noteEmpty_advanceRead (q : Indications φ) : q.advanceRead.noteEmpty = q.complete := rfl

/-- What the flag and the indices tell, whether or not the second store has been made. -/
structure Told (q : Indications φ) : Prop where
  empty : q.ring.empty = true → q.room = maxNumberIndicationQueue
  apart : q.ring.write ≠ q.ring.read → 0 < q.room
  read_lt : q.ring.read < maxNumberIndicationQueue
  write_lt : q.ring.write < maxNumberIndicationQueue
  above : 0 < q.room → q.ring.read < q.ring.write →
    q.completed + (q.ring.write - q.ring.read) = q.inserted.length
  below : 0 < q.room → q.ring.write < q.ring.read → q.ring.read - q.ring.write ≤ q.room

theorem Sound.told (h : q.Sound busy) : q.Told := by
  have hHolds := h.holds
  have hLe := hHolds.done_le
  have hSize : maxNumberIndicationQueue = 60 := rfl
  have hWrite : q.ring.write < maxNumberIndicationQueue := by
    rw [hHolds.write_eq]
    exact Nat.mod_lt _ (by decide)
  have hRead : q.ring.read < maxNumberIndicationQueue := by
    rw [hHolds.read_eq]
    exact Nat.mod_lt _ (by decide)
  have hIndices (hRoom : 0 < q.room) := hHolds.room (by decide) (show
    q.inserted.length < q.completed + maxNumberIndicationQueue by
      unfold room at hRoom
      omega)
  refine ⟨fun hEmpty => ?_, fun hApart => ?_, hRead, hWrite, fun hRoom hAbove => ?_,
    fun hRoom hBelow => (hIndices hRoom).2 (Nat.le_of_lt hBelow)⟩
  · rw [room, hHolds.empty_iff.mp hEmpty, Nat.add_sub_cancel_left]
  · exact Nat.pos_of_ne_zero fun hZero => hApart (h.full_iff.mpr hZero).2
  · have hUsed := (hIndices hRoom).1 hAbove
    omega

theorem told_of_noteEmpty (h : q.noteEmpty.Told) : q.Told where
  empty hEmpty := h.empty (by simp [noteEmpty, hEmpty])
  apart := h.apart
  read_lt := h.read_lt
  write_lt := h.write_lt
  above := h.above
  below := h.below

end Indications

/-- The threads, with the dispatch thread between its two stores or not. -/
structure Interleaved (φ ρ : Type) where
  state : State φ ρ
  midway : Bool

namespace Interleaved

variable {φ ρ ω κ : Type}

def init [Inhabited φ] (receiver : ρ) (clock : Nat) : Interleaved φ ρ := ⟨.init receiver clock, false⟩

def dispatchStep (s : Interleaved φ ρ) : Option (Interleaved φ ρ) :=
  if s.midway then some ⟨{ s.state with indications := s.state.indications.noteEmpty }, false⟩
  else if s.state.dispatcher = .handled then
    if s.state.sendingMutex = some .dispatchThread then none
    else some ⟨{ s.state with
      indications := s.state.indications.advanceRead
      dispatcher := .loop }, true⟩
  else (State.dispatchStep s.state).map fun t => ⟨t, false⟩

/-- An indication is inserted under the queue lock, so not between the two stores. -/
def act (m : Services φ ρ ω κ) (s : Interleaved φ ρ) : Event φ ω κ → Option (Interleaved φ ρ)
  | .dispatch => s.dispatchStep
  | .indicate frame timestampMsEpoch remaining =>
    if s.midway then none
    else (State.act m .again s.state (.indicate frame timestampMsEpoch remaining)).map fun t => ⟨t, false⟩
  | e => (State.act m .again s.state e).map fun t => ⟨t, s.midway⟩

def step (m : Services φ ρ ω κ) : Step (Interleaved φ ρ) (Event φ ω κ) :=
  fun s e => if s.state.finished then none else act m s e

section Steps

variable {m : Services φ ρ ω κ} {s t : Interleaved φ ρ} {e : Event φ ω κ}

/-- Neither a step of the dispatch thread nor an insertion. -/
def Beside : Event φ ω κ → Prop
  | .dispatch | .indicate _ _ _ => False
  | _ => True

inductive InterleavedStep (m : Services φ ρ ω κ) (e : Event φ ω κ) (s t : Interleaved φ ρ) : Prop where
  | advances (hWhole : s.midway = false) (hHandled : s.state.dispatcher = .handled)
      (hStep : t = ⟨{ s.state with
        indications := s.state.indications.advanceRead, dispatcher := .loop }, true⟩)
  | notes (hMidway : s.midway = true)
      (hStep : t = ⟨{ s.state with indications := s.state.indications.noteEmpty }, false⟩)
  | whole (hWhole : s.midway = false) (hEnd : t.midway = false)
      (hStep : State.step m .again s.state e = some t.state)
  | beside (hMidway : s.midway = true) (hEnd : t.midway = true) (hBeside : Beside e)
      (hStep : State.step m .again s.state e = some t.state)

theorem act_beside (h : Beside e) :
    act m s e = (State.act m .again s.state e).map fun t => ⟨t, s.midway⟩ := by
  cases e <;> first | rfl | exact h.elim

theorem step_cases (h : step m s e = some t) : InterleavedStep m e s t := by
  have hRunning : s.state.finished = false := by
    by_contra hFinished
    rw [step, if_pos (by simpa using hFinished)] at h
    cases h
  rw [step, hRunning, if_neg (by decide)] at h
  have hLifted {u : State φ ρ} (hAct : State.act m .again s.state e = some u) :
      State.step m .again s.state e = some u := State.step_eq_some.mpr ⟨hRunning, hAct⟩
  by_cases hBeside : Beside e
  · rw [act_beside hBeside] at h
    obtain ⟨u, hAct, rfl⟩ := Option.map_eq_some_iff.mp h
    cases hMidway : s.midway with
    | false => exact .whole hMidway rfl (hLifted hAct)
    | true => exact .beside hMidway rfl hBeside (hLifted hAct)
  · cases e with
    | dispatch =>
      change s.dispatchStep = some t at h
      unfold dispatchStep at h
      split at h
      · next hMidway => exact .notes hMidway (Option.some.inj h).symm
      · next hWhole =>
        have hWhole := eq_false_of_ne_true hWhole
        split at h
        · next hHandled =>
          split at h
          · cases h
          · exact .advances hWhole hHandled (Option.some.inj h).symm
        · obtain ⟨u, hAct, rfl⟩ := Option.map_eq_some_iff.mp h
          exact .whole hWhole rfl (hLifted hAct)
    | indicate frame timestampMsEpoch remaining =>
      simp only [act] at h
      split at h
      · cases h
      · next hWhole =>
        obtain ⟨u, hAct, rfl⟩ := Option.map_eq_some_iff.mp h
        exact .whole (eq_false_of_ne_true hWhole) rfl (hLifted hAct)
    | _ => exact absurd trivial hBeside

/-- The queue as it is when the dispatch thread releases the lock. -/
def queue (s : Interleaved φ ρ) : Indications φ :=
  if s.midway then s.state.indications.noteEmpty else s.state.indications

structure QueueSound (s : Interleaved φ ρ) : Prop where
  sound : s.queue.Sound (decide s.state.dispatcher.InHandler)
  midway : s.midway = true → s.state.dispatcher = .loop

theorem queueSound_init [Inhabited φ] (receiver : ρ) (clock : Nat) :
    (init receiver clock : Interleaved φ ρ).QueueSound := ⟨Indications.Sound.init, nofun⟩

theorem QueueSound.told (h : s.QueueSound) : s.state.indications.Told := by
  have hTold := h.sound.told
  unfold queue at hTold
  split at hTold
  · exact Indications.told_of_noteEmpty hTold
  · exact hTold

/-- Beside the dispatch thread between its stores, nothing happens to the queue. -/
theorem beside_indications {u v : State φ ρ} (hBeside : Beside e) (hLoop : u.dispatcher = .loop)
    (h : State.step m .again u e = some v) :
    v.indications = u.indications ∧ v.dispatcher = .loop := by
  obtain ⟨-, h⟩ := State.step_eq_some.mp h
  cases e with
  | poll =>
    have hPoll : State.pollStep m .again u = some v := h
    obtain ⟨hIndications, hDispatcher⟩ := State.pollStep_indications hPoll
    exact ⟨hIndications, hDispatcher.trans hLoop⟩
  | pollAnswer answer =>
    obtain ⟨maxInd, -, rfl | rfl⟩ := State.pollAnswered_cases h <;> exact ⟨rfl, hLoop⟩
  | indicate frame timestampMsEpoch remaining => exact hBeside.elim
  | indicationError =>
    obtain ⟨maxInd, -, rfl⟩ := State.indicationError_cases h
    exact ⟨rfl, hLoop⟩
  | dispatch => exact hBeside.elim
  | wakeUp now =>
    obtain ⟨hWaiting, -⟩ := State.wokenUp_cases h
    rw [hLoop] at hWaiting
    cases hWaiting
  | handle outcomes start finish =>
    obtain ⟨hDispatching, -⟩ := State.handled_cases h
    rw [hLoop] at hDispatching
    cases hDispatching
  | timeoutReached party =>
    obtain ⟨hRequesting, rfl⟩ := State.timeoutReached_cases h
    cases party with
    | dispatchThread => rcases hRequesting.1 with hAt | hAt <;> rw [hLoop] at hAt <;> cases hAt
    | pollingThread | application => exact ⟨rfl, hLoop⟩
  | close party =>
    obtain ⟨hCan, rfl⟩ := State.close_cases h
    cases party with
    | dispatchThread => rcases hCan.1 with hAt | hAt <;> rw [hLoop] at hAt <;> cases hAt
    | pollingThread | application => exact ⟨rfl, hLoop⟩
  | lockRequest party | unlockRequest party | joinedPoller | joinedDispatcher | configure setting
  | disablePollRequest disabled | setTimeoutNoAnswer durationS =>
    have hSame := State.act_aside h trivial
    exact ⟨hSame.indications, hSame.dispatcher.trans hLoop⟩

theorem QueueSound.step (hSound : s.QueueSound) (h : Interleaved.step m s e = some t) :
    t.QueueSound := by
  obtain ⟨hQueue, hLoop⟩ := hSound
  unfold queue at hQueue
  cases step_cases h with
  | advances hWhole hHandled hStep =>
    subst hStep
    rw [hWhole, if_neg (by decide), hHandled] at hQueue
    exact ⟨hQueue.complete, fun _ => rfl⟩
  | notes hMidway hStep =>
    subst hStep
    rw [hMidway, if_pos rfl] at hQueue
    exact ⟨hQueue, nofun⟩
  | whole hWhole hEnd hStep =>
    rw [hWhole, if_neg (by decide)] at hQueue
    refine ⟨?_, fun hMidway => absurd hMidway (by simp [hEnd])⟩
    rw [queue, hEnd, if_neg (by decide)]
    exact State.QueueSound.step hQueue hStep
  | beside hMidway hEnd hBeside hStep =>
    obtain ⟨hIndications, hStill⟩ := beside_indications hBeside (hLoop hMidway) hStep
    rw [hMidway, if_pos rfl, hLoop hMidway] at hQueue
    refine ⟨?_, fun _ => hStill⟩
    rw [queue, hEnd, if_pos rfl, hIndications, hStill]
    exact hQueue

end Steps

end Interleaved

/-- What the polling thread knows of the queue at each place of the room computation. A stop that
is requested makes the room unimportant. -/
def Poller.Knows {φ : Type} (p : Poller) (q : Indications φ) (stopping : Prop) : Prop :=
  match p with
  | .emptyFlag | .compare | .subtract false => 0 < q.room
  | .subtract true =>
    0 < q.room ∧ q.ring.read ≤ q.ring.write ∧
      q.completed + (q.ring.write - q.ring.read) = q.inserted.length
  | .limit freeBufferRoom =>
    0 < q.room ∧ (stopping ∨
      1 ≤ min maxNumberIndication freeBufferRoom ∧ min maxNumberIndication freeBufferRoom ≤ q.room)
  | .getIndication maxInd => 1 ≤ maxInd ∧ maxInd ≤ q.room
  | _ => True

theorem Poller.knows_outside {φ : Type} {p : Poller} {q : Indications φ} {stopping : Prop}
    (h : ¬ p.InRoom) : p.Knows q stopping := by
  cases p <;> first | trivial | exact absurd trivial h

theorem Poller.Knows.mono {φ : Type} {p : Poller} {q : Indications φ} {stopping stopping' : Prop}
    (h : p.Knows q stopping) (hStop : stopping → stopping') : p.Knows q stopping' := by
  cases p with
  | limit freeBufferRoom => exact ⟨h.1, h.2.imp_left hStop⟩
  | subtract writeAbove => cases writeAbove <;> exact h
  | _ => exact h

theorem Poller.Knows.same {φ : Type} {p : Poller} {q q' : Indications φ} {stopping : Prop}
    (h : p.Knows q stopping) (hRead : q'.ring.read = q.ring.read) (hWrite : q'.ring.write = q.ring.write)
    (hInserted : q'.inserted = q.inserted) (hCompleted : q'.completed = q.completed) :
    p.Knows q' stopping := by
  have hRoom : q'.room = q.room := by rw [Indications.room, Indications.room, hInserted, hCompleted]
  unfold Poller.Knows at h ⊢
  rw [hRoom, hRead, hWrite, hInserted, hCompleted]
  exact h

/-- One more free slot does no harm, unless the read index passes the end of the array. -/
theorem Poller.Knows.advanceRead {φ : Type} {p : Poller} {q : Indications φ} {stopping : Prop}
    (h : p.Knows q stopping) (hTold : q.Told) (hBusy : q.completed < q.inserted.length) :
    p.Knows q.advanceRead stopping := by
  have hRoom : q.room ≤ q.advanceRead.room := by
    simp only [Indications.room, Indications.advanceRead]
    omega
  cases p with
  | subtract writeAbove =>
    cases writeAbove with
    | false => exact Nat.lt_of_lt_of_le h hRoom
    | true =>
      obtain ⟨hPos, hLe, hUsed⟩ := h
      have hWrite := hTold.write_lt
      have hRead : (q.ring.read + 1) % maxNumberIndicationQueue = q.ring.read + 1 :=
        Nat.mod_eq_of_lt (by omega)
      refine ⟨Nat.lt_of_lt_of_le hPos hRoom, ?_, ?_⟩
      · change (q.ring.read + 1) % maxNumberIndicationQueue ≤ q.ring.write
        omega
      · change q.completed + 1 + (q.ring.write - (q.ring.read + 1) % maxNumberIndicationQueue) = _
        rw [hRead]
        change _ = q.inserted.length
        omega
  | emptyFlag | compare => exact Nat.lt_of_lt_of_le h hRoom
  | limit freeBufferRoom =>
    refine ⟨Nat.lt_of_lt_of_le h.1 hRoom, h.2.imp_right fun hFits => ⟨hFits.1, ?_⟩⟩
    exact Nat.le_trans hFits.2 hRoom
  | getIndication maxInd => exact ⟨h.1, Nat.le_trans h.2 hRoom⟩
  | _ => trivial

namespace State

variable {φ ρ ω κ : Type} {m : Services φ ρ ω κ} {s t : State φ ρ}

def StopWanted (s : State φ ρ) : Prop := s.pollingThreadStateRequest = .stopRequested

instance (s : State φ ρ) : Decidable s.StopWanted :=
  inferInstanceAs (Decidable (s.pollingThreadStateRequest = .stopRequested))

def Knows (s : State φ ρ) : Prop := s.poller.Knows s.indications s.StopWanted

/-- The read index, found at or above the write index before, has not gone past it since, or so
far past it only that the maximum is free all the same. -/
def Subtractable (q : Indications φ) : Prop :=
  q.ring.write < q.ring.read ∨
    (q.ring.read < q.ring.write ∧ q.ring.write - q.ring.read ≤ maxNumberIndication)

instance (q : Indications φ) : Decidable (Subtractable q) := inferInstanceAs (Decidable (_ ∨ _))

theorem unsignedSub_wraps {a b : Nat} (hLt : a < b) (hWord : b < 2 ^ 32) :
    unsignedSub a b = 2 ^ 32 - (b - a) := by
  unfold unsignedSub
  omega

/-- The difference of the indices is a fit exactly there. Elsewhere it is zero, or wraps around and
leaves the maximum above the free slots. -/
theorem freeBufferRoom_fits_iff {q : Indications φ} (hTold : q.Told) :
    (1 ≤ min maxNumberIndication (freeBufferRoom false q.ring.write q.ring.read) ∧
      min maxNumberIndication (freeBufferRoom false q.ring.write q.ring.read) ≤ q.room) ↔
    Subtractable q := by
  have hSize : maxNumberIndicationQueue = 60 := rfl
  have hMax : maxNumberIndication = 30 := rfl
  have hWrite := hTold.write_lt
  have hRead := hTold.read_lt
  unfold Subtractable
  rw [freeBufferRoom, if_neg Bool.false_ne_true]
  rcases Nat.lt_trichotomy q.ring.read q.ring.write with hAbove | hSame | hBelow
  · have hUsed := hTold.above (hTold.apart (Nat.ne_of_gt hAbove)) hAbove
    rw [unsignedSub_wraps hAbove (by omega), Nat.min_eq_left (by omega), Indications.room]
    omega
  · rw [hSame, unsignedSub_of_le (Nat.le_refl _) (by omega), Nat.sub_self, Nat.min_zero]
    omega
  · have hLe := hTold.below (hTold.apart (Nat.ne_of_lt hBelow)) hBelow
    rw [unsignedSub_of_le (Nat.le_of_lt hBelow) (by omega)]
    omega

/-- A write index that was found above the read index still gives the free slots. -/
theorem freeBufferRoom_above {q : Indications φ} (hTold : q.Told) (hLe : q.ring.read ≤ q.ring.write)
    (hUsed : q.completed + (q.ring.write - q.ring.read) = q.inserted.length) :
    freeBufferRoom true q.ring.write q.ring.read = q.room := by
  have hSize : maxNumberIndicationQueue = 60 := rfl
  have hWrite := hTold.write_lt
  rw [freeBufferRoom, if_pos rfl, unsignedSub_of_le hLe (by omega),
    unsignedSub_of_le (by omega) (by omega), Indications.room]
  omega

theorem knows_pollStep (hTold : s.indications.Told) (hKnows : s.Knows)
    (hMet : s.poller = .subtract false → Subtractable s.indications ∨ s.StopWanted)
    (h : pollStep m .again s = some t) : t.Knows := by
  unfold Knows at hKnows ⊢
  cases pollStep_roomStep h with
  | foundEmpty hEmpty hStep =>
    subst hStep
    change 0 < s.indications.room
    rw [hTold.empty hEmpty]
    decide
  | foundApart hApart hStep =>
    subst hStep
    exact hTold.apart hApart
  | takesAll hAt hEmpty hStep =>
    subst hStep
    rw [hAt] at hKnows
    refine ⟨hKnows, Or.inr ⟨by decide, ?_⟩⟩
    rw [hTold.empty hEmpty]
    decide
  | findsUsed hAt hStep =>
    subst hStep
    rw [hAt] at hKnows
    exact hKnows
  | computes _ hOnce _ => cases hOnce
  | compares hAt _ hStep =>
    subst hStep
    rw [hAt] at hKnows
    by_cases hAbove : s.indications.ring.read < s.indications.ring.write
    · rw [decide_eq_true hAbove]
      exact ⟨hKnows, Nat.le_of_lt hAbove, hTold.above hKnows hAbove⟩
    · rw [decide_eq_false hAbove]
      exact hKnows
  | subtracts writeAbove hAt hStep =>
    subst hStep
    rw [hAt] at hKnows
    cases writeAbove with
    | true =>
      obtain ⟨hPos, hLe, hUsed⟩ := hKnows
      refine ⟨hPos, Or.inr ?_⟩
      rw [freeBufferRoom_above hTold hLe hUsed]
      exact ⟨Nat.le_min.mpr ⟨by decide, hPos⟩, Nat.min_le_right _ _⟩
    | false => exact ⟨hKnows, ((hMet hAt).imp_left (freeBufferRoom_fits_iff hTold).mpr).symm⟩
  | limits room hAt hStep =>
    subst hStep
    rw [hAt] at hKnows
    dsimp only
    split
    · exact ⟨Nat.le_refl 1, hKnows.1⟩
    · next hGo => exact hKnows.2.resolve_left hGo
  | asks maxInd _ _ hStep =>
    subst hStep
    trivial
  | outside _ hOutside => exact Poller.knows_outside hOutside

/-- Nothing but its own steps brings the polling thread on in the room computation. -/
theorem poller_step_other {e : Event φ ω κ} (hOther : e ≠ .poll) (h : State.step m .again s e = some t) :
    t.poller = s.poller ∨ t.poller = .loop ∨ t.poller = .closing ∨ ∃ maxInd, t.poller = .receive maxInd := by
  obtain ⟨-, h⟩ := step_eq_some.mp h
  cases e with
  | poll => exact absurd rfl hOther
  | pollAnswer answer =>
    obtain ⟨maxInd, -, rfl | rfl⟩ := pollAnswered_cases h
    · exact Or.inr (Or.inr (Or.inr ⟨_, rfl⟩))
    · exact Or.inr (Or.inl rfl)
  | indicate frame timestampMsEpoch remaining =>
    obtain ⟨maxInd, -, ⟨-, rfl⟩ | rfl⟩ := indicated_cases h
    · exact Or.inr (Or.inr (Or.inr ⟨_, rfl⟩))
    · exact Or.inr (Or.inl rfl)
  | indicationError =>
    obtain ⟨maxInd, -, rfl⟩ := indicationError_cases h
    exact Or.inr (Or.inl rfl)
  | dispatch =>
    cases dispatchStep_cases h with
    | ends _ _ hStep | waits _ hStep | picks _ _ hStep | completes _ _ hStep | closes _ _ hStep =>
      subst hStep
      exact Or.inl rfl
  | wakeUp now =>
    obtain ⟨-, rfl | ⟨-, rfl⟩⟩ := wokenUp_cases h <;> exact Or.inl rfl
  | handle outcomes start finish =>
    obtain ⟨-, rfl⟩ := handled_cases h
    exact Or.inl rfl
  | timeoutReached party =>
    obtain ⟨-, rfl⟩ := timeoutReached_cases h
    cases party with
    | pollingThread => exact Or.inr (Or.inr (Or.inl rfl))
    | dispatchThread | application => exact Or.inl rfl
  | close party =>
    obtain ⟨-, rfl⟩ := close_cases h
    cases party with
    | pollingThread => exact Or.inr (Or.inr (Or.inl rfl))
    | dispatchThread | application => exact Or.inl rfl
  | lockRequest party | unlockRequest party | joinedPoller | joinedDispatcher | configure setting
  | disablePollRequest disabled | setTimeoutNoAnswer durationS =>
    exact Or.inl (act_aside h trivial).poller

/-- A stop that is requested stays so while the polling thread stays where it is. -/
theorem stopWanted_step {e : Event φ ω κ} (h : State.step m .again s e = some t)
    (hSame : t.poller = s.poller) (hStop : s.StopWanted) : t.StopWanted := by
  cases step_requestStep h with
  | polls hPoll =>
    cases hPoll with
    | starts hAt hTaken | checksQueue hAt _ hTaken | leaves hAt _ hTaken | stopped hAt _ hTaken =>
      subst hTaken
      rw [hAt] at hSame
      cases hSame
    | moves hFrom hNext hRequest => exact hRequest.trans hStop
  | closes hRequest hPoller => exact hRequest
  | others hRequest hPoller => exact hRequest.trans hStop

theorem knows_step_other {e : Event φ ω κ} (hOther : e ≠ .poll) (hTold : s.indications.Told)
    (hBusy : s.dispatcher.InHandler → s.indications.completed < s.indications.inserted.length)
    (hKnows : s.Knows) (h : State.step m .again s e = some t) : t.Knows := by
  unfold Knows at hKnows ⊢
  rcases poller_step_other hOther h with hSame | hLoop | hClosing | ⟨maxInd, hReceive⟩
  · rw [hSame]
    refine Poller.Knows.mono ?_ (stopWanted_step h hSame)
    cases step_queueStep h with
    | quiet hIndications hHandler hPoller =>
      rw [hIndications]
      exact hKnows
    | polls hPoll =>
      rw [(pollStep_indications hPoll).1]
      exact hKnows
    | answered maxInd hRequest hStep =>
      rw [hStep]
      exact hKnows
    | inserts maxInd ind hReceive hIndications hDispatcher hPoller =>
      rw [hReceive]
      trivial
    | picks hIdle hEmpty hIndications hIn hPoller =>
      rw [hIndications]
      exact hKnows.same rfl rfl rfl rfl
    | completes hIn hIndications hIdle hPoller =>
      rw [hIndications, ← Indications.noteEmpty_advanceRead]
      exact (hKnows.advanceRead hTold (hBusy hIn)).same rfl rfl rfl rfl
  · rw [hLoop]
    trivial
  · rw [hClosing]
    trivial
  · rw [hReceive]
    trivial

end State

namespace Interleaved

variable {φ ρ ω κ : Type} {m : Services φ ρ ω κ} {s t : Interleaved φ ρ} {e : Event φ ω κ}

/-- Where the polling thread is to subtract its index from the read index, this one is still the
larger one, or few indications only are left; or it polls for one indication all the same. -/
def RoomStillThere (s : Interleaved φ ρ) : Event φ ω κ → Prop
  | .poll => s.state.poller = .subtract false →
    State.Subtractable s.state.indications ∨ s.state.StopWanted
  | _ => True

instance (s : Interleaved φ ρ) : (e : Event φ ω κ) → Decidable (s.RoomStillThere e)
  | .poll => inferInstanceAs (Decidable (_ → _))
  | .pollAnswer _ | .indicate _ _ _ | .indicationError | .dispatch | .wakeUp _ | .handle _ _ _
  | .lockRequest _ | .unlockRequest _ | .timeoutReached _ | .close _ | .joinedPoller | .joinedDispatcher
  | .configure _ | .disablePollRequest _ | .setTimeoutNoAnswer _ => .isTrue trivial

theorem QueueSound.busy_lt (hSound : s.QueueSound) (hBusy : s.state.dispatcher.InHandler) :
    s.state.indications.completed < s.state.indications.inserted.length := by
  have hLt := hSound.sound.busy_lt (decide_eq_true hBusy)
  unfold queue at hLt
  split at hLt
  · exact hLt
  · exact hLt

structure RoomInv (s : Interleaved φ ρ) : Prop where
  sound : s.QueueSound
  knows : s.state.Knows

theorem roomInv_init [Inhabited φ] (receiver : ρ) (clock : Nat) :
    (init receiver clock : Interleaved φ ρ).RoomInv := ⟨queueSound_init receiver clock, trivial⟩

theorem RoomInv.knows_lifted (hInv : s.RoomInv) (hMet : s.RoomStillThere e) {u : State φ ρ}
    (hStep : State.step m .again s.state e = some u) : u.Knows := by
  by_cases hPoll : e = .poll
  · subst hPoll
    exact State.knows_pollStep hInv.sound.told hInv.knows hMet (State.step_eq_some.mp hStep).2
  · exact State.knows_step_other hPoll hInv.sound.told hInv.sound.busy_lt hInv.knows hStep

theorem RoomInv.step (hInv : s.RoomInv) (hMet : s.RoomStillThere e)
    (h : Interleaved.step m s e = some t) : t.RoomInv := by
  refine ⟨hInv.sound.step h, ?_⟩
  have hKnows := hInv.knows
  unfold State.Knows at hKnows
  cases step_cases h with
  | advances hWhole hHandled hStep =>
    subst hStep
    exact hKnows.advanceRead hInv.sound.told (hInv.sound.busy_lt (by rw [hHandled]; trivial))
  | notes hMidway hStep =>
    subst hStep
    exact hKnows.same rfl rfl rfl rfl
  | whole hWhole hEnd hStep => exact hInv.knows_lifted hMet hStep
  | beside hMidway hEnd hBeside hStep => exact hInv.knows_lifted hMet hStep

theorem run_refines_step {u v : State φ ρ} (h : State.step m .again u e = some v) :
    ∃ events, run (Interleaved.step m) ⟨u, false⟩ events = some ⟨v, false⟩ := by
  obtain ⟨hRunning, hAct⟩ := State.step_eq_some.mp h
  have hWhole (hMap : act m ⟨u, false⟩ e = (State.act m .again u e).map fun t => ⟨t, false⟩) :
      ∃ events, run (Interleaved.step m) ⟨u, false⟩ events = some ⟨v, false⟩ := by
    refine ⟨[e], run_cons_eq_some.mpr ⟨⟨v, false⟩, ?_, rfl⟩⟩
    rw [Interleaved.step, if_neg (by simp [hRunning]), hMap, hAct]
    rfl
  by_cases hBeside : Beside e
  · exact hWhole (act_beside hBeside)
  · cases e with
    | indicate frame timestampMsEpoch remaining => exact hWhole rfl
    | dispatch =>
      by_cases hHandled : u.dispatcher = .handled
      · have hDispatch : State.dispatchStep u = some v := hAct
        cases State.dispatchStep_cases hDispatch with
        | completes _ hFree hStep =>
          subst hStep
          refine ⟨[.dispatch, .dispatch], ?_⟩
          simp [run, Interleaved.step, act, dispatchStep, hRunning, hHandled, hFree]
          rfl
        | ends hLoop _ _ | waits hLoop _ | picks hLoop _ _ | closes hLoop _ _ =>
          rw [hHandled] at hLoop
          cases hLoop
      · refine hWhole ?_
        change dispatchStep ⟨u, false⟩ = _
        rw [dispatchStep, if_neg Bool.false_ne_true, if_neg hHandled]
        rfl
    | _ => exact absurd trivial hBeside

/-- What the threads do with both stores in one step, they do with the stores apart. -/
theorem run_refines {u v : State φ ρ} {events : List (Event φ ω κ)}
    (h : run (State.step m .again) u events = some v) :
    ∃ events, run (Interleaved.step m) ⟨u, false⟩ events = some ⟨v, false⟩ := by
  induction events generalizing u with
  | nil =>
    obtain rfl : u = v := Option.some.inj h
    exact ⟨[], rfl⟩
  | cons e events ih =>
    obtain ⟨w, hStep, hRest⟩ := run_cons_eq_some.mp h
    obtain ⟨first, hFirst⟩ := run_refines_step hStep
    obtain ⟨rest, hAfter⟩ := ih hRest
    exact ⟨first ++ rest, run_append_eq_some.mpr ⟨⟨w, false⟩, hFirst, hAfter⟩⟩

/-- The maximum that the polling thread passes on is at least one, and not above the number of
free slots. -/
def CallFits (s : Interleaved φ ρ) : Prop :=
  ∀ maxInd, s.state.poller = .getIndication maxInd →
    1 ≤ maxInd ∧ maxInd ≤ s.state.indications.room

theorem RoomInv.callFits (h : s.RoomInv) : s.CallFits := by
  intro maxInd hAt
  have hKnows := h.knows
  unfold State.Knows at hKnows
  rw [hAt] at hKnows
  exact hKnows

/-- Without the room, two more polls lead to a maximum of zero, or to one above the free slots. -/
theorem QueueSound.misfit (hSound : s.QueueSound) (hRunning : s.state.finished = false)
    (hNot : ¬ s.RoomStillThere (Event.poll : Event φ ω κ)) :
    ∃ t, run (Interleaved.step m) s [.poll, .poll] = some t ∧ ¬ t.CallFits := by
  obtain ⟨hAt, hNeither⟩ := Classical.not_imp.mp hNot
  obtain ⟨hGone, hGo⟩ := not_or.mp hNeither
  have hStop : ¬ s.state.pollingThreadStateRequest = .stopRequested := hGo
  have hMisfit := mt (State.freeBufferRoom_fits_iff hSound.told).mp hGone
  generalize hMaximum : min maxNumberIndication (freeBufferRoom false s.state.indications.ring.write
    s.state.indications.ring.read) = maxInd at hMisfit
  refine ⟨⟨{ s.state with poller := .getIndication maxInd }, s.midway⟩, ?_, fun hFits => ?_⟩
  · simp [run, Interleaved.step, act, State.act, State.pollStep, hRunning, hAt, hStop, hMaximum]
  · exact hMisfit (hFits maxInd rfl)

/-- The maximum fits while the room that the polling thread subtracts is still there, and only
then can it go on without a misfit. -/
theorem polled_maximum_fits [Inhabited φ] (m : Services φ ρ ω κ) (receiver : ρ) (clock : Nat)
    (events : List (Event φ ω κ)) (t : Interleaved φ ρ)
    (hRun : run (Interleaved.step m) (init receiver clock) events = some t) :
    (Meets (Interleaved.step m) RoomStillThere (init receiver clock) events →
      t.CallFits ∧
        ∀ s e, Takes (Interleaved.step m) (init receiver clock) events s e → s.CallFits) ∧
    ∀ s e, Takes (Interleaved.step m) (init receiver clock) events s e → ¬ s.RoomStillThere e →
      ∃ u, run (Interleaved.step m) s [.poll, .poll] = some u ∧ ¬ u.CallFits := by
  have hStep : ∀ (s : Interleaved φ ρ) (e : Event φ ω κ) (u : Interleaved φ ρ),
      s.RoomInv → s.RoomStillThere e → Interleaved.step m s e = some u → u.RoomInv :=
    fun _ _ _ hInv hMet h => hInv.step hMet h
  constructor
  · intro hMeets
    refine ⟨(run_invariant hStep (roomInv_init receiver clock) hMeets hRun).callFits, ?_⟩
    intro s e hTakes
    exact (hTakes.invariant hStep (roomInv_init receiver clock) hMeets).1.callFits
  · intro s e hTakes hNot
    have hSound : s.QueueSound :=
      hTakes.invariant' (fun _ _ _ hInv h => hInv.step h) (queueSound_init receiver clock)
    obtain ⟨v, hTaken⟩ := hTakes.accepted hRun
    have hRunning : s.state.finished = false := by
      by_contra hFinished
      rw [Interleaved.step, if_pos (by simpa using hFinished)] at hTaken
      cases hTaken
    cases e with
    | poll => exact hSound.misfit hRunning hNot
    | _ => exact absurd trivial hNot

def noHandling : Services Nat Unit Unit Unit :=
  ⟨fun r _ _ _ _ => r, fun r _ => r, fun _ => true, fun r _ => r⟩

/-- The polling thread inserts an indication, which is handled. -/
def oneHandled : List (Event Nat Unit Unit) :=
  List.replicate 7 .poll ++ [.pollAnswer .pending, .indicate 7 100 0, .dispatch, .handle () 1 2]

/-- The queue is emptied while its room is computed, with a subtraction between the two stores. -/
def subtractedMidway : List (Event Nat Unit Unit) :=
  oneHandled ++ List.replicate 6 .poll ++ [.dispatch, .poll, .dispatch, .poll]

theorem polled_maximum_fits_subtractedMidway :
    ∃ t, run (Interleaved.step noHandling) (init () 0) subtractedMidway = some t ∧
      t.state.poller = .getIndication 30 ∧ t.CallFits :=
  ⟨_, rfl, rfl, ((polled_maximum_fits noHandling () 0 subtractedMidway _ rfl).1 (by decide)).1⟩

/-- The queue is emptied before the two indices are compared. -/
def emptiedBefore : List (Event Nat Unit Unit) :=
  oneHandled ++ List.replicate 5 .poll ++ [.dispatch, .dispatch, .poll, .poll, .poll]

theorem emptied_queue_polls_for_none :
    ¬ ∀ (events : List (Event Nat Unit Unit)) (t : Interleaved Nat Unit),
      run (Interleaved.step noHandling) (init () 0) events = some t → t.CallFits := by
  intro h
  have hFits := h emptiedBefore _ rfl 0 rfl
  exact absurd hFits.1 (by decide)

end Interleaved

end CMeshApi.Platform
