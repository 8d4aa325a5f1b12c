import CMeshApi.Platform.Closing

/-!
# What is left to dispatch

The dispatch thread on its own: the reassembly store and the indications not handled
yet, with the collections it makes when it wakes up, and with indications that come in
one at a time once nothing is left. Whether the store can be emptied in this way
decides whether the platform can close. A polling thread that was asked to stop, and
holds no lock, lets the dispatch thread take every step of this machine.
-/

namespace CMeshApi.Platform

open Machine

structure Backlog (φ ρ : Type) where
  receiver : ρ
  clock : Nat
  pending : List (TimestampedFrame φ)
  /-- The dispatch thread waits, and will collect before it handles anything. -/
  waiting : Bool
  polled : Bool

inductive BacklogEvent (φ ω : Type) where
  | handle (outcomes : ω) (start finish : Nat)
  | collect (now : Nat)
  | arrive (ind : TimestampedFrame φ)

namespace Backlog

variable {φ ρ ω κ : Type}

def step (m : Services φ ρ ω κ) : Step (Backlog φ ρ) (BacklogEvent φ ω)
  | b, .handle outcomes start finish =>
    match b.pending with
    | ind :: rest =>
      if b.waiting = false ∧ b.clock ≤ start ∧ start ≤ finish then
        some { b with
          receiver := m.dispatchIndication b.receiver ind outcomes start finish
          clock := finish
          pending := rest }
      else none
    | [] => none
  | b, .collect now =>
    if (b.waiting = true ∨ b.pending = []) ∧ b.clock ≤ now then
      some { b with
        receiver := m.reassemblyGarbageCollect b.receiver now, clock := now, waiting := false }
    else none
  | b, .arrive ind =>
    if b.polled = true ∧ b.pending = [] then some { b with pending := [ind] } else none

def Emptied (m : Services φ ρ ω κ) (b : Backlog φ ρ) : Prop :=
  b.pending = [] ∧ m.reassemblyIsQueueEmpty b.receiver = true

/-- What is left to dispatch can be dispatched so that the store is empty. -/
def CanEmpty (m : Services φ ρ ω κ) (b : Backlog φ ρ) : Prop := CanReach (step m) (Emptied m) b

end Backlog

namespace State

variable {φ ρ ω κ : Type} {m : Services φ ρ ω κ} {reads : RoomReads} {s t : State φ ρ}

def handledCount (s : State φ ρ) : Nat :=
  s.indications.completed + if s.dispatcher = .handled then 1 else 0

def backlog (s : State φ ρ) : Backlog φ ρ where
  receiver := s.receiver
  clock := s.clock
  pending := s.indications.inserted.drop s.handledCount
  waiting := s.dispatcher = .waiting
  polled := !s.disabledPollRequest

/-- The polling thread was asked to stop and is about to look for it; nobody is in a request. -/
structure Parked (s : State φ ρ) : Prop where
  notFinished : s.finished = false
  request : s.pollingThreadStateRequest = .stopRequested
  poller : s.poller = .wake
  free : s.sendingMutex = none
  running : s.dispatchThreadRunning = true
  dispatcher : s.dispatcher = .loop ∨ s.dispatcher = .waiting ∨ s.dispatcher = .dispatching
  sound : s.QueueSound

theorem quietStep_of_quiet {e : Event φ ω κ} (hQuiet : e.Quiet = true) (hNotFinished : s.finished = false) :
    quietStep m reads s e = act m reads s e := by
  simp only [quietStep, hQuiet, if_true, step, hNotFinished, Bool.false_eq_true, if_false]

theorem canReach_of_act {goal : State φ ρ → Prop} {e : Event φ ω κ} (hQuiet : e.Quiet = true)
    (hNotFinished : s.finished = false) (hAct : act m reads s e = some t)
    (h : CanReach (quietStep m reads) goal t) : CanReach (quietStep m reads) goal s :=
  .step ((quietStep_of_quiet hQuiet hNotFinished).trans hAct) h

theorem Parked.handledCount_eq (h : s.Parked) : s.handledCount = s.indications.completed := by
  rcases h.dispatcher with hAt | hAt | hAt <;> simp [handledCount, hAt]

theorem Parked.empty_iff (h : s.Parked) :
    s.indications.ring.empty = true ↔ s.backlog.pending = [] := by
  have hHolds := h.sound.holds
  have hLe := hHolds.done_le
  rw [hHolds.empty_iff, backlog, h.handledCount_eq, List.drop_eq_nil_iff]
  omega

theorem Parked.leaves (h : s.Parked) (hEmptied : s.backlog.Emptied m) :
    CanReach (quietStep m reads) Gone s := by
  obtain ⟨hPending, hStore⟩ := hEmptied
  have hEmpty := h.empty_iff.mpr hPending
  change m.reassemblyIsQueueEmpty s.receiver = true at hStore
  refine canReach_of_act (e := .poll) (t := { s with poller := .stopQueueCheck }) rfl h.notFinished ?_ ?_
  · simp [act, pollStep, h.poller, h.request]
  refine canReach_of_act (e := .poll) (t := { s with poller := .stopStoreCheck }) rfl h.notFinished ?_ ?_
  · simp [act, pollStep, hEmpty]
  refine canReach_of_act (e := .poll)
    (t := { s with pollingThreadStateRequest := .stop, poller := .left }) rfl h.notFinished ?_ ?_
  · simp [act, pollStep, hStore]
  exact .here (Or.inl rfl)

theorem Parked.asks (h : s.Parked) (hPending : s.backlog.pending = [])
    (hStore : ¬ m.reassemblyIsQueueEmpty s.receiver = true) (hPolled : s.backlog.polled = true)
    {goal : State φ ρ → Prop}
    (hRequest : CanReach (quietStep m reads) goal
      { s with poller := .request 1, sendingMutex := some .pollingThread }) :
    CanReach (quietStep m reads) goal s := by
  have hEmpty := h.empty_iff.mpr hPending
  have hEnabled : s.disabledPollRequest = false := by
    simpa [backlog] using hPolled
  refine canReach_of_act (e := .poll) (t := { s with poller := .stopQueueCheck }) rfl h.notFinished
    ?_ ?_
  · simp [act, pollStep, h.poller, h.request]
  refine canReach_of_act (e := .poll) (t := { s with poller := .stopStoreCheck }) rfl h.notFinished
    ?_ ?_
  · simp [act, pollStep, hEmpty]
  refine canReach_of_act (e := .poll) (t := { s with poller := .fullFlag }) rfl h.notFinished ?_ ?_
  · simp [act, pollStep, hStore]
  refine canReach_of_act (e := .poll) (t := { s with poller := .emptyFlag }) rfl h.notFinished ?_ ?_
  · simp [act, pollStep, hEmpty]
  refine canReach_of_act (e := .poll)
    (t := { s with poller := .limit maxNumberIndicationQueue }) rfl h.notFinished ?_ ?_
  · simp [act, pollStep, hEmpty]
  refine canReach_of_act (e := .poll) (t := { s with poller := .getIndication 1 }) rfl h.notFinished
    ?_ ?_
  · simp [act, pollStep, h.request]
  refine canReach_of_act (e := .poll) rfl h.notFinished ?_ hRequest
  simp [act, pollStep, h.free, hEnabled]

theorem Parked.arrives (h : s.Parked) (hPending : s.backlog.pending = [])
    (hStore : ¬ m.reassemblyIsQueueEmpty s.receiver = true) (hPolled : s.backlog.polled = true)
    (ind : TimestampedFrame φ) :
    CanReach (quietStep m reads)
      (fun t => t.Parked ∧ t.backlog = { s.backlog with pending := [ind] }) s := by
  have hEmpty := h.empty_iff.mpr hPending
  have hFree : ¬ s.indications.ring.Full := by
    rintro ⟨hNot, -⟩
    rw [hEmpty] at hNot
    cases hNot
  refine h.asks hPending hStore hPolled ?_
  refine canReach_of_act (e := .pollAnswer .pending)
    (t := { s with poller := .receive 0, sendingMutex := some .pollingThread }) rfl h.notFinished rfl ?_
  refine canReach_of_act (e := .indicate ind.frame ind.timestampMsEpoch 0)
    (t := { s with
      indications := s.indications.onIndicationReceivedLocked ind
      poller := .loop
      sendingMutex := none }) rfl h.notFinished rfl ?_
  refine canReach_of_act (e := .poll)
    (t := { s with
      indications := s.indications.onIndicationReceivedLocked ind
      poller := .wake
      sendingMutex := none }) rfl h.notFinished ?_ ?_
  · simp [act, pollStep, h.request]
  refine .here ⟨⟨h.notFinished, h.request, rfl, rfl, h.running, h.dispatcher, h.sound.received ind⟩, ?_⟩
  have hDone : s.indications.completed = s.indications.inserted.length :=
    h.sound.holds.empty_iff.mp hEmpty
  have hCount := h.handledCount_eq
  have hDrop : (s.indications.onIndicationReceivedLocked ind).inserted.drop s.handledCount =
      [ind] := by
    rw [Indications.onIndicationReceivedLocked, if_neg hFree, hCount, hDone]
    exact List.drop_left
  have hCompleted : (s.indications.onIndicationReceivedLocked ind).completed =
      s.indications.completed := by
    rw [Indications.onIndicationReceivedLocked, if_neg hFree]
  simp only [backlog, handledCount, hCompleted] at hDrop ⊢
  rw [hDrop]

theorem Parked.sound_outside (h : s.Parked) (hOutside : ¬ s.dispatcher.InHandler) :
    s.indications.Sound false := by
  have hSound := h.sound
  unfold QueueSound at hSound
  rwa [decide_eq_false hOutside] at hSound

theorem Parked.pick (h : s.Parked) (hOutside : ¬ s.dispatcher.InHandler)
    (hEmpty : s.indications.ring.empty = false) :
    s.pick.Parked ∧ s.pick.backlog = { s.backlog with waiting := false } := by
  refine ⟨⟨h.notFinished, h.request, h.poller, h.free, h.running, Or.inr (Or.inr rfl),
    (h.sound_outside hOutside).pick hEmpty⟩, ?_⟩
  have hCount := h.handledCount_eq
  simp only [backlog, hCount]
  rfl

theorem Parked.not_waiting (h : s.Parked) (hWaiting : s.backlog.waiting = false) :
    s.dispatcher = .loop ∨ s.dispatcher = .dispatching := by
  rcases h.dispatcher with hAt | hAt | hAt
  · exact Or.inl hAt
  · simp [backlog, hAt] at hWaiting
  · exact Or.inr hAt

theorem Parked.dispatching_handles (h : s.Parked) (hAt : s.dispatcher = .dispatching)
    {ind : TimestampedFrame φ} {rest : List (TimestampedFrame φ)}
    (hPending : s.backlog.pending = ind :: rest) (outcomes : ω) {start finish : Nat}
    (hStart : s.clock ≤ start) (hFinish : start ≤ finish) :
    CanReach (quietStep m reads)
      (fun t => t.Parked ∧ t.backlog =
        { s.backlog with
          receiver := m.dispatchIndication s.receiver ind outcomes start finish
          clock := finish
          pending := rest
          waiting := false }) s := by
  have hSound : s.indications.Sound true := by
    have hSound := h.sound
    unfold QueueSound at hSound
    rwa [hAt] at hSound
  have hLt := hSound.busy_lt rfl
  have hDrop : s.indications.inserted.drop s.indications.completed = ind :: rest := by
    rw [← h.handledCount_eq]
    exact hPending
  rw [List.drop_eq_getElem_cons hLt] at hDrop
  have hFront : s.indications.ring.front = ind := by
    rw [hSound.holds.front_eq hLt]
    exact (List.cons.inj hDrop).1
  refine canReach_of_act (e := .handle outcomes start finish)
    (t := { s with
      receiver := m.dispatchIndication s.receiver ind outcomes start finish
      clock := finish
      dispatcher := .handled }) rfl h.notFinished ?_ ?_
  · simp [act, handled, hAt, hStart, hFinish, hFront]
  refine canReach_of_act (e := .dispatch)
    (t := { s with
      indications := s.indications.complete
      receiver := m.dispatchIndication s.receiver ind outcomes start finish
      clock := finish
      dispatcher := .loop }) rfl h.notFinished ?_ ?_
  · simp [act, dispatchStep, h.free]
  refine .here ⟨⟨h.notFinished, h.request, h.poller, h.free, h.running, Or.inl rfl, hSound.complete⟩, ?_⟩
  change Backlog.mk _ _ _ _ _ = Backlog.mk _ _ _ _ _
  rw [← (List.cons.inj hDrop).2]
  rfl

theorem Parked.handles (h : s.Parked) {ind : TimestampedFrame φ}
    {rest : List (TimestampedFrame φ)} (hPending : s.backlog.pending = ind :: rest)
    (hWaiting : s.backlog.waiting = false) (outcomes : ω) {start finish : Nat}
    (hStart : s.clock ≤ start) (hFinish : start ≤ finish) :
    CanReach (quietStep m reads)
      (fun t => t.Parked ∧ t.backlog =
        { s.backlog with
          receiver := m.dispatchIndication s.receiver ind outcomes start finish
          clock := finish
          pending := rest }) s := by
  have hEmpty : s.indications.ring.empty = false := by
    rw [← Bool.not_eq_true, h.empty_iff, hPending]
    exact List.cons_ne_nil _ _
  rcases h.not_waiting hWaiting with hAt | hAt
  · obtain ⟨hParked, hBacklog⟩ := h.pick (by rw [hAt]; exact id) hEmpty
    refine canReach_of_act (e := .dispatch) (t := s.pick) rfl h.notFinished ?_ ?_
    · simp [act, dispatchStep, hAt, h.running, hEmpty]
    have hHead : s.pick.backlog.pending = ind :: rest :=
      (congrArg Backlog.pending hBacklog).trans hPending
    have hReach : CanReach (quietStep m reads) _ s.pick :=
      hParked.dispatching_handles rfl hHead outcomes hStart hFinish
    rw [hBacklog] at hReach
    refine hReach.mono fun t ht => ⟨ht.1, ht.2.trans ?_⟩
    rw [← hWaiting]
    rfl
  · refine (h.dispatching_handles hAt hPending outcomes hStart hFinish).mono
      fun t ht => ⟨ht.1, ht.2.trans ?_⟩
    rw [← hWaiting]

theorem Parked.wakes (h : s.Parked) (hAt : s.dispatcher = .waiting) {now : Nat}
    (hNow : s.clock ≤ now) :
    CanReach (quietStep m reads)
      (fun t => t.Parked ∧ t.backlog =
        { s.backlog with
          receiver := m.reassemblyGarbageCollect s.receiver now
          clock := now
          waiting := false }) s := by
  have hOutside : ¬ s.dispatcher.InHandler := by
    rw [hAt]
    exact id
  have hSound := h.sound_outside hOutside
  have hCount := h.handledCount_eq
  cases hEmpty : s.indications.ring.empty with
  | true =>
    refine canReach_of_act (e := .wakeUp now)
      (t := { s with
        receiver := m.reassemblyGarbageCollect s.receiver now
        clock := now
        dispatcher := .loop }) rfl h.notFinished ?_ ?_
    · simp [act, wokenUp, hAt, hNow, hEmpty]
    refine .here ⟨⟨h.notFinished, h.request, h.poller, h.free, h.running, Or.inl rfl, hSound⟩, ?_⟩
    simp only [backlog, hCount]
    rfl
  | false =>
    refine canReach_of_act (e := .wakeUp now)
      (t := State.pick { s with
        receiver := m.reassemblyGarbageCollect s.receiver now, clock := now }) rfl h.notFinished ?_ ?_
    · simp [act, wokenUp, hAt, hNow, hEmpty]
    refine .here ⟨⟨h.notFinished, h.request, h.poller, h.free, h.running, Or.inr (Or.inr rfl),
      hSound.pick hEmpty⟩, ?_⟩
    simp only [backlog, hCount]
    rfl

theorem Parked.collects (h : s.Parked)
    (hMay : s.backlog.waiting = true ∨ s.backlog.pending = []) {now : Nat}
    (hNow : s.clock ≤ now) :
    CanReach (quietStep m reads)
      (fun t => t.Parked ∧ t.backlog =
        { s.backlog with
          receiver := m.reassemblyGarbageCollect s.receiver now
          clock := now
          waiting := false }) s := by
  by_cases hWaiting : s.dispatcher = .waiting
  · exact h.wakes hWaiting hNow
  · have hPending : s.backlog.pending = [] := by
      refine hMay.resolve_left ?_
      simp [backlog, hWaiting]
    have hEmpty := h.empty_iff.mpr hPending
    have hAt : s.dispatcher = .loop := by
      rcases h.dispatcher with hAt | hAt | hAt
      · exact hAt
      · exact absurd hAt hWaiting
      · have hSound := h.sound
        unfold QueueSound at hSound
        rw [hAt] at hSound
        have hDone := hSound.holds.empty_iff.mp hEmpty
        exact absurd hDone (Nat.ne_of_lt (hSound.busy_lt rfl))
    have hParked : ({ s with dispatcher := .waiting } : State φ ρ).Parked :=
      ⟨h.notFinished, h.request, h.poller, h.free, h.running, Or.inr (Or.inl rfl),
        h.sound_outside (by rw [hAt]; exact id)⟩
    refine canReach_of_act (e := .dispatch) (t := { s with dispatcher := .waiting }) rfl h.notFinished
      ?_ ?_
    · simp [act, dispatchStep, hAt, h.running, hEmpty]
    refine (hParked.wakes rfl hNow).mono fun t ht => ⟨ht.1, ht.2.trans ?_⟩
    have hCount := h.handledCount_eq
    simp only [backlog, hCount]
    rfl

/-- While the polling thread is parked, the threads take every step of the backlog, until the
polling thread can leave. -/
theorem Parked.follows {e : BacklogEvent φ ω} {b : Backlog φ ρ} (h : s.Parked)
    (hStep : Backlog.step m s.backlog e = some b) (hEmptied : ¬ s.backlog.Emptied m) :
    CanReach (quietStep m reads) (fun t => t.Parked ∧ t.backlog = b) s := by
  cases e with
  | handle outcomes start finish =>
    simp only [Backlog.step] at hStep
    split at hStep
    · next ind rest hPending =>
      simp only [Option.ite_none_right_eq_some, Option.some.injEq] at hStep
      obtain ⟨⟨hWaiting, hStart, hFinish⟩, rfl⟩ := hStep
      exact h.handles hPending hWaiting outcomes hStart hFinish
    · cases hStep
  | collect now =>
    simp only [Backlog.step, Option.ite_none_right_eq_some, Option.some.injEq] at hStep
    obtain ⟨⟨hMay, hNow⟩, rfl⟩ := hStep
    exact h.collects hMay hNow
  | arrive ind =>
    simp only [Backlog.step, Option.ite_none_right_eq_some, Option.some.injEq] at hStep
    obtain ⟨⟨hPolled, hPending⟩, rfl⟩ := hStep
    exact h.arrives hPending (fun hStore => hEmptied ⟨hPending, hStore⟩) hPolled ind

theorem Parked.canLeave (h : s.Parked) (hCan : s.backlog.CanEmpty m) :
    CanReach (quietStep m reads) Gone s := by
  obtain ⟨events, b, hRun, hEnd⟩ := hCan
  induction events generalizing s with
  | nil =>
    obtain rfl : s.backlog = b := Option.some.inj hRun
    exact h.leaves hEnd
  | cons e events ih =>
    obtain ⟨c, hStep, hRest⟩ := run_cons_eq_some.mp hRun
    by_cases hEmptied : s.backlog.Emptied m
    · exact h.leaves hEmptied
    · refine (h.follows hStep hEmptied).trans fun t ht => ?_
      obtain ⟨hParked, rfl⟩ := ht
      exact ih hParked hRest

end State

end CMeshApi.Platform
