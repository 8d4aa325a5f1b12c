import CMeshApi.Platform.Close

/-!
# The stop request

`m_polling_thread_state_request` is written by the thread that calls `Platform_close`
and by the polling thread, which sets it to `POLLING_THREAD_RUN` when it is first
scheduled, whatever was written there since it was created.
-/

namespace CMeshApi.Platform

open Machine

/-- Neither before the first assignment of the polling thread, nor between its last check and
the end of its loop. -/
def Poller.Between (p : Poller) : Prop := p ≠ .start ∧ p ≠ .stopStoreCheck ∧ p ≠ .left

/-- The event is a call of `Platform_close`, up to its first join. -/
def Event.Closes {φ ω κ : Type} : Event φ ω κ → Prop
  | .close _ | .timeoutReached _ => True
  | _ => False

instance {φ ω κ : Type} : DecidablePred (Event.Closes : Event φ ω κ → Prop)
  | .close _ | .timeoutReached _ => .isTrue trivial
  | .poll | .pollAnswer _ | .indicate _ _ _ | .indicationError | .dispatch | .wakeUp _ | .handle _ _ _
  | .lockRequest _ | .unlockRequest _ | .joinedPoller | .joinedDispatcher | .configure _
  | .disablePollRequest _ | .setTimeoutNoAnswer _ => .isFalse id

namespace State

variable {φ ρ ω κ : Type} {m : Services φ ρ ω κ} {reads : RoomReads} {s t u : State φ ρ}

/-- The steps of the polling thread, by what they do to the request and on the way out. -/
inductive ExitStep (m : Services φ ρ ω κ) (s t : State φ ρ) : Prop where
  | starts (hAt : s.poller = .start)
      (hStep : t = { s with pollingThreadStateRequest := .run, poller := .loop })
  | checksQueue (hAt : s.poller = .stopQueueCheck) (hEmpty : s.indications.ring.empty = true)
      (hStep : t = { s with poller := .stopStoreCheck })
  | leaves (hAt : s.poller = .stopStoreCheck)
      (hEmpty : m.reassemblyIsQueueEmpty s.receiver = true)
      (hStep : t = { s with pollingThreadStateRequest := .stop, poller := .left })
  | stopped (hAt : s.poller = .loop) (hStop : s.pollingThreadStateRequest = .stop)
      (hStep : t = { s with poller := .left })
  | moves (hFrom : s.poller ≠ .start ∧ s.poller ≠ .left) (hNext : t.poller.Between)
      (hRequest : t.pollingThreadStateRequest = s.pollingThreadStateRequest)

theorem pollStep_exitStep (h : pollStep m reads s = some t) : ExitStep m s t := by
  unfold pollStep at h
  split at h
  case h_1 hAt =>
    cases h
    exact .starts hAt rfl
  case h_2 hAt =>
    cases h
    by_cases hStop : s.pollingThreadStateRequest = .stop
    · exact .stopped hAt hStop (by rw [if_pos hStop])
    · exact .moves (by simp [hAt]) (by simp [Poller.Between, hStop]) rfl
  case h_4 hAt =>
    cases h
    cases hEmpty : s.indications.ring.empty with
    | true => exact .checksQueue hAt hEmpty rfl
    | false => exact .moves (by simp [hAt]) (by simp [Poller.Between]) rfl
  case h_5 hAt =>
    split at h
    · next hEmpty =>
      cases h
      exact .leaves hAt hEmpty rfl
    · cases h
      exact .moves (by simp [hAt]) (by simp [Poller.Between]) rfl
  case h_12 hAt =>
    split at h
    · split at h <;> cases h <;> exact .moves (by simp [hAt]) (by simp [Poller.Between]) rfl
    · cases h
  case h_14 hAt =>
    split at h
    · cases h
      exact .moves (by simp [hAt]) (by simp [Poller.Between, hAt]) rfl
    · cases h
  case h_15 | h_16 | h_17 => cases h
  -- the reads on the way to a poll
  all_goals
    next hAt =>
    cases h
    refine .moves (by simp [hAt]) ?_ rfl
    dsimp only
    try split
    all_goals simp [Poller.Between]

/-- What a step does to the request, and to the place of the polling thread with it. -/
inductive RequestStep (m : Services φ ρ ω κ) (s t : State φ ρ) : Prop where
  | polls (hPoll : ExitStep m s t)
  | closes (hRequest : t.pollingThreadStateRequest = .stopRequested)
      (hPoller : t.poller = s.poller ∨ t.poller.Between)
  | others (hRequest : t.pollingThreadStateRequest = s.pollingThreadStateRequest)
      (hPoller : t.poller = s.poller ∨ (s.poller.Between ∧ t.poller.Between))

/-- Whatever writes the request, outside of its own steps the polling thread stays or is in its
loop. -/
theorem RequestStep.place (h : RequestStep m s t) :
    ExitStep m s t ∨ t.poller = s.poller ∨ t.poller.Between := by
  cases h with
  | polls hPoll => exact Or.inl hPoll
  | closes hRequest hPoller => exact Or.inr hPoller
  | others hRequest hPoller => exact Or.inr (hPoller.imp_right And.right)

theorem platformClose_requestStep {mutex : Option Party} {party : Party} :
    RequestStep m s (platformClose { s with sendingMutex := mutex } party) := by
  cases party with
  | pollingThread => exact .closes rfl (Or.inr (by simp [Poller.Between, platformClose]))
  | dispatchThread | application => exact .closes rfl (Or.inl rfl)

theorem step_requestStep {e : Event φ ω κ} (h : step m reads s e = some t) :
    RequestStep m s t := by
  obtain ⟨-, h⟩ := step_eq_some.mp h
  cases e with
  | poll => exact .polls (pollStep_exitStep h)
  | pollAnswer answer =>
    obtain ⟨maxInd, hAt, rfl | rfl⟩ := pollAnswered_cases h
    · exact .others rfl (Or.inr (by simp [Poller.Between, hAt]))
    · exact .others rfl (Or.inr (by simp [Poller.Between, endPoll, hAt]))
  | indicate frame timestampMsEpoch remaining =>
    obtain ⟨maxInd, hAt, ⟨-, rfl⟩ | rfl⟩ := indicated_cases h
    · exact .others rfl (Or.inr (by simp [Poller.Between, hAt]))
    · exact .others rfl (Or.inr (by simp [Poller.Between, endPoll, hAt]))
  | indicationError =>
    obtain ⟨maxInd, hAt, rfl⟩ := indicationError_cases h
    exact .others rfl (Or.inr (by simp [Poller.Between, endPoll, hAt]))
  | dispatch =>
    cases dispatchStep_cases h with
    | ends _ _ hStep | waits _ hStep | picks _ _ hStep | completes _ _ hStep | closes _ _ hStep =>
      subst hStep
      exact .others rfl (Or.inl rfl)
  | wakeUp now =>
    obtain ⟨-, rfl | ⟨-, rfl⟩⟩ := wokenUp_cases h
    · exact .others rfl (Or.inl rfl)
    · exact .others rfl (Or.inl rfl)
  | handle outcomes start finish =>
    obtain ⟨-, rfl⟩ := handled_cases h
    exact .others rfl (Or.inl rfl)
  | timeoutReached party =>
    obtain ⟨-, rfl⟩ := timeoutReached_cases h
    exact platformClose_requestStep
  | close party =>
    obtain ⟨-, rfl⟩ := close_cases h
    exact platformClose_requestStep
  | lockRequest party | unlockRequest party | joinedPoller | joinedDispatcher | configure setting
  | disablePollRequest disabled | setTimeoutNoAnswer durationS =>
    have hSame := act_aside h trivial
    exact .others hSame.request (Or.inl hSame.poller)

/-- The polling thread has started and is not told to run. -/
def ToldToStop (s : State φ ρ) : Prop :=
  s.poller ≠ .start ∧ s.pollingThreadStateRequest ≠ .run

theorem ToldToStop.step {e : Event φ ω κ} (h : s.ToldToStop)
    (hStep : State.step m reads s e = some t) : t.ToldToStop := by
  obtain ⟨hStarted, hNotRun⟩ := h
  cases step_requestStep hStep with
  | polls hPoll =>
    cases hPoll with
    | starts hAt hTaken => exact absurd hAt hStarted
    | checksQueue hAt hEmpty hTaken =>
      subst hTaken
      exact ⟨nofun, hNotRun⟩
    | leaves hAt hEmpty hTaken =>
      subst hTaken
      exact ⟨nofun, nofun⟩
    | stopped hAt hStop hTaken =>
      subst hTaken
      exact ⟨nofun, hNotRun⟩
    | moves hFrom hNext hRequest => exact ⟨hNext.1, hRequest ▸ hNotRun⟩
  | closes hRequest hPoller =>
    refine ⟨?_, by simp [hRequest]⟩
    rcases hPoller with hSame | hNext
    · exact hSame ▸ hStarted
    · exact hNext.1
  | others hRequest hPoller =>
    refine ⟨?_, hRequest ▸ hNotRun⟩
    rcases hPoller with hSame | ⟨-, hNext⟩
    · exact hSame ▸ hStarted
    · exact hNext.1

/-- `Platform_close` makes the request, and leaves the polling thread before its first
assignment if it was there. -/
theorem closes_requests {e : Event φ ω κ} (hCloses : e.Closes)
    (hStep : State.step m reads s e = some t) :
    t.finished = false ∧ t.pollingThreadStateRequest = .stopRequested ∧
      (t.poller = .start ↔ s.poller = .start) := by
  obtain ⟨hNotFinished, hAct⟩ := step_eq_some.mp hStep
  cases e with
  | timeoutReached party =>
    obtain ⟨hRequesting, rfl⟩ := timeoutReached_cases hAct
    cases party with
    | pollingThread =>
      have hNotStart : s.poller ≠ .start := by
        intro hStart
        have hAtRequest := hRequesting.1
        rw [hStart] at hAtRequest
        exact hAtRequest
      exact ⟨hNotFinished, rfl, iff_of_false nofun hNotStart⟩
    | dispatchThread | application => exact ⟨hNotFinished, rfl, Iff.rfl⟩
  | close party =>
    obtain ⟨hCan, rfl⟩ := close_cases hAct
    cases party with
    | pollingThread => exact hCan.elim
    | dispatchThread | application => exact ⟨hNotFinished, rfl, Iff.rfl⟩
  | _ => exact hCloses.elim

/-- Whatever the threads do after a call of `Platform_close`, the polling thread is not told
to run again. -/
def StaysRequested (m : Services φ ρ ω κ) (reads : RoomReads) (t : State φ ρ) : Prop :=
  ∀ after u, run (step m reads) t after = some u → u.pollingThreadStateRequest ≠ .run

/-- A call of `Platform_close` meets a polling thread that has made its first assignment. -/
def ClosesStarted (s : State φ ρ) (e : Event φ ω κ) : Prop := e.Closes → s.poller ≠ .start

instance (s : State φ ρ) (e : Event φ ω κ) : Decidable (s.ClosesStarted e) :=
  inferInstanceAs (Decidable (_ → _))

theorem staysRequested_iff_started {e : Event φ ω κ} (hCloses : e.Closes)
    (hStep : State.step m reads s e = some t) :
    StaysRequested m reads t ↔ s.poller ≠ .start := by
  obtain ⟨hNotFinished, hRequest, hStart⟩ := closes_requests hCloses hStep
  constructor
  · intro hStays hAt
    have hTakes : State.step m reads t .poll =
        some { t with pollingThreadStateRequest := .run, poller := .loop } := by
      refine step_eq_some.mpr ⟨hNotFinished, ?_⟩
      simp only [act, pollStep, hStart.mpr hAt]
    exact hStays [.poll] _ (run_cons_eq_some.mpr ⟨_, hTakes, rfl⟩) rfl
  · intro hStarted after u hAfter
    have hTold : t.ToldToStop := by
      refine ⟨fun hAt => hStarted (hStart.mp hAt), ?_⟩
      rw [hRequest]
      decide
    exact (run_invariant' (fun _ _ _ hInv hTaken => hInv.step hTaken) hTold hAfter).2

/-- Every call of `Platform_close` in the run makes a request that is kept, in the rest of the
run and in every other one. -/
def KeepsRequests (m : Services φ ρ ω κ) (reads : RoomReads) (s : State φ ρ)
    (events : List (Event φ ω κ)) : Prop :=
  ∀ t e u, Takes (step m reads) s events t e → e.Closes → step m reads t e = some u →
    StaysRequested m reads u

/-- A run keeps its stop requests if and only if the polling thread has made its first
assignment before each of them. -/
theorem keepsRequests_iff_closesStarted [Inhabited φ] (m : Services φ ρ ω κ) (reads : RoomReads)
    (receiver : ρ) (clock : Nat) (events : List (Event φ ω κ)) (u : State φ ρ)
    (hRun : run (step m reads) (.init receiver clock) events = some u) :
    KeepsRequests m reads (.init receiver clock) events ↔
      Meets (step m reads) ClosesStarted (.init receiver clock) events := by
  rw [meets_iff_takes]
  constructor
  · intro hKeeps s e hTakes hCloses
    obtain ⟨t, hStep⟩ := hTakes.accepted hRun
    exact (staysRequested_iff_started hCloses hStep).mp (hKeeps s e t hTakes hCloses hStep)
  · intro hStarted s e t hTakes hCloses hStep
    exact (staysRequested_iff_started hCloses hStep).mpr (hStarted s e hTakes hCloses)

theorem keepsRequests_iff_closesStarted_polling :
    KeepsRequests wpcServices .again (.init ⟨⟨0, [], true, 0⟩, fun _ => 0, none⟩ 0)
      [.poll, .poll, .close .application, .poll] :=
  (keepsRequests_iff_closesStarted wpcServices .again ⟨⟨0, [], true, 0⟩, fun _ => 0, none⟩ 0
    [.poll, .poll, .close .application, .poll] _ rfl).mpr (by decide)

/-- An application closes the platform before the polling thread is first scheduled. -/
theorem early_close_is_lost :
    ¬ ∀ (reads : RoomReads) (receiver : Dsap.Receiver) (clock : Nat) (events : List HostEvent)
        (t : Host), run (step wpcServices reads) (.init receiver clock) events = some t →
        KeepsRequests wpcServices reads (.init receiver clock) events := by
  intro h
  have hKeeps := h .again ⟨⟨0, [], true, 0⟩, fun _ => 0, none⟩ 0 [.close .application] _ rfl
  exact hKeeps _ _ _ ⟨[], [], rfl, rfl⟩ trivial rfl [.poll] _ rfl rfl

end State

end CMeshApi.Platform
