import CMeshApi.Platform.Backlog

/-!
# The order in which the dispatch thread serves

However the threads take turns, what the handlers have made of their store is what they
make of it one after the other: each indication is handled once, in the order in which the
polling thread has inserted them, with the collections and the settings in between.
-/

namespace CMeshApi.Platform

open Machine

variable {φ ρ ω κ : Type}

/-- What is done to the store of the handlers. -/
inductive Effect (φ ω κ : Type) where
  | handle (ind : TimestampedFrame φ) (outcomes : ω) (start finish : Nat)
  | collect (now : Nat)
  | configure (setting : κ)

def Effect.ind : Effect φ ω κ → Option (TimestampedFrame φ)
  | .handle ind _ _ _ => some ind
  | _ => none

def handledInds (effects : List (Effect φ ω κ)) : List (TimestampedFrame φ) := effects.filterMap Effect.ind

@[simp] theorem handledInds_append (effects effects' : List (Effect φ ω κ)) :
    handledInds (effects ++ effects') = handledInds effects ++ handledInds effects' :=
  List.filterMap_append

def serve (m : Services φ ρ ω κ) (r : ρ) : Effect φ ω κ → ρ
  | .handle ind outcomes start finish => m.dispatchIndication r ind outcomes start finish
  | .collect now => m.reassemblyGarbageCollect r now
  | .configure setting => m.configure r setting

def serveAll (m : Services φ ρ ω κ) (r : ρ) (effects : List (Effect φ ω κ)) : ρ :=
  effects.foldl (serve m) r

namespace State

def effects (s : State φ ρ) : Event φ ω κ → List (Effect φ ω κ)
  | .handle outcomes start finish => [.handle s.indications.ring.front outcomes start finish]
  | .wakeUp now => [.collect now]
  | .configure setting => [.configure setting]
  | _ => []

variable {m : Services φ ρ ω κ} {reads : RoomReads} {s t : State φ ρ}

/-- So many indications are handled. A dispatch thread that closes the platform inside its handler
is not asked how far that has come. -/
def HasHandled (s : State φ ρ) (n : Nat) : Prop :=
  n = s.handledCount ∨ s.dispatcher = .joining ∧ n = s.indications.completed + 1

structure Serves (m : Services φ ρ ω κ) (r : ρ) (s : State φ ρ) (effects : List (Effect φ ω κ)) : Prop where
  sound : s.QueueSound
  receiver : s.receiver = serveAll m r effects
  inOrder : handledInds effects <+: s.indications.inserted
  handled : s.HasHandled (handledInds effects).length

variable {r : ρ} {effects : List (Effect φ ω κ)}

theorem serves_init [Inhabited φ] (m : Services φ ρ ω κ) (r : ρ) (clock : Nat) :
    Serves m r (State.init r clock) [] :=
  ⟨queueSound_init r clock, rfl, List.nil_prefix, .inl rfl⟩

/-- A step that serves nothing. -/
theorem Serves.quiet (h : Serves m r s effects) (hSound : t.QueueSound) (hReceiver : t.receiver = s.receiver)
    (hInserted : s.indications.inserted <+: t.indications.inserted)
    (hHandled : ∀ n, s.HasHandled n → t.HasHandled n) : Serves m r t (effects ++ []) := by
  rw [List.append_nil]
  exact ⟨hSound, hReceiver.trans h.receiver, h.inOrder.trans hInserted, hHandled _ h.handled⟩

/-- A step that serves something else than an indication. -/
theorem Serves.aside {effect : Effect φ ω κ} (h : Serves m r s effects) (hSound : t.QueueSound)
    (hAside : effect.ind = none) (hReceiver : t.receiver = serve m s.receiver effect)
    (hInserted : t.indications.inserted = s.indications.inserted)
    (hHandled : ∀ n, s.HasHandled n → t.HasHandled n) : Serves m r t (effects ++ [effect]) := by
  have hInds : handledInds (effects ++ [effect]) = handledInds effects := by
    simp [handledInds, hAside]
  refine ⟨hSound, ?_, ?_, ?_⟩
  · rw [hReceiver, h.receiver, serveAll, serveAll, List.foldl_append]
    rfl
  · rw [hInds, hInserted]
    exact h.inOrder
  · rw [hInds]
    exact hHandled _ h.handled

theorem inserted_received (q : Indications φ) (ind : TimestampedFrame φ) :
    q.inserted <+: (q.onIndicationReceivedLocked ind).inserted := by
  unfold Indications.onIndicationReceivedLocked
  split
  · exact List.prefix_refl _
  · exact List.prefix_append _ _

theorem completed_received (q : Indications φ) (ind : TimestampedFrame φ) :
    (q.onIndicationReceivedLocked ind).completed = q.completed := by
  unfold Indications.onIndicationReceivedLocked
  split <;> rfl

theorem hasHandled_same {n : Nat} (hDispatcher : t.dispatcher = s.dispatcher)
    (hCompleted : t.indications.completed = s.indications.completed) (h : s.HasHandled n) :
    t.HasHandled n := by
  unfold HasHandled handledCount at h ⊢
  rw [hDispatcher, hCompleted]
  exact h

/-- Outside of a handler that has had its effect. -/
theorem hasHandled_idle {n : Nat} (hBefore : s.dispatcher ≠ .handled ∧ s.dispatcher ≠ .joining)
    (hAfter : t.dispatcher ≠ .handled) (hCompleted : t.indications.completed = s.indications.completed)
    (h : s.HasHandled n) : t.HasHandled n := by
  obtain hCount | ⟨hJoining, -⟩ := h
  · left
    rw [hCount, handledCount, handledCount, if_neg hBefore.1, if_neg hAfter, hCompleted]
  · exact absurd hJoining hBefore.2

theorem serves_platformClose {party : Party} (h : Serves m r s effects)
    (hSound : (platformClose s party).QueueSound)
    (hHandler : party = .dispatchThread → s.dispatcher = .dispatching ∨ s.dispatcher = .handled) :
    Serves m r (platformClose s party) (effects ++ []) := by
  refine h.quiet hSound (by cases party <;> rfl) (by cases party <;> exact List.prefix_refl _) ?_
  intro n h
  cases party with
  | pollingThread => exact hasHandled_same rfl rfl h
  | application => exact hasHandled_same rfl rfl h
  | dispatchThread =>
    unfold HasHandled handledCount at h ⊢
    obtain hAt | hAt := hHandler rfl
    · simp only [hAt, reduceCtorEq, if_false, Nat.add_zero, false_and, or_false] at h
      exact .inl h
    · simp only [hAt, reduceCtorEq, if_true, false_and, or_false] at h
      exact .inr ⟨rfl, h⟩

theorem serves_dispatchStep (h : Serves m r s effects) (hSound : t.QueueSound)
    (hStep : dispatchStep s = some t) : Serves m r t (effects ++ []) := by
  cases dispatchStep_cases hStep with
  | ends hAt _ hTaken | waits hAt hTaken | picks hAt _ hTaken =>
    subst hTaken
    exact h.quiet hSound rfl (List.prefix_refl _) fun n =>
      hasHandled_idle (by rw [hAt]; exact ⟨nofun, nofun⟩) nofun rfl
  | completes hAt _ hTaken =>
    subst hTaken
    refine h.quiet hSound rfl (List.prefix_refl _) fun n hCount => .inl ?_
    unfold HasHandled handledCount at hCount
    simp only [hAt, reduceCtorEq, if_true, false_and, or_false] at hCount
    exact hCount
  | closes _ _ hTaken =>
    subst hTaken
    exact h.quiet hSound rfl (List.prefix_refl _) fun n => hasHandled_same rfl rfl

theorem serves_wokenUp {now : Nat} (h : Serves m r s effects) (hSound : t.QueueSound)
    (hStep : wokenUp m s now = some t) : Serves m r t (effects ++ [.collect now]) := by
  obtain ⟨hAt, rfl | ⟨-, rfl⟩⟩ := wokenUp_cases hStep
  · exact h.aside hSound rfl rfl rfl fun n =>
      hasHandled_idle (by rw [hAt]; exact ⟨nofun, nofun⟩) nofun rfl
  · exact h.aside hSound rfl rfl rfl fun n =>
      hasHandled_idle (by rw [hAt]; exact ⟨nofun, nofun⟩) nofun rfl

/-- The indication in dispatch is the next of those inserted. -/
theorem serves_handled {outcomes : ω} {start finish : Nat} (h : Serves m r s effects)
    (hSound : t.QueueSound) (hStep : State.handled m s outcomes start finish = some t) :
    Serves m r t (effects ++ [.handle s.indications.ring.front outcomes start finish]) := by
  obtain ⟨hAt, rfl⟩ := handled_cases hStep
  have hBusy : s.indications.Sound true := by
    have hBefore := h.sound
    unfold QueueSound at hBefore
    rwa [show decide s.dispatcher.InHandler = true by rw [hAt]; rfl] at hBefore
  have hLt := hBusy.busy_lt rfl
  have hCount : (handledInds effects).length = s.indications.completed := by
    obtain hCount | ⟨hJoining, -⟩ := h.handled
    · rw [hCount, handledCount, hAt]
      rfl
    · rw [hAt] at hJoining
      cases hJoining
  have hInds : handledInds (effects ++ [.handle s.indications.ring.front outcomes start finish]) =
      s.indications.inserted.take (s.indications.completed + 1) := by
    rw [handledInds_append, List.prefix_iff_eq_take.mp h.inOrder, hCount, hBusy.holds.front_eq hLt]
    exact List.take_append_getElem hLt
  refine ⟨hSound, ?_, ?_, ?_⟩
  · rw [serveAll, List.foldl_append]
    exact congrArg (fun r => m.dispatchIndication r s.indications.ring.front outcomes start finish) h.receiver
  · rw [hInds]
    exact List.take_prefix _ _
  · rw [hInds, List.length_take, Nat.min_eq_left hLt]
    exact .inl rfl

theorem serves_step {e : Event φ ω κ} (h : Serves m r s effects) (hStep : step m reads s e = some t) :
    Serves m r t (effects ++ s.effects e) := by
  have hSound := h.sound.step hStep
  obtain ⟨-, hAct⟩ := step_eq_some.mp hStep
  cases e with
  | poll =>
    rw [pollStep_frame hAct] at hSound ⊢
    exact h.quiet hSound rfl (List.prefix_refl _) fun n => hasHandled_same rfl rfl
  | pollAnswer answer =>
    obtain ⟨maxInd, -, rfl | rfl⟩ := pollAnswered_cases hAct
    · exact h.quiet hSound rfl (List.prefix_refl _) fun n => hasHandled_same rfl rfl
    · exact h.quiet hSound rfl (List.prefix_refl _) fun n => hasHandled_same rfl rfl
  | indicate frame timestampMsEpoch remaining =>
    obtain ⟨maxInd, -, ⟨-, rfl⟩ | rfl⟩ := indicated_cases hAct
    · exact h.quiet hSound rfl (inserted_received _ _) fun n =>
        hasHandled_same rfl (completed_received _ _)
    · exact h.quiet hSound rfl (inserted_received _ _) fun n =>
        hasHandled_same rfl (completed_received _ _)
  | indicationError =>
    obtain ⟨-, -, rfl⟩ := indicationError_cases hAct
    exact h.quiet hSound rfl (List.prefix_refl _) fun n => hasHandled_same rfl rfl
  | dispatch => exact serves_dispatchStep h hSound hAct
  | wakeUp now => exact serves_wokenUp h hSound hAct
  | handle outcomes start finish => exact serves_handled h hSound hAct
  | timeoutReached party =>
    obtain ⟨hRequesting, rfl⟩ := timeoutReached_cases hAct
    have hFreed : Serves m r { s with sendingMutex := none } effects :=
      ⟨h.sound, h.receiver, h.inOrder, hasHandled_same rfl rfl h.handled⟩
    refine serves_platformClose hFreed hSound ?_
    rintro rfl
    exact hRequesting.1
  | close party =>
    obtain ⟨hCan, rfl⟩ := close_cases hAct
    refine serves_platformClose h hSound ?_
    rintro rfl
    exact hCan.1
  | lockRequest party | unlockRequest party | joinedPoller | joinedDispatcher =>
    simp only [act, Option.ite_none_right_eq_some, Option.some.injEq] at hAct
    obtain ⟨-, rfl⟩ := hAct
    exact h.quiet hSound rfl (List.prefix_refl _) fun n => hasHandled_same rfl rfl
  | configure setting =>
    cases hAct
    exact h.aside hSound rfl rfl rfl fun n => hasHandled_same rfl rfl
  | disablePollRequest disabled | setTimeoutNoAnswer durationS =>
    cases hAct
    exact h.quiet hSound rfl (List.prefix_refl _) fun n => hasHandled_same rfl rfl

theorem serves_run {events : List (Event φ ω κ)} (h : Serves m r s effects)
    (hRun : run (step m reads) s events = some t) :
    Serves m r t (effects ++ journal (step m reads) State.effects s events) := by
  induction events generalizing s effects with
  | nil =>
    cases hRun
    rw [journal, List.append_nil]
    exact h
  | cons e events ih =>
    obtain ⟨u, hStep, hRest⟩ := run_cons_eq_some.mp hRun
    rw [journal, hStep, ← List.append_assoc]
    exact ih (serves_step h hStep) hRest

/-- Once all that was inserted is handled, it is this that was handled. -/
theorem Serves.all (h : Serves m r s effects) (hAll : s.handledCount = s.indications.inserted.length) :
    handledInds effects = s.indications.inserted := by
  have hLe := h.inOrder.length_le
  apply h.inOrder.eq_of_length
  obtain hCount | ⟨hJoining, hCount⟩ := h.handled
  · exact hCount.trans hAll
  · unfold handledCount at hAll
    simp only [hJoining, reduceCtorEq, if_false, Nat.add_zero] at hAll
    omega

end State

end CMeshApi.Platform
