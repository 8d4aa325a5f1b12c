import Mathlib.Data.List.Pairwise
import Mathlib.Logic.Function.Iterate
import CMeshApi.Wpc.Management

/-!
# The maximum poll fail duration

One duration sets two timeouts. The check for a silent node counts it in milliseconds, and zero
turns the check off; `WPC_stop_stack` waits for that many seconds, cut to 16 bits, for the node to
come back, and zero leaves it no time at all. The check is also made behind each request of the stop
that is left without an answer, and may close the process while the node reboots.
-/

namespace CMeshApi.Wpc

open Programs

/-- The static variables of `check_if_timeout_reached_locked`. -/
structure AnswerWatch where
  timeoutNoAnswerMs : UInt32
  lastSuccessfulAnswerTs : Nat
deriving DecidableEq, Repr

namespace AnswerWatch

/-- Whether the check closes the process. -/
def checkIfTimeoutReachedLocked (a : AnswerWatch) (now : Nat) : Bool :=
  0 < a.timeoutNoAnswerMs && a.timeoutNoAnswerMs.toNat < now - a.lastSuccessfulAnswerTs

/-- A frame of the node at some time. -/
def answered (a : AnswerWatch) (now : Nat) : AnswerWatch := { a with lastSuccessfulAnswerTs := now }

theorem timeout_answers (a : AnswerWatch) (answers : List Nat) :
    (answers.foldl answered a).timeoutNoAnswerMs = a.timeoutNoAnswerMs := by
  induction answers generalizing a with
  | nil => rfl
  | cons time answers ih => exact ih (a.answered time)

/-- No answer is later than the time that is kept. -/
theorem answer_le_last {a : AnswerWatch} {answers : List Nat}
    (h : (a.lastSuccessfulAnswerTs :: answers).Pairwise (· ≤ ·)) :
    ∀ time ∈ a.lastSuccessfulAnswerTs :: answers,
      time ≤ (answers.foldl answered a).lastSuccessfulAnswerTs := by
  induction answers generalizing a with
  | nil =>
    intro time hTime
    exact Nat.le_of_eq (List.mem_singleton.mp hTime)
  | cons first answers ih =>
    obtain ⟨hFirst, hRest⟩ := List.pairwise_cons.mp h
    have hLast := ih (a := a.answered first) hRest
    intro time hTime
    rcases List.mem_cons.mp hTime with rfl | hLater
    · exact Nat.le_trans (hFirst first List.mem_cons_self) (hLast first List.mem_cons_self)
    · exact hLast time hLater

end AnswerWatch

section Calls

variable {ν : Type} (env : Environment ν)

def wpcIntSetTimeoutSNoAnswer (durationS : UInt32) : Call AnswerWatch ν Bool := do
  let a ← Program.read fun w : World AnswerWatch ν => w.gateway
  (if a.timeoutNoAnswerMs = 0 ∧ 0 < durationS then do
    let now ← ask env.timestampMsMonotonic
    .change fun w : World AnswerWatch ν => { w with gateway.lastSuccessfulAnswerTs := now }
  else pure ())
  .change fun w : World AnswerWatch ν => { w with gateway.timeoutNoAnswerMs := durationS * 1000 }
  return true

def wpcSetMaxPollFailDuration (durationS : UInt32) : Call AnswerWatch ν AppRes := do
  if ← wpcIntSetTimeoutSNoAnswer env durationS then
    .change fun w => { w with statics.timeoutAfterStopTaskS := durationS }
    return .ok
  else return .accessDenied

/-- What is set: both timeouts, and the time of the last answer where the check was off. -/
theorem returns_wpcSetMaxPollFailDuration {durationS : UInt32} {w t : World AnswerWatch ν} {res : AppRes}
    (h : Returns (wpcSetMaxPollFailDuration env durationS) w res t) :
    res = .ok ∧ t.statics.timeoutAfterStopTaskS = durationS ∧
      t.gateway.timeoutNoAnswerMs = durationS * 1000 ∧
      (t.gateway.lastSuccessfulAnswerTs = w.gateway.lastSuccessfulAnswerTs ∨
        t.gateway.lastSuccessfulAnswerTs = (env.timestampMsMonotonic w.node).1) := by
  obtain ⟨set, u, hSet, hRest⟩ := returns_bind.mp h
  obtain ⟨a, v, hRead, hSet⟩ := returns_bind.mp hSet
  obtain ⟨rfl, rfl⟩ := returns_read.mp hRead
  obtain ⟨_, x, hStart, hSet⟩ := returns_bind.mp hSet
  obtain ⟨_, y, hTimeout, hPure⟩ := returns_bind.mp hSet
  obtain ⟨rfl, rfl⟩ := returns_pure.mp hPure
  obtain rfl := returns_change.mp hTimeout
  obtain ⟨_, z, hStatics, hPure⟩ := returns_bind.mp (show Returns _ _ res t from hRest)
  obtain rfl := returns_change.mp hStatics
  obtain ⟨rfl, rfl⟩ := returns_pure.mp hPure
  refine ⟨rfl, rfl, rfl, ?_⟩
  rcases returns_ite.mp hStart with ⟨-, hNow⟩ | ⟨-, hPure⟩
  · obtain ⟨now, z, hAsk, hChange⟩ := returns_bind.mp hNow
    obtain ⟨rfl, rfl⟩ := returns_ask.mp hAsk
    obtain rfl := returns_change.mp hChange
    exact Or.inr rfl
  · obtain ⟨-, rfl⟩ := returns_pure.mp hPure
    exact Or.inl rfl

end Calls

/-- A request, with the times of the frames that come in while it is handled, and with the result of
`WPC_Int_send_request` or of the confirm among what it tells. -/
structure WatchedRequest (ν α : Type) where
  frames : ν → List Nat
  answer : ν → α × ν
  res : α → Int

/-- The errors behind which `send_request_locked` makes the check. After a CRC error on either side
and after a lost synchronization it makes none. -/
def unanswered (res : Int) : Bool :=
  res < 0 && res != wpcIntWrongCrcFromHost && res != wpcIntWrongCrc && res != wpcIntSyncError

section Watching

variable {ν α : Type} (env : Environment ν)

/-- Nothing follows the `exit` of the process. -/
def closeIfTimeoutReached : Call AnswerWatch ν Unit := do
  let a ← Program.read fun w : World AnswerWatch ν => w.gateway
  if 0 < a.timeoutNoAnswerMs then do
    let now ← ask env.timestampMsMonotonic
    if a.checkIfTimeoutReachedLocked now then .unfinished else return ()
  else return ()

def sendWatched (q : WatchedRequest ν α) : Call AnswerWatch ν α := do
  let heard ← Program.read fun w : World AnswerWatch ν => q.frames w.node
  let answer ← ask q.answer
  .change fun w : World AnswerWatch ν => { w with gateway := heard.foldl AnswerWatch.answered w.gateway }
  (if unanswered (q.res answer) then closeIfTimeoutReached env else pure ())
  return answer

/-- The watch and the node behind the request, before a check. -/
def received (q : WatchedRequest ν α) (w : World AnswerWatch ν) : World AnswerWatch ν :=
  { w with
    gateway := (q.frames w.node).foldl AnswerWatch.answered w.gateway
    node := (q.answer w.node).2 }

/-- The request is left without an answer, and the check behind it closes the process. -/
def Closes (q : WatchedRequest ν α) (w : World AnswerWatch ν) : Prop :=
  unanswered (q.res (q.answer w.node).1) = true ∧
    (received q w).gateway.checkIfTimeoutReachedLocked
      (env.timestampMsMonotonic (received q w).node).1 = true

/-- The world behind the request and its check, where the process goes on. -/
def afterRequest (q : WatchedRequest ν α) (w : World AnswerWatch ν) : World AnswerWatch ν :=
  if unanswered (q.res (q.answer w.node).1) = true ∧ 0 < (received q w).gateway.timeoutNoAnswerMs then
    { received q w with node := (env.timestampMsMonotonic (received q w).node).2 }
  else received q w

variable {env} {q : WatchedRequest ν α} {w t : World AnswerWatch ν}

theorem returns_closeIfTimeoutReached {u : Unit} : Returns (closeIfTimeoutReached env) w u t ↔
    w.gateway.checkIfTimeoutReachedLocked (env.timestampMsMonotonic w.node).1 = false ∧
      t = if 0 < w.gateway.timeoutNoAnswerMs then
        { w with node := (env.timestampMsMonotonic w.node).2 } else w := by
  unfold closeIfTimeoutReached
  rw [returns_bind]
  simp only [returns_read, exists_and_left, exists_eq_left, and_assoc]
  split
  · simp only [returns_bind, returns_ask, exists_and_left, exists_eq_left, and_assoc]
    split
    · next hSilent => simp [hSilent]
    · next hHeard => simp [hHeard]
  · next hOff => simp [AnswerWatch.checkIfTimeoutReachedLocked, hOff]

/-- A request comes back with its answer, or not at all. -/
theorem returns_sendWatched {answer : α} : Returns (sendWatched env q) w answer t ↔
    ¬ Closes env q w ∧ answer = (q.answer w.node).1 ∧ t = afterRequest env q w := by
  have hReceived : Returns (sendWatched env q) w answer t ↔
      Returns (do
        (if unanswered (q.res (q.answer w.node).1) then closeIfTimeoutReached env else pure ())
        return (q.answer w.node).1) (received q w) answer t := by
    unfold sendWatched
    simp only [returns_bind, returns_read, returns_ask, returns_change, exists_and_left, exists_eq_left,
      and_assoc, exists_const]
    rfl
  rw [hReceived, returns_bind, Closes, afterRequest]
  cases hUnanswered : unanswered (q.res (q.answer w.node).1) with
  | true =>
    simp only [if_true, returns_closeIfTimeoutReached, returns_pure, true_and, Bool.not_eq_true]
    constructor
    · rintro ⟨_, u, ⟨hOpen, rfl⟩, rfl, rfl⟩
      exact ⟨hOpen, rfl, rfl⟩
    · rintro ⟨hOpen, rfl, rfl⟩
      exact ⟨(), _, ⟨hOpen, rfl⟩, rfl, rfl⟩
  | false => simp

end Watching

section Node

variable {ν : Type} (env : Environment ν) (clock : ν → Nat)

/-- The state after one more reading of the clock. -/
def tick (n : ν) : ν := (env.timestampMsMonotonic n).2

/-- The clock is read until it has reached `endWait`. -/
inductive Waits (endWait : Nat) : ν → ν → Prop
  | elapsed {n : ν} (hOver : endWait ≤ clock n) : Waits endWait n (tick env n)
  | again {n n' : ν} (hEarly : clock n < endWait) (hRest : Waits endWait (tick env n) n') :
      Waits endWait n n'

/-- Every reading of the clock gives the time, which does not go back and passes any point. -/
structure KeepsTime : Prop where
  reads : ∀ n, (env.timestampMsMonotonic n).1 = clock n
  tick : ∀ n, clock n ≤ clock (tick env n)
  attributeRead : ∀ sap attributeId n, clock n ≤ clock (env.attributeRead sap attributeId n).2
  passes : ∀ endWait n, ∃ n', Waits env clock endWait n n'

def AnswersStatus (n : ν) : Prop :=
  ∃ status, readResult 1 byteDecode (env.attributeRead .msap msapStackStatus n).1 = .ok status

/-- The times of the frames that come in while the node is asked to stop, and for its status. -/
structure Heard (ν : Type) where
  stop : ν → List Nat
  status : ν → List Nat

variable (heard : Heard ν)

structure HeardInTime : Prop where
  stop : ∀ n, ∀ time ∈ heard.stop n, clock n ≤ time ∧ time ≤ clock (env.request stackStop n).2
  status : ∀ n, ∀ time ∈ heard.status n,
    clock n ≤ time ∧ time ≤ clock (env.attributeRead .msap msapStackStatus n).2

def stopRequest : WatchedRequest ν Int := ⟨heard.stop, env.request stackStop, id⟩

def statusRequest : WatchedRequest ν (Int × List UInt8) :=
  ⟨heard.status, env.attributeRead .msap msapStackStatus, Prod.fst⟩

def watchedStackStatus : Call AnswerWatch ν (Except AppRes UInt8) := do
  let answer ← sendWatched env (statusRequest env heard)
  return readResult 1 byteDecode answer

/-- `WPC_stop_stack`, with the check that may close the process. -/
def watchedStopStack : Call AnswerWatch ν AppRes :=
  stopStackBy env (sendWatched env (stopRequest env heard)) (watchedStackStatus env heard)

/-- The loop of `get_stack_status` has read the clock. -/
def ticked (w : World AnswerWatch ν) : World AnswerWatch ν := { w with node := tick env w.node }

/-- The world after a round of the loop of `get_stack_status`. -/
def asked (w : World AnswerWatch ν) : World AnswerWatch ν :=
  afterRequest env (statusRequest env heard) (ticked env w)

/-- Asked for its status over and over, the node answers a request that is sent in time. -/
inductive AnswersBy (inTime : Nat → Prop) : World AnswerWatch ν → Prop
  | answers {w : World AnswerWatch ν} (hTime : inTime (clock (tick env w.node)))
      (hAnswer : AnswersStatus env (tick env w.node)) : AnswersBy inTime w
  | later {w : World AnswerWatch ν} (hRest : AnswersBy inTime (asked env heard w)) : AnswersBy inTime w

/-- Zero leaves any time. -/
def InTime (durationS : UInt32) (start time : Nat) : Prop :=
  durationS = 0 ∨ time ≤ start + durationS.toNat * 1000

/-- The node was told to stop. -/
def stopped (w : World AnswerWatch ν) : World AnswerWatch ν := afterRequest env (stopRequest env heard) w

/-- The node, asked to stop in `w`, does so, and answers for its status in time when it is asked
for it after the half second of the active wait. The confirm of the stop may be lost. -/
structure ComesBack (durationS : UInt32) (w : World AnswerWatch ν) : Prop where
  accepts : (env.request stackStop w.node).1 ≤ 0
  answers : ∀ n', Waits env clock (clock (stopped env heard w).node + 500)
      (tick env (stopped env heard w).node) n' →
    AnswersBy env clock heard (InTime durationS (clock (stopped env heard w).node))
      { stopped env heard w with node := tick env n' }

/-- Of the requests for the status, up to the first that is answered, none closes the process. -/
def InTouch (w : World AnswerWatch ν) : Prop :=
  ∀ k, (∀ j ≤ k, ¬ AnswersStatus env (tick env ((asked env heard)^[j] w).node)) →
    ¬ Closes env (statusRequest env heard) (ticked env ((asked env heard)^[k] w))

/-- No request of the stop that is left without an answer finds the node silent for too long. -/
def StaysInTouch (w : World AnswerWatch ν) : Prop :=
  ¬ Closes env (stopRequest env heard) w ∧
    ∀ n', Waits env clock (clock (stopped env heard w).node + 500)
        (tick env (stopped env heard w).node) n' →
      InTouch env heard { stopped env heard w with node := tick env n' }

variable {env clock heard} {w t : World AnswerWatch ν} {n n' : ν} {endWait timeout : Nat}

theorem ask_clock (hTime : KeepsTime env clock) :
    Returns (ask env.timestampMsMonotonic : Call AnswerWatch ν Nat) w (clock w.node) (ticked env w) :=
  returns_ask.mpr ⟨(hTime.reads w.node).symm, rfl⟩

theorem Waits.clock_le (hTime : KeepsTime env clock) (h : Waits env clock endWait n n') :
    endWait ≤ clock n' := by
  induction h with
  | elapsed hOver => exact Nat.le_trans hOver (hTime.tick _)
  | again hEarly hRest ih => exact ih

theorem Waits.returns (hTime : KeepsTime env clock) (h : Waits env clock endWait n n')
    (w : World AnswerWatch ν) : ∃ k, ∀ k', k ≤ k' →
      Returns (waitUntil env endWait k') { w with node := n } () { w with node := n' } := by
  induction h with
  | elapsed hOver =>
    refine ⟨1, fun k' hk => ?_⟩
    obtain ⟨k', rfl⟩ := Nat.exists_eq_add_of_le' hk
    refine returns_bind.mpr ⟨_, _, ask_clock hTime, returns_ite.mpr (Or.inr ⟨Nat.not_lt_of_le hOver, ?_⟩)⟩
    exact returns_pure.mpr ⟨rfl, rfl⟩
  | again hEarly hRest ih =>
    obtain ⟨k, hReturns⟩ := ih
    refine ⟨k + 1, fun k' hk => ?_⟩
    obtain ⟨k', rfl⟩ := Nat.exists_eq_add_of_le' (Nat.le_trans (Nat.le_add_left 1 k) hk)
    exact returns_bind.mpr ⟨_, _, ask_clock hTime, returns_ite.mpr (Or.inl ⟨hEarly,
      hReturns k' (by omega)⟩)⟩

theorem Waits.of_returns (hTime : KeepsTime env clock) {k : Nat} {u : Unit}
    (h : Returns (waitUntil env endWait k) w u t) :
    ∃ n', Waits env clock endWait w.node n' ∧ t = { w with node := n' } := by
  induction k generalizing w with
  | zero => exact absurd h not_returns_unfinished
  | succ k ih =>
    obtain ⟨now, v, hNow, hRest⟩ := returns_bind.mp h
    obtain ⟨rfl, rfl⟩ := hNow.unique (ask_clock hTime)
    rcases returns_ite.mp hRest with ⟨hEarly, hAgain⟩ | ⟨hOver, hPure⟩
    · obtain ⟨n', hWaits, rfl⟩ := ih hAgain
      exact ⟨n', .again hEarly hWaits, rfl⟩
    · obtain ⟨-, rfl⟩ := returns_pure.mp hPure
      exact ⟨_, .elapsed (Nat.le_of_not_lt hOver), rfl⟩

theorem Waits.unique {n'' : ν} (h : Waits env clock endWait n n') (h' : Waits env clock endWait n n'') :
    n' = n'' := by
  induction h with
  | elapsed hOver =>
    cases h' with
    | elapsed => rfl
    | again hEarly => exact absurd hEarly (Nat.not_lt_of_le hOver)
  | again hEarly hRest ih =>
    cases h' with
    | elapsed hOver => exact absurd hEarly (Nat.not_lt_of_le hOver)
    | again _ hRest' => exact ih hRest'

theorem statics_afterRequest {α : Type} (q : WatchedRequest ν α) (w : World AnswerWatch ν) :
    (afterRequest env q w).statics = w.statics := by
  unfold afterRequest
  split <;> rfl

theorem clock_le_afterRequest {α : Type} (hTime : KeepsTime env clock) (q : WatchedRequest ν α)
    (w : World AnswerWatch ν) : clock (q.answer w.node).2 ≤ clock (afterRequest env q w).node := by
  unfold afterRequest
  split
  · exact hTime.tick _
  · exact Nat.le_refl _

theorem clock_le_asked (hTime : KeepsTime env clock) (w : World AnswerWatch ν) :
    clock w.node ≤ clock (asked env heard w).node :=
  calc clock w.node
    _ ≤ clock (tick env w.node) := hTime.tick w.node
    _ ≤ clock (env.attributeRead .msap msapStackStatus (tick env w.node)).2 := hTime.attributeRead _ _ _
    _ ≤ clock (asked env heard w).node := clock_le_afterRequest hTime (statusRequest env heard) (ticked env w)

theorem AnswersBy.clock_le {deadline : Nat} (hTime : KeepsTime env clock)
    (h : AnswersBy env clock heard (· ≤ deadline) w) : clock w.node ≤ deadline := by
  induction h with
  | answers hInTime hAnswer => exact Nat.le_trans (hTime.tick _) hInTime
  | later hRest ih => exact Nat.le_trans (clock_le_asked hTime _) ih

/-- Behind a status there is no check. -/
theorem not_closes_of_answersStatus (h : AnswersStatus env (tick env w.node)) :
    ¬ Closes env (statusRequest env heard) (ticked env w) := by
  obtain ⟨status, hStatus⟩ := h
  obtain ⟨⟨hZero, -⟩, -⟩ := readResult_eq_ok.mp hStatus
  rintro ⟨hUnanswered, -⟩
  change unanswered (env.attributeRead .msap msapStackStatus (tick env w.node)).1.1 = true at hUnanswered
  rw [hZero] at hUnanswered
  cases hUnanswered

theorem returns_watchedStackStatus {result : Except AppRes UInt8} :
    Returns (watchedStackStatus env heard) w result t ↔ ¬ Closes env (statusRequest env heard) w ∧
      result = readResult 1 byteDecode (env.attributeRead .msap msapStackStatus w.node).1 ∧
      t = afterRequest env (statusRequest env heard) w := by
  unfold watchedStackStatus
  rw [returns_bind]
  constructor
  · rintro ⟨answer, u, hSent, hPure⟩
    obtain ⟨hOpen, rfl, rfl⟩ := returns_sendWatched.mp hSent
    obtain ⟨rfl, rfl⟩ := returns_pure.mp hPure
    exact ⟨hOpen, rfl, rfl⟩
  · rintro ⟨hOpen, rfl, rfl⟩
    exact ⟨_, _, returns_sendWatched.mpr ⟨hOpen, rfl, rfl⟩, returns_pure.mpr ⟨rfl, rfl⟩⟩

/-- A round of the loop, while there is time. -/
theorem returns_round {k : Nat} {b : Bool} (hTime : KeepsTime env clock) (hEarly : clock w.node < timeout) :
    Returns (pollStackStatusBy env (watchedStackStatus env heard) timeout (k + 1)) w b t ↔
      ¬ Closes env (statusRequest env heard) (ticked env w) ∧
        ((AnswersStatus env (tick env w.node) ∧ b = true ∧ t = asked env heard w) ∨
          (¬ AnswersStatus env (tick env w.node) ∧
            Returns (pollStackStatusBy env (watchedStackStatus env heard) timeout k) (asked env heard w) b t)) := by
  have hRound : Returns (pollStackStatusBy env (watchedStackStatus env heard) timeout (k + 1)) w b t ↔
      ∃ u, (∃ status, Returns (watchedStackStatus env heard) (ticked env w) (.ok status) u ∧ b = true ∧ t = u) ∨
        ∃ error, Returns (watchedStackStatus env heard) (ticked env w) (.error error) u ∧
          Returns (pollStackStatusBy env (watchedStackStatus env heard) timeout k) u b t := by
    rw [pollStackStatusBy, returns_bind]
    constructor
    · rintro ⟨now, v, hNow, hRest⟩
      obtain ⟨rfl, rfl⟩ := hNow.unique (ask_clock hTime)
      rw [if_pos hEarly, returns_bind] at hRest
      obtain ⟨error | status, u, hStatus, hRest⟩ := hRest
      · exact ⟨u, .inr ⟨error, hStatus, hRest⟩⟩
      · obtain ⟨rfl, rfl⟩ := returns_pure.mp hRest
        exact ⟨_, .inl ⟨status, hStatus, rfl, rfl⟩⟩
    · intro hRest
      refine ⟨_, _, ask_clock hTime, ?_⟩
      rw [if_pos hEarly, returns_bind]
      obtain ⟨u, ⟨status, hStatus, rfl, rfl⟩ | ⟨error, hStatus, hRest⟩⟩ := hRest
      · exact ⟨.ok status, _, hStatus, returns_pure.mpr ⟨rfl, rfl⟩⟩
      · exact ⟨.error error, u, hStatus, hRest⟩
  rw [hRound]
  constructor
  · rintro ⟨u, ⟨status, hStatus, rfl, rfl⟩ | ⟨error, hStatus, hRest⟩⟩
    · obtain ⟨hOpen, hOk, rfl⟩ := returns_watchedStackStatus.mp hStatus
      exact ⟨hOpen, .inl ⟨⟨status, hOk.symm⟩, rfl, rfl⟩⟩
    · obtain ⟨hOpen, hError, rfl⟩ := returns_watchedStackStatus.mp hStatus
      refine ⟨hOpen, .inr ⟨?_, hRest⟩⟩
      rintro ⟨status, hOk⟩
      exact nomatch hError.trans hOk
  · rintro ⟨hOpen, ⟨⟨status, hOk⟩, rfl, rfl⟩ | ⟨hSilent, hRest⟩⟩
    · exact ⟨_, .inl ⟨status, returns_watchedStackStatus.mpr ⟨hOpen, hOk.symm, rfl⟩, rfl, rfl⟩⟩
    · cases hAnswer : readResult 1 byteDecode
          (env.attributeRead .msap msapStackStatus (tick env w.node)).1 with
      | ok status => exact absurd ⟨status, hAnswer⟩ hSilent
      | error error =>
        exact ⟨_, .inr ⟨error, returns_watchedStackStatus.mpr ⟨hOpen, hAnswer.symm, rfl⟩, hRest⟩⟩

/-- When the time is over, the loop ends without a status. -/
theorem returns_late {k : Nat} {b : Bool} (hTime : KeepsTime env clock) (hLate : timeout ≤ clock w.node)
    (h : Returns (pollStackStatusBy env (watchedStackStatus env heard) timeout k) w b t) : b = false := by
  cases k with
  | zero => exact absurd h not_returns_unfinished
  | succ k =>
    obtain ⟨now, v, hNow, hRest⟩ := returns_bind.mp h
    obtain ⟨rfl, rfl⟩ := hNow.unique (ask_clock hTime)
    rw [if_neg (Nat.not_lt_of_le hLate)] at hRest
    exact (returns_pure.mp hRest).1

theorem inTouch_of_returns {k : Nat} (hTime : KeepsTime env clock)
    (h : Returns (pollStackStatusBy env (watchedStackStatus env heard) timeout k) w true t) :
    InTouch env heard w := by
  induction k generalizing w with
  | zero => exact absurd h not_returns_unfinished
  | succ k ih =>
    have hEarly : clock w.node < timeout := by
      by_contra hLate
      exact nomatch returns_late hTime (Nat.le_of_not_lt hLate) h
    obtain ⟨hOpen, ⟨hAnswer, -, -⟩ | ⟨-, hRest⟩⟩ := (returns_round hTime hEarly).mp h
    · exact fun k hSilent => absurd hAnswer (hSilent 0 (Nat.zero_le k))
    · intro k hSilent
      cases k with
      | zero => exact hOpen
      | succ k => exact ih hRest k fun j hj => hSilent (j + 1) (Nat.succ_le_succ hj)

/-- A status that is answered by the deadline is got while there is time. -/
theorem AnswersBy.returns {deadline : Nat} (hTime : KeepsTime env clock)
    (h : AnswersBy env clock heard (· ≤ deadline) w) (hDeadline : deadline < timeout)
    (hTouch : InTouch env heard w) : ∃ k t, ∀ k', k ≤ k' →
      Returns (pollStackStatusBy env (watchedStackStatus env heard) timeout k') w true t := by
  have hAnswered : ∀ {w}, clock w.node < timeout → AnswersStatus env (tick env w.node) →
      ∃ k t, ∀ k', k ≤ k' →
        Returns (pollStackStatusBy env (watchedStackStatus env heard) timeout k') w true t := by
    intro w hEarly hAnswer
    refine ⟨1, asked env heard w, fun k' hk => ?_⟩
    obtain ⟨k', rfl⟩ := Nat.exists_eq_add_of_le' hk
    exact (returns_round hTime hEarly).mpr
      ⟨not_closes_of_answersStatus hAnswer, .inl ⟨hAnswer, rfl, rfl⟩⟩
  induction h with
  | @answers w hInTime hAnswer =>
    exact hAnswered (Nat.lt_of_le_of_lt (Nat.le_trans (hTime.tick w.node) hInTime) hDeadline) hAnswer
  | @later w hRest ih =>
    have hEarly : clock w.node < timeout :=
      Nat.lt_of_le_of_lt (Nat.le_trans (clock_le_asked hTime w) (hRest.clock_le hTime)) hDeadline
    by_cases hAnswer : AnswersStatus env (tick env w.node)
    · exact hAnswered hEarly hAnswer
    · have hSilent : ∀ j ≤ 0, ¬ AnswersStatus env (tick env ((asked env heard)^[j] w).node) :=
        fun j hj => Nat.le_zero.mp hj ▸ hAnswer
      have hLater : InTouch env heard (asked env heard w) := by
        intro k hRest
        refine hTouch (k + 1) fun j hj => ?_
        cases j with
        | zero => exact hAnswer
        | succ j => exact hRest j (Nat.le_of_succ_le_succ hj)
      obtain ⟨k, t, hReturns⟩ := ih hLater
      refine ⟨k + 1, t, fun k' hk => ?_⟩
      obtain ⟨k', rfl⟩ := Nat.exists_eq_add_of_le' (Nat.le_trans (Nat.le_add_left 1 k) hk)
      exact (returns_round hTime hEarly).mpr ⟨hTouch 0 hSilent, .inr ⟨hAnswer, hReturns k' (by omega)⟩⟩

theorem waitUntil_rounds (env : Environment ν) (rounds endWait k : Nat) :
    (waitUntil { env with rounds } endWait k : Call AnswerWatch ν Unit) = waitUntil env endWait k := by
  induction k with
  | zero => rfl
  | succ k ih =>
    simp only [waitUntil]
    rw [ih]

theorem pollStackStatusBy_rounds (env : Environment ν) (status : Call AnswerWatch ν (Except AppRes UInt8))
    (rounds timeout k : Nat) :
    pollStackStatusBy { env with rounds } status timeout k = pollStackStatusBy env status timeout k := by
  induction k with
  | zero => rfl
  | succ k ih =>
    simp only [pollStackStatusBy]
    rw [ih]

/-- A stop that is carried out succeeds with a status. -/
theorem returns_watchedStopStack (hTime : KeepsTime env clock) {rounds : Nat}
    (hAccepts : (env.request stackStop w.node).1 ≤ 0) :
    Returns (watchedStopStack { env with rounds } heard) w .ok t ↔
      ¬ Closes env (stopRequest env heard) w ∧ ∃ n',
        Returns (waitUntil env (clock (stopped env heard w).node + 500) rounds)
          (ticked env (stopped env heard w)) () { stopped env heard w with node := n' } ∧
        Returns (pollStackStatusBy env (watchedStackStatus env heard)
          (clock n' + w.statics.timeoutAfterStopTaskS.toUInt16.toNat * 1000) rounds)
          { stopped env heard w with node := tick env n' } true t := by
  have hStatics : (stopped env heard w).statics = w.statics := statics_afterRequest _ w
  have hClock (v : World AnswerWatch ν) :
      Returns (ask env.timestampMsMonotonic) v (clock v.node) (ticked env v) := ask_clock hTime
  constructor
  · intro h
    obtain ⟨res, u, hStop, h⟩ := returns_bind.mp h
    obtain ⟨hOpen, rfl, rfl⟩ := returns_sendWatched.mp hStop
    obtain ⟨-, h⟩ := (returns_ite.mp h).resolve_left fun hStopped => nomatch (returns_pure.mp hStopped.2).1
    obtain ⟨-, h⟩ := (returns_ite.mp h).resolve_left fun hDenied => nomatch (returns_pure.mp hDenied.2).1
    obtain ⟨now, u, hNow, h⟩ := returns_bind.mp h
    obtain ⟨rfl, rfl⟩ := hNow.unique (hClock (stopped env heard w))
    obtain ⟨_, u, hWait, h⟩ := returns_bind.mp h
    rw [waitUntil_rounds] at hWait
    obtain ⟨n', -, rfl⟩ := Waits.of_returns hTime hWait
    obtain ⟨timeoutS, u, hTimeout, h⟩ := returns_bind.mp h
    obtain ⟨rfl, rfl⟩ := returns_read.mp hTimeout
    obtain ⟨answered, v, hStatus, h⟩ := returns_bind.mp h
    obtain ⟨now, x, hNow, hPoll⟩ := returns_bind.mp hStatus
    obtain ⟨rfl, rfl⟩ := hNow.unique (hClock { stopped env heard w with node := n' })
    rw [pollStackStatusBy_rounds] at hPoll
    obtain ⟨rfl, hPure⟩ := (returns_ite.mp h).resolve_right fun hLate => nomatch (returns_pure.mp hLate.2).1
    obtain ⟨-, rfl⟩ := returns_pure.mp hPure
    refine ⟨hOpen, n', hWait, ?_⟩
    rw [← hStatics]
    exact hPoll
  · rintro ⟨hOpen, n', hWait, hPoll⟩
    have hStop : Returns (sendWatched { env with rounds } (stopRequest { env with rounds } heard)) w
        (env.request stackStop w.node).1 (stopped env heard w) :=
      returns_sendWatched.mpr ⟨hOpen, rfl, rfl⟩
    have hStatus : Returns (getStackStatusBy { env with rounds } (watchedStackStatus { env with rounds } heard)
        w.statics.timeoutAfterStopTaskS.toUInt16) { stopped env heard w with node := n' } true t := by
      refine returns_bind.mpr ⟨clock n', _, hClock { stopped env heard w with node := n' }, ?_⟩
      rw [pollStackStatusBy_rounds]
      exact hPoll
    refine returns_bind.mpr ⟨_, _, hStop, returns_ite.mpr (Or.inr ⟨by omega, ?_⟩)⟩
    refine returns_ite.mpr (Or.inr ⟨by omega, returns_bind.mpr ⟨_, _, hClock (stopped env heard w), ?_⟩⟩)
    refine returns_bind.mpr ⟨(), { stopped env heard w with node := n' }, ?_, ?_⟩
    · rw [waitUntil_rounds]
      exact hWait
    · refine returns_bind.mpr ⟨w.statics.timeoutAfterStopTaskS, _,
        returns_read.mpr ⟨(congrArg Statics.timeoutAfterStopTaskS hStatics).symm, rfl⟩, ?_⟩
      exact returns_bind.mpr ⟨true, t, hStatus, returns_ite.mpr (Or.inl ⟨rfl, returns_pure.mpr ⟨rfl, rfl⟩⟩)⟩

/-- Where the status is answered within the duration, a stop comes through just if no request of it
closes the process. -/
theorem ComesBack.returns_iff {durationS : UInt32} (hTime : KeepsTime env clock)
    (hSet : w.statics.timeoutAfterStopTaskS = durationS) (hSome : 0 < durationS)
    (hShort : durationS.toNat < 2 ^ 16) (h : ComesBack env clock heard durationS w) :
    (∃ rounds t, Returns (watchedStopStack { env with rounds } heard) w .ok t) ↔
      StaysInTouch env clock heard w := by
  obtain ⟨hAccepts, hAnswers⟩ := h
  constructor
  · rintro ⟨rounds, t, hReturns⟩
    obtain ⟨hOpen, n', hWait, hPoll⟩ := (returns_watchedStopStack hTime hAccepts).mp hReturns
    refine ⟨hOpen, fun n'' hWaits => ?_⟩
    obtain ⟨n, hWaited, hSame⟩ := Waits.of_returns hTime hWait
    obtain rfl : n' = n := congrArg World.node hSame
    obtain rfl := hWaits.unique hWaited
    exact inTouch_of_returns hTime hPoll
  · rintro ⟨hOpen, hTouch⟩
    obtain ⟨n', hWaits⟩ := hTime.passes (clock (stopped env heard w).node + 500)
      (tick env (stopped env heard w).node)
    have hInTime : InTime durationS (clock (stopped env heard w).node) =
        (· ≤ clock (stopped env heard w).node + durationS.toNat * 1000) := by
      funext time
      have hNonzero : durationS ≠ 0 := fun hZero => absurd (hZero ▸ hSome) (by decide)
      exact propext (or_iff_right hNonzero)
    have hAnswersBy := hAnswers n' hWaits
    rw [hInTime] at hAnswersBy
    have hCut : durationS.toUInt16.toNat = durationS.toNat := by
      rw [UInt32.toNat_toUInt16]
      exact Nat.mod_eq_of_lt hShort
    have hLater : clock (stopped env heard w).node + durationS.toNat * 1000 <
        clock n' + w.statics.timeoutAfterStopTaskS.toUInt16.toNat * 1000 := by
      have hWaited := hWaits.clock_le hTime
      rw [hSet, hCut]
      omega
    obtain ⟨k, hWait⟩ := hWaits.returns hTime (stopped env heard w)
    obtain ⟨l, t, hPoll⟩ := hAnswersBy.returns hTime hLater (hTouch n' hWaits)
    exact ⟨k + l, t, (returns_watchedStopStack hTime hAccepts).mpr
      ⟨hOpen, n', hWait (k + l) (by omega), hPoll (k + l) (by omega)⟩⟩

/-- The times that are noted one after the other leave the last of them. -/
theorem lastAnswer_ge {start : Nat} {a : AnswerWatch} {answers : List Nat}
    (hLast : start ≤ a.lastSuccessfulAnswerTs) (hAnswers : ∀ time ∈ answers, start ≤ time) :
    start ≤ (answers.foldl AnswerWatch.answered a).lastSuccessfulAnswerTs := by
  induction answers generalizing a with
  | nil => exact hLast
  | cons time answers ih =>
    obtain ⟨hTime, hAnswers⟩ := List.forall_mem_cons.mp hAnswers
    exact ih hTime hAnswers

theorem afterRequest_gateway {α : Type} (q : WatchedRequest ν α) (w : World AnswerWatch ν) :
    (afterRequest env q w).gateway = (q.frames w.node).foldl AnswerWatch.answered w.gateway := by
  unfold afterRequest
  split <;> rfl

/-- A node that was heard from at `start` or later is not silent for too long while it is asked for
the status, if it answers within the duration from `start` on. -/
theorem AnswersBy.inTouch {start : Nat} (hTime : KeepsTime env clock) (hHeard : HeardInTime env clock heard)
    (h : AnswersBy env clock heard (· ≤ start + w.gateway.timeoutNoAnswerMs.toNat) w)
    (hStart : start ≤ clock w.node) (hLast : start ≤ w.gateway.lastSuccessfulAnswerTs) :
    InTouch env heard w := by
  generalize hDeadline : start + w.gateway.timeoutNoAnswerMs.toNat = deadline at h
  induction h with
  | answers hInTime hAnswer => exact fun k hSilent => absurd hAnswer (hSilent 0 (Nat.zero_le k))
  | @later w hRest ih =>
    have hFrames : ∀ time ∈ heard.status (tick env w.node), start ≤ time := fun time hMem =>
      Nat.le_trans (Nat.le_trans hStart (hTime.tick w.node)) (hHeard.status _ time hMem).1
    have hLastNow : start ≤ (asked env heard w).gateway.lastSuccessfulAnswerTs := by
      rw [asked, afterRequest_gateway]
      exact lastAnswer_ge hLast hFrames
    have hTimeout : (asked env heard w).gateway.timeoutNoAnswerMs = w.gateway.timeoutNoAnswerMs := by
      rw [asked, afterRequest_gateway]
      exact AnswerWatch.timeout_answers _ _
    have hLater := ih (Nat.le_trans hStart (clock_le_asked hTime w)) hLastNow (by rw [hTimeout, hDeadline])
    intro k hSilent
    cases k with
    | succ k => exact hLater k fun j hj => hSilent (j + 1) (Nat.succ_le_succ hj)
    | zero =>
      rintro ⟨-, hCloses⟩
      have hReceived : clock (received (statusRequest env heard) (ticked env w)).node ≤ deadline :=
        Nat.le_trans (clock_le_afterRequest hTime (statusRequest env heard) (ticked env w))
          (hRest.clock_le hTime)
      have hNow := hTime.reads (received (statusRequest env heard) (ticked env w)).node
      have hGateway : (received (statusRequest env heard) (ticked env w)).gateway =
          (asked env heard w).gateway := (afterRequest_gateway _ _).symm
      rw [Function.iterate_zero_apply, AnswerWatch.checkIfTimeoutReachedLocked, Bool.and_eq_true, decide_eq_true_eq,
        decide_eq_true_eq, hNow, hGateway, hTimeout] at hCloses
      omega

end Node

/-- After the duration is set, a check closes the process only if it is not zero and the node was
silent for longer. A stop of a node that comes back in time comes through, unless a request of it
that is left without an answer finds the node silent for that long. -/
structure DurationKept {ν : Type} (env : Environment ν) (clock : ν → Nat) (heard : Heard ν)
    (durationS : UInt32) (w t : World AnswerWatch ν) : Prop where
  closes : ∀ (before answers : List Nat) (now : Nat),
    (∀ time ∈ before, time ≤ w.gateway.lastSuccessfulAnswerTs) →
    (clock w.node :: answers ++ [now]).Pairwise (· ≤ ·) →
    (answers.foldl AnswerWatch.answered t.gateway).checkIfTimeoutReachedLocked now = true →
    0 < durationS ∧ ∀ time ∈ before ++ answers, durationS.toNat * 1000 < now - time
  stops : ∀ u : World AnswerWatch ν, u.statics = t.statics →
    u.gateway.timeoutNoAnswerMs = t.gateway.timeoutNoAnswerMs →
    u.gateway.lastSuccessfulAnswerTs ≤ clock u.node → ComesBack env clock heard durationS u →
      ((∃ rounds v, Returns (watchedStopStack { env with rounds } heard) u .ok v) ↔
        StaysInTouch env clock heard u)

/-- In all surroundings with a clock, the duration that is set is kept. -/
def KeepsDuration (durationS : UInt32) : Prop :=
  ∀ (ν : Type) (env : Environment ν) (clock : ν → Nat) (heard : Heard ν) (w t : World AnswerWatch ν),
    KeepsTime env clock → HeardInTime env clock heard →
    w.gateway.lastSuccessfulAnswerTs ≤ clock w.node →
    Returns (wpcSetMaxPollFailDuration env durationS) w .ok t → DurationKept env clock heard durationS w t

section Kept

variable {ν : Type} {env : Environment ν} {clock : ν → Nat} {heard : Heard ν} {durationS : UInt32}
  {w t : World AnswerWatch ν}

theorem toNat_timeoutNoAnswerMs (hShort : durationS.toNat < 2 ^ 16) :
    (durationS * 1000).toNat = durationS.toNat * 1000 := by
  rw [UInt32.toNat_mul]
  exact Nat.mod_eq_of_lt (show durationS.toNat * 1000 < 2 ^ 32 by omega)

theorem closes_of_short (hTime : KeepsTime env clock) (hShort : durationS.toNat < 2 ^ 16)
    (hLast : w.gateway.lastSuccessfulAnswerTs ≤ clock w.node)
    (hSet : Returns (wpcSetMaxPollFailDuration env durationS) w .ok t) {before answers : List Nat} {now : Nat}
    (hBefore : ∀ time ∈ before, time ≤ w.gateway.lastSuccessfulAnswerTs)
    (hOrdered : (clock w.node :: answers ++ [now]).Pairwise (· ≤ ·))
    (hCloses : (answers.foldl AnswerWatch.answered t.gateway).checkIfTimeoutReachedLocked now = true) :
    0 < durationS ∧ ∀ time ∈ before ++ answers, durationS.toNat * 1000 < now - time := by
  obtain ⟨-, -, hTimeout, hStart⟩ := returns_wpcSetMaxPollFailDuration env hSet
  rw [hTime.reads] at hStart
  have hMs := toNat_timeoutNoAnswerMs hShort
  rw [AnswerWatch.checkIfTimeoutReachedLocked, AnswerWatch.timeout_answers, hTimeout, Bool.and_eq_true,
    decide_eq_true_eq, decide_eq_true_eq, hMs] at hCloses
  obtain ⟨hOn, hSilent⟩ := hCloses
  have hOn : 0 < (durationS * 1000).toNat := UInt32.lt_iff_toNat_lt.mp hOn
  refine ⟨UInt32.lt_iff_toNat_lt.mpr (show 0 < durationS.toNat by omega), fun time hHeard => ?_⟩
  obtain ⟨hAnswers, -, -⟩ := List.pairwise_append.mp hOrdered
  obtain ⟨hLater, hAnswers⟩ := List.pairwise_cons.mp hAnswers
  have hFromSet : (t.gateway.lastSuccessfulAnswerTs :: answers).Pairwise (· ≤ ·) :=
    List.pairwise_cons.mpr ⟨fun time hTime => Nat.le_trans (by omega) (hLater time hTime), hAnswers⟩
  have hKept := AnswerWatch.answer_le_last hFromSet
  have hBound : time ≤ (answers.foldl AnswerWatch.answered t.gateway).lastSuccessfulAnswerTs := by
    rcases List.mem_append.mp hHeard with hOld | hNew
    · have hFirst := hKept _ List.mem_cons_self
      have hOld := hBefore time hOld
      omega
    · exact hKept time (List.mem_cons_of_mem _ hNew)
  omega

theorem keepsDuration (hSome : 0 < durationS) (hShort : durationS.toNat < 2 ^ 16) :
    KeepsDuration durationS := by
  intro ν env clock heard w t hTime _ hLast hSet
  obtain ⟨-, hStatics, -⟩ := returns_wpcSetMaxPollFailDuration env hSet
  refine ⟨fun before answers now => closes_of_short hTime hShort hLast hSet, ?_⟩
  intro u hSame _ _ hBack
  exact hBack.returns_iff hTime (by rw [hSame, hStatics]) hSome hShort

/-- With its confirm received, a stop comes through on every node that is back within the duration,
counted from the confirm: no check is made before, and none of those behind it closes the process. -/
theorem confirmed_staysInTouch {confirmed : Nat} (hTime : KeepsTime env clock)
    (hHeard : HeardInTime env clock heard) (hShort : durationS.toNat < 2 ^ 16)
    (hSet : w.gateway.timeoutNoAnswerMs = durationS * 1000)
    (hAccepts : (env.request stackStop w.node).1 = 0)
    (hConfirmed : (heard.stop w.node).getLast? = some confirmed)
    (hBack : ∀ n', Waits env clock (clock (stopped env heard w).node + 500)
        (tick env (stopped env heard w).node) n' →
      AnswersBy env clock heard (· ≤ confirmed + durationS.toNat * 1000)
        { stopped env heard w with node := tick env n' }) :
    StaysInTouch env clock heard w := by
  have hAnswered : unanswered (env.request stackStop w.node).1 = false := by
    rw [hAccepts]
    rfl
  refine ⟨fun hCloses => absurd (hAnswered.symm.trans hCloses.1) nofun, fun n' hWaits => ?_⟩
  have hGateway : (afterRequest env (stopRequest env heard) w).gateway =
      ((stopRequest env heard).frames w.node).foldl AnswerWatch.answered w.gateway := afterRequest_gateway _ w
  obtain ⟨earlier, hFrames⟩ := List.getLast?_eq_some_iff.mp hConfirmed
  have hLast : (stopped env heard w).gateway.lastSuccessfulAnswerTs = confirmed := by
    have hHeardStop : (stopRequest env heard).frames w.node = earlier ++ [confirmed] := hFrames
    rw [stopped, hGateway, hHeardStop, List.foldl_append]
    rfl
  have hTimeout : (stopped env heard w).gateway.timeoutNoAnswerMs.toNat = durationS.toNat * 1000 := by
    rw [stopped, hGateway, AnswerWatch.timeout_answers, hSet, toNat_timeoutNoAnswerMs hShort]
  have hBefore : confirmed ≤ clock (stopped env heard w).node := by
    have hMem : confirmed ∈ heard.stop w.node := List.mem_of_getLast? hConfirmed
    exact Nat.le_trans (hHeard.stop _ _ hMem).2 (clock_le_afterRequest hTime (stopRequest env heard) w)
  have hLater : clock (stopped env heard w).node ≤ clock (tick env n') := by
    have hWaited := hWaits.clock_le hTime
    have hTick := hTime.tick n'
    omega
  have hAnswers := hBack n' hWaits
  rw [← hTimeout] at hAnswers
  exact hAnswers.inTouch hTime hHeard (Nat.le_trans hBefore hLater) (Nat.le_of_eq hLast.symm)

end Kept

/-- The node is its number of steps: half seconds up to its reboot, and milliseconds after it. -/
def lateClock (up n : Nat) : Nat := if n < 5 then 500 * n else up + (n - 5)

/-- Answers for its status after the reboot, which ends at the time `up`; what it sends before has a
wrong CRC. -/
def lateNode (up : Nat) : Environment Nat where
  request _ n := (0, n)
  attributeRead _ _ n := if n < 5 then ((wpcIntWrongCrc, []), 5) else ((0, [0]), n)
  appConfigDataRead n := ((1, ⟨0, 0, []⟩), n)
  scratchpadStatus n := ((0, ⟨0, 0, 0, 0, 0, 0, 0, 0, 0⟩), n)
  scratchpadTargetRead n := ((1, ⟨0, 0, 0, 0⟩), n)
  timestampMsMonotonic n := (lateClock up n, n + 1)
  timestampMsEpoch n := (0, n)
  malloc n := (true, n)
  rand n := (0, n)
  rounds := 0

def lateHeard (up : Nat) : Heard Nat where
  stop n := [lateClock up n]
  status n := if n < 5 then [] else [lateClock up n]

section Late

variable {up : Nat}

theorem lateClock_mono (hUp : 2000 ≤ up) {n n' : Nat} (h : n ≤ n') : lateClock up n ≤ lateClock up n' := by
  unfold lateClock
  split <;> split <;> omega

theorem lateNode_waits (endWait n : Nat) : ∃ n', Waits (lateNode up) (lateClock up) endWait n n' := by
  by_cases hOver : endWait ≤ lateClock up n
  · exact ⟨_, .elapsed hOver⟩
  · have hSteps : n < endWait + 5 := by
      unfold lateClock at hOver
      split at hOver <;> omega
    obtain ⟨n', hRest⟩ := lateNode_waits endWait (n + 1)
    exact ⟨n', .again (Nat.lt_of_not_le hOver) hRest⟩
termination_by endWait + 5 - n

theorem lateNode_keepsTime (hUp : 2000 ≤ up) : KeepsTime (lateNode up) (lateClock up) where
  reads _ := rfl
  tick n := lateClock_mono hUp (Nat.le_succ n)
  attributeRead sap attributeId n := by
    change lateClock up n ≤
      lateClock up (if n < 5 then ((wpcIntWrongCrc, []), 5) else ((0, [0]), n) : (Int × List UInt8) × Nat).2
    split
    · next hDown => exact lateClock_mono hUp (Nat.le_of_lt hDown)
    · exact Nat.le_refl _
  passes := lateNode_waits

theorem lateNode_heardInTime : HeardInTime (lateNode up) (lateClock up) (lateHeard up) where
  stop n time hMem := by
    obtain rfl := List.mem_singleton.mp hMem
    exact ⟨Nat.le_refl _, Nat.le_refl _⟩
  status n time hMem := by
    unfold lateHeard at hMem
    dsimp only at hMem
    split at hMem
    · cases hMem
    · next hUp =>
      obtain rfl := List.mem_singleton.mp hMem
      have hSame : ((lateNode up).attributeRead .msap msapStackStatus n).2 = n := congrArg Prod.snd (if_neg hUp)
      rw [hSame]
      exact ⟨Nat.le_refl _, Nat.le_refl _⟩

/-- No request to this node is left without an answer. -/
theorem lateNode_status_not_closes (w : World AnswerWatch Nat) :
    ¬ Closes (lateNode up) (statusRequest (lateNode up) (lateHeard up)) w := by
  rintro ⟨hUnanswered, -⟩
  have hAnswered : unanswered ((lateNode up).attributeRead .msap msapStackStatus w.node).1.1 = false := by
    change unanswered (if w.node < 5 then ((wpcIntWrongCrc, []), 5) else ((0, [0]), w.node)).1.1 = false
    split
    · rfl
    · rfl
  exact nomatch hAnswered.symm.trans hUnanswered

theorem lateNode_staysInTouch (w : World AnswerWatch Nat) :
    StaysInTouch (lateNode up) (lateClock up) (lateHeard up) w :=
  ⟨fun hCloses => absurd hCloses.1 (show ¬ unanswered 0 = true by decide),
    fun _ _ _ _ => lateNode_status_not_closes _⟩

theorem lateNode_comesBack {durationS : UInt32} {w : World AnswerWatch Nat} (hNode : w.node = 0)
    (hUp : durationS = 0 ∨ up + 1 ≤ durationS.toNat * 1000) :
    ComesBack (lateNode up) (lateClock up) (lateHeard up) durationS w := by
  obtain ⟨statics, gateway, node⟩ := w
  obtain rfl : node = 0 := hNode
  refine ⟨Int.le_refl 0, fun n' hWaits => ?_⟩
  have hInTime : InTime durationS 0 (up + 1) :=
    hUp.imp_right fun hLe => Nat.le_trans hLe (Nat.le_add_left _ _)
  cases hWaits with
  | elapsed hOver =>
    refine .later (.answers hInTime ⟨0, ?_⟩)
    rfl
  | again hEarly hRest => exact absurd (show 500 < 500 from hEarly) (Nat.lt_irrefl 500)

theorem lateNode_gives_up {w t : World AnswerWatch Nat} (hUp : 2000 ≤ up)
    (hNode : w.node = 0) (hLate : 1000 + w.statics.timeoutAfterStopTaskS.toUInt16.toNat * 1000 ≤ up)
    (rounds : Nat) :
    ¬ Returns (watchedStopStack { lateNode up with rounds } (lateHeard up)) w .ok t := by
  obtain ⟨statics, gateway, node⟩ := w
  obtain rfl : node = 0 := hNode
  have hTime := lateNode_keepsTime hUp
  intro h
  obtain ⟨-, n', hWait, hPoll⟩ := (returns_watchedStopStack hTime (Int.le_refl 0)).mp h
  obtain ⟨n'', hWaits, hSame⟩ := Waits.of_returns hTime hWait
  obtain rfl : n' = n'' := congrArg World.node hSame
  have hTwo : n' = 2 := by
    cases hWaits with
    | elapsed hOver => rfl
    | again hEarly hRest => exact absurd (show 500 < 500 from hEarly) (Nat.lt_irrefl 500)
  subst hTwo
  have hLost : ¬ AnswersStatus (lateNode up) 4 := by
    rintro ⟨status, hStatus⟩
    exact absurd (readResult_eq_ok.mp hStatus).1.1 (show ¬ wpcIntWrongCrc = 0 by decide)
  rcases Nat.lt_or_ge 1500 (1000 + statics.timeoutAfterStopTaskS.toUInt16.toNat * 1000) with hEarly | hOver
  · cases rounds with
    | zero => exact not_returns_unfinished hPoll
    | succ k =>
      obtain ⟨-, ⟨hAnswer, -⟩ | ⟨-, hRest⟩⟩ := (returns_round hTime hEarly).mp hPoll
      · exact hLost hAnswer
      · exact nomatch returns_late hTime hLate hRest
  · exact nomatch returns_late hTime hOver hPoll

theorem not_keepsDuration {durationS : UInt32} (h : durationS = 0 ∨ 2 ^ 16 ≤ durationS.toNat) :
    ¬ KeepsDuration durationS := by
  intro hKeeps
  have hCut : durationS.toUInt16.toNat = durationS.toNat % 2 ^ 16 := UInt32.toNat_toUInt16 durationS
  obtain ⟨up, hUp, hInTime, hLate⟩ : ∃ up, 2000 ≤ up ∧
      (durationS = 0 ∨ up + 1 ≤ durationS.toNat * 1000) ∧
      1000 + durationS.toUInt16.toNat * 1000 ≤ up := by
    rcases h with hZero | hLong
    · exact ⟨2000, Nat.le_refl _, Or.inl hZero, by rw [hZero]; decide⟩
    · exact ⟨durationS.toNat * 1000 - 1, by omega, Or.inr (by omega), by omega⟩
  let w : World AnswerWatch Nat := ⟨⟨60, 102⟩, ⟨60000, 0⟩, 0⟩
  let t : World AnswerWatch Nat := ⟨⟨durationS, 102⟩, ⟨durationS * 1000, 0⟩, 0⟩
  have hSet : Returns (wpcSetMaxPollFailDuration (lateNode up) durationS) w .ok t := rfl
  have hKept := hKeeps Nat (lateNode up) (lateClock up) (lateHeard up) w t (lateNode_keepsTime hUp)
    lateNode_heardInTime (Nat.le_refl 0) hSet
  obtain ⟨rounds, v, hStop⟩ := (hKept.stops t rfl rfl (Nat.le_refl 0) (lateNode_comesBack rfl hInTime)).mpr
    (lateNode_staysInTouch t)
  exact lateNode_gives_up hUp (show t.node = 0 from rfl) hLate rounds hStop

end Late

end CMeshApi.Wpc
