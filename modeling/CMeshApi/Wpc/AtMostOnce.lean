import CMeshApi.Wpc.Link

/-!
# A request is executed at most once

A call sends its request again when it reads a dummy confirm, since the node did
not execute the corrupted frame. This is safe for a dummy confirm that answers the
call's own frame. Nothing in the dummy confirm says which frame it answers: one
that is left from an earlier call makes the host resend a request that the node
has executed.
-/

namespace CMeshApi.Wpc.Link

open Machine

/-- The reply is not a dummy confirm for a frame of another call. -/
def AnswersCall (a : Active) : Reply → Prop
  | .dummy j => j = a.call
  | _ => True

instance (a : Active) (reply : Reply) : Decidable (AnswersCall a reply) := by
  cases reply <;> unfold AnswersCall <;> infer_instance

/-- A dummy confirm that a call reads answers a frame of that call. -/
def OwnDummy (s : Link) : Event → Prop
  | .receive _ => ∀ a ∈ s.current, ∀ reply ∈ s.replies.head?, AnswersCall a reply
  | _ => True

instance (s : Link) (e : Event) : Decidable (s.OwnDummy e) := by
  cases e <;> unfold OwnDummy <;> infer_instance

/-- Of the frames that the call in its loop has sent, either one was executed, or one is
answered by a dummy confirm still on the link, or neither. -/
structure Once (s : Link) : Prop where
  once : ∀ j, s.executed.count j ≤ 1
  past : ∀ j ∈ s.executed, j < s.calls
  answered : ∀ j, .dummy j ∈ s.replies → j < s.calls
  current : ∀ a, s.current = some a →
    a.call < s.calls ∧ s.replies.count (.dummy a.call) + s.executed.count a.call ≤ 1

theorem once_init : Once init where
  once _ := Nat.zero_le _
  past _ h := by cases h
  answered _ h := by cases h
  current _ h := by cases h

variable {s t : Link}

theorem count_answer (a : Active) (fate : Fate) :
    (answer a fate).count (.dummy a.call) + (executions a fate).count a.call ≤ 1 := by
  cases fate with
  | failed => exact Nat.zero_le _
  | lost => exact Nat.zero_le _
  | corrupted => simp [answer, executions]
  | intact payload => simp [answer, executions]

theorem mem_executions {a : Active} {fate : Fate} {j : Nat} (h : j ∈ executions a fate) :
    j = a.call := by
  cases fate with
  | intact payload => exact List.mem_singleton.mp h
  | _ => cases h

theorem mem_answer_dummy {a : Active} {fate : Fate} {j : Nat} (h : .dummy j ∈ answer a fate) :
    j = a.call := by
  cases fate with
  | failed => cases h
  | lost => cases h
  | corrupted =>
    rw [answer, List.mem_singleton] at h
    cases h
    rfl
  | intact payload =>
    rw [answer, List.mem_singleton] at h
    cases h

theorem Once.finish (h : Once s) (a : Active) (result : Int) (confirm : Option WpcFrame)
    (reply : Option Reply) : Once (s.finish a result confirm reply) where
  once := h.once
  past := h.past
  answered := h.answered
  current _ hCurrent := by cases hCurrent

theorem Once.send (h : Once s) {a : Active} (hCall : a.call < s.calls)
    (hDummy : s.replies.count (.dummy a.call) = 0) (hFresh : s.executed.count a.call = 0)
    (fate : Fate) : Once (s.send a fate) := by
  have hCount := count_answer a fate
  rcases send_cases s a fate with hSend | hSend
  · rw [hSend]
    exact h.finish a _ _ _
  · rw [hSend]
    constructor
    case once =>
      intro j
      rw [List.count_append]
      rcases eq_or_ne j a.call with rfl | hj
      · omega
      · have hNone : (executions a fate).count j = 0 :=
          List.count_eq_zero.mpr fun hMem => hj (mem_executions hMem)
        have := h.once j
        omega
    case past =>
      intro j hj
      rcases List.mem_append.mp hj with hj | hj
      · exact h.past j hj
      · rw [mem_executions hj]
        exact hCall
    case answered =>
      intro j hj
      rcases List.mem_append.mp hj with hj | hj
      · exact h.answered j hj
      · rw [mem_answer_dummy hj]
        exact hCall
    case current =>
      intro b hb
      obtain rfl : a = b := Option.some.inj hb
      refine ⟨hCall, ?_⟩
      rw [List.count_append, List.count_append]
      omega

theorem Once.drop (h : Once s) {reply : Reply} {rest : List Reply}
    (hReplies : s.replies = reply :: rest) {current : Option Active}
    (hCurrent : ∀ b, current = some b → ∃ a, s.current = some a ∧ a.call = b.call) :
    Once { s with replies := rest, current } where
  once := h.once
  past := h.past
  answered j hj := h.answered j (by rw [hReplies]; exact List.mem_cons_of_mem _ hj)
  current b hb := by
    obtain ⟨a, ha, hCall⟩ := hCurrent b hb
    obtain ⟨hLess, hCount⟩ := h.current a ha
    rw [hReplies, List.count_cons] at hCount
    rw [← hCall]
    exact ⟨hLess, by dsimp only; omega⟩

theorem Once.step (h : Once s) {e : Event} (hOwn : s.OwnDummy e) (hStep : s.step e = some t) :
    Once t := by
  cases e with
  | start primitiveId payload fate =>
    obtain ⟨-, rfl⟩ := step_start hStep
    have hCalls : Once { s with frameId := s.frameId + 1, calls := s.calls + 1 } := by
      refine ⟨h.once, fun j hj => Nat.lt_succ_of_lt (h.past j hj),
        fun j hj => Nat.lt_succ_of_lt (h.answered j hj), fun a ha => ?_⟩
      obtain ⟨hLess, hCount⟩ := h.current a ha
      exact ⟨Nat.lt_succ_of_lt hLess, hCount⟩
    refine hCalls.send (Nat.lt_succ_self _) ?_ ?_ fate
    · exact List.count_eq_zero.mpr fun hMem => Nat.lt_irrefl _ (h.answered _ hMem)
    · exact List.count_eq_zero.mpr fun hMem => Nat.lt_irrefl _ (h.past _ hMem)
  | receive fate =>
    obtain ⟨a, reply, rest, hCurrent, hReplies, hNext⟩ := step_receive hStep
    have hWait : Once { s with replies := rest, current := s.current } :=
      h.drop hReplies fun b hb => ⟨b, hb, rfl⟩
    rcases hNext with ⟨x, ⟨j, rfl⟩, -, rfl⟩ | ⟨x, -, rfl⟩ | ⟨result, confirm, -, rfl⟩
    · -- the dummy confirm is the call's own, so none of its frames was executed
      have hj : j = a.call := hOwn a hCurrent (.dummy j) (by rw [hReplies]; rfl)
      obtain ⟨hLess, hCount⟩ := h.current a hCurrent
      rw [hReplies, hj, List.count_cons_self] at hCount
      have hNone : rest.count (.dummy a.call) = 0 ∧ s.executed.count a.call = 0 := by omega
      exact Once.send (a := ⟨a.call, x⟩) hWait hLess hNone.1 hNone.2 fate
    · exact h.drop hReplies fun b hb => ⟨a, hCurrent, by rw [← Option.some.inj hb]⟩
    · exact hWait.finish a _ _ _
  | _ =>
    rcases step_other hStep (by intros; exact Event.noConfusion) (by intros; exact Event.noConfusion)
      with ⟨a, code, -, -, rfl⟩ | ⟨reply, hReplies, hEq⟩ | ⟨frame, -, rfl⟩
    · exact h.finish a _ _ _
    · rw [hEq]
      exact h.drop hReplies fun b hb => ⟨b, hb, rfl⟩
    · refine ⟨h.once, h.past, fun j hj => h.answered j ?_, fun a ha => ?_⟩
      · simpa using hj
      · obtain ⟨hLess, hCount⟩ := h.current a ha
        refine ⟨hLess, ?_⟩
        rw [List.count_append]
        simpa [List.count_cons] using hCount

/-- In every run in which calls read no dummy confirm but their own, the node executes no
request twice. -/
theorem executed_at_most_once (events : List Event) (t : Link)
    (hOwn : Meets step OwnDummy init events) (hRun : run step init events = some t) :
    ∀ call, t.executed.count call ≤ 1 := by
  have hOnce : Once t :=
    run_invariant (fun _ _ _ h hCond hStep => h.step hCond hStep) once_init hOwn hRun
  exact hOnce.once

def retriedCall : List Event :=
  [.start 1 [] .corrupted, .receive (.intact []), .receive .lost]

theorem executed_at_most_once_retried :
    ∃ t, run step init retriedCall = some t ∧ ∀ call, t.executed.count call ≤ 1 :=
  ⟨_, rfl, executed_at_most_once retriedCall _ (by decide) rfl⟩

/-- The first request is corrupted, and its call times out before the dummy confirm comes. The
second request is intact; its call reads the dummy confirm and sends the request again. -/
def lateDummy : List Event :=
  [.start 1 [] .corrupted, .fail wpcIntTimeoutError, .start 2 [] (.intact []),
    .receive (.intact [])]

theorem late_dummy_executes_twice :
    ¬ ∀ (events : List Event) (t : Link),
      run step init events = some t → ∀ call, t.executed.count call ≤ 1 := by
  intro h
  have hCount := h lateDummy _ rfl 1
  revert hCount
  decide

end CMeshApi.Wpc.Link
