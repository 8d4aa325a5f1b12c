import CMeshApi.Wpc.Link

/-!
# A call stores its own confirm

The frame id of a call is its number modulo 256. The confirms on the link carry the
ids of the calls they answer, so that a confirm matches the request of a later
call only after 256 calls; a call that returns zero has then read the confirm of
a frame of its own, however many replies earlier calls left behind.
-/

namespace CMeshApi.Wpc.Link

open Machine

/-- The confirm does not answer a call that lies 255 calls or more before the next one. -/
def Recent (calls : Nat) : Reply → Prop
  | .confirm j _ => calls < j + 256
  | _ => True

instance (calls : Nat) : (reply : Reply) → Decidable (Recent calls reply)
  | .confirm j _ => inferInstanceAs (Decidable (calls < j + 256))
  | .dummy _ | .indication _ => .isTrue trivial

/-- When a call starts, no confirm has been on the link across 255 later calls. -/
def NoneStale (s : Link) : Event → Prop
  | .start _ _ _ => ∀ reply ∈ s.replies, Recent s.calls reply
  | _ => True

instance (s : Link) : (e : Event) → Decidable (s.NoneStale e)
  | .start _ _ _ => inferInstanceAs (Decidable (∀ reply ∈ s.replies, Recent s.calls reply))
  | .receive _ | .fail _ | .loseReply | .indicate _ | .readIndication => .isTrue trivial

/-- A reply of the node: a confirm carries the id of its call, an indication no confirm
primitive. -/
def WellFormed (calls : Nat) : Reply → Prop
  | .confirm j frame => j < calls ∧ frame.frameId = .ofNat j
  | .dummy _ => True
  | .indication frame => frame.primitiveId.toNat < sapConfirmOffset

def Own (r : Returned) : Prop :=
  r.result = 0 → ∃ frame, r.reply = some (.confirm r.call frame) ∧ r.confirm = some frame

structure Matched (s : Link) : Prop where
  frameId : s.frameId = .ofNat s.calls
  replies : ∀ reply ∈ s.replies, WellFormed s.calls reply
  current : ∀ a, s.current = some a → s.calls = a.call + 1 ∧
    a.exchange.request.frameId = .ofNat a.call ∧ ∀ reply ∈ s.replies, Recent a.call reply
  returned : ∀ r ∈ s.returned, Own r

theorem matched_init : Matched init where
  frameId := rfl
  replies _ h := by cases h
  current _ h := by cases h
  returned _ h := by cases h

variable {s t : Link}

theorem wellFormed_answer {a : Active} {fate : Fate} {calls : Nat} (hCall : a.call < calls)
    (hId : a.exchange.request.frameId = .ofNat a.call) :
    ∀ reply ∈ answer a fate, WellFormed calls reply := by
  intro reply hReply
  cases fate with
  | failed => cases hReply
  | lost => cases hReply
  | corrupted =>
    obtain rfl := List.mem_singleton.mp hReply
    trivial
  | intact payload =>
    obtain rfl := List.mem_singleton.mp hReply
    exact ⟨hCall, hId⟩

theorem recent_answer {a : Active} {fate : Fate} : ∀ reply ∈ answer a fate, Recent a.call reply := by
  intro reply hReply
  cases fate with
  | failed => cases hReply
  | lost => cases hReply
  | corrupted =>
    obtain rfl := List.mem_singleton.mp hReply
    trivial
  | intact payload =>
    obtain rfl := List.mem_singleton.mp hReply
    exact Nat.lt_add_of_pos_right (by decide)

theorem Matched.finish (h : Matched s) {a : Active} {result : Int} {confirm : Option WpcFrame}
    {reply : Option Reply} (hOwn : Own ⟨a.call, result, confirm, reply⟩) :
    Matched (s.finish a result confirm reply) where
  frameId := h.frameId
  replies := h.replies
  current _ hCurrent := by cases hCurrent
  returned r hr := by
    rcases List.mem_append.mp hr with hr | hr
    · exact h.returned r hr
    · rw [List.mem_singleton.mp hr]
      exact hOwn

theorem Matched.send (h : Matched s) {a : Active} (hCall : s.calls = a.call + 1)
    (hId : a.exchange.request.frameId = .ofNat a.call)
    (hRecent : ∀ reply ∈ s.replies, Recent a.call reply) (fate : Fate) :
    Matched (s.send a fate) := by
  rcases send_cases s a fate with hSend | hSend
  · rw [hSend]
    exact h.finish fun hZero => absurd hZero (show wpcIntGenError ≠ 0 by decide)
  · rw [hSend]
    constructor
    case frameId => exact h.frameId
    case replies =>
      intro reply hReply
      rcases List.mem_append.mp hReply with hReply | hReply
      · exact h.replies reply hReply
      · exact wellFormed_answer (by rw [hCall]; exact Nat.lt_succ_self _) hId reply hReply
    case current =>
      intro b hb
      obtain rfl : a = b := Option.some.inj hb
      refine ⟨hCall, hId, fun reply hReply => ?_⟩
      rcases List.mem_append.mp hReply with hReply | hReply
      · exact hRecent reply hReply
      · exact recent_answer reply hReply
    case returned => exact h.returned

theorem Matched.drop (h : Matched s) {reply : Reply} {rest : List Reply}
    (hReplies : s.replies = reply :: rest) : Matched { s with replies := rest } where
  frameId := h.frameId
  replies r hr := h.replies r (by rw [hReplies]; exact List.mem_cons_of_mem _ hr)
  current a ha := by
    obtain ⟨hCall, hId, hRecent⟩ := h.current a ha
    exact ⟨hCall, hId, fun r hr => hRecent r (by rw [hReplies]; exact List.mem_cons_of_mem _ hr)⟩
  returned := h.returned

theorem Matched.own (h : Matched s) {a : Active} {reply : Reply} {confirm : Option WpcFrame}
    (hCurrent : s.current = some a) (hReply : reply ∈ s.replies)
    (hAction : onReception a.exchange reply.reception = .giveBack 0 confirm) :
    ∃ frame, reply = .confirm a.call frame ∧ confirm = some frame := by
  obtain ⟨hCalls, hId, hRecent⟩ := h.current a hCurrent
  have hCode : ∀ code, reply.reception = .failed code → code < 0 := by
    intro code hCode
    cases reply with
    | confirm j frame => cases hCode
    | dummy j =>
      cases hCode
      decide
    | indication frame => cases hCode
  obtain ⟨rec, hRec, rfl, hFrameId, hPrimitive⟩ := onReception_zero hCode hAction
  have hWell := h.replies reply hReply
  have hNear := hRecent reply hReply
  cases reply with
  | confirm j frame =>
    cases hRec
    obtain ⟨hLess, hOwnId⟩ := hWell
    have hEq : (UInt8.ofNat j).toNat = (UInt8.ofNat a.call).toNat := by
      rw [← hOwnId, hFrameId, hId]
    rw [UInt8.toNat_ofNat', UInt8.toNat_ofNat'] at hEq
    have hNear : a.call < j + 256 := hNear
    -- two call numbers less than 256 apart with one frame id
    obtain rfl : j = a.call := by omega
    exact ⟨rec, rfl, rfl⟩
  | dummy j => cases hRec
  | indication frame =>
    cases hRec
    have hWell : rec.primitiveId.toNat < sapConfirmOffset := hWell
    omega

theorem Matched.step (h : Matched s) {e : Event} (hStale : s.NoneStale e)
    (hStep : s.step e = some t) : Matched t := by
  cases e with
  | start primitiveId payload fate =>
    obtain ⟨hIdle, rfl⟩ := step_start hStep
    have hNext : Matched { s with frameId := s.frameId + 1, calls := s.calls + 1 } := by
      refine ⟨?_, fun reply hReply => ?_, fun a ha => ?_, h.returned⟩
      · rw [h.frameId, UInt8.ofNat_add]
        rfl
      · have hWell := h.replies reply hReply
        cases reply with
        | confirm j frame => exact ⟨Nat.lt_succ_of_lt hWell.1, hWell.2⟩
        | dummy j => trivial
        | indication frame => exact hWell
      · rw [hIdle] at ha
        cases ha
    have hRecent : ∀ reply ∈ s.replies, Recent s.calls reply := hStale
    exact Matched.send (a := ⟨s.calls, ⟨primitiveId, s.frameId, payload⟩, 0, 0⟩) hNext rfl h.frameId
      hRecent fate
  | receive fate =>
    obtain ⟨a, reply, rest, hCurrent, hReplies, hNext⟩ := step_receive hStep
    obtain ⟨hCalls, hId, hRecent⟩ := h.current a hCurrent
    have hDrop := h.drop hReplies
    have hRest : ∀ r ∈ rest, Recent a.call r := fun r hr =>
      hRecent r (by rw [hReplies]; exact List.mem_cons_of_mem _ hr)
    rcases hNext with ⟨x, -, hRequest, rfl⟩ | ⟨x, hRequest, rfl⟩ | ⟨result, confirm, hAction, rfl⟩
    · have hIdNext : x.request.frameId = .ofNat a.call := by rw [hRequest, hId]
      exact Matched.send (a := ⟨a.call, x⟩) hDrop hCalls hIdNext hRest fate
    · refine ⟨hDrop.frameId, hDrop.replies, fun b hb => ?_, hDrop.returned⟩
      obtain rfl := Option.some.inj hb
      exact ⟨hCalls, by rw [hRequest, hId], hRest⟩
    · refine hDrop.finish fun hZero => ?_
      obtain rfl : result = 0 := hZero
      obtain ⟨frame, rfl, rfl⟩ :=
        h.own hCurrent (by rw [hReplies]; exact List.mem_cons_self) hAction
      exact ⟨frame, rfl, rfl⟩
  | _ =>
    rcases step_other hStep (by intros; exact Event.noConfusion) (by intros; exact Event.noConfusion)
      with ⟨a, code, -, hCode, rfl⟩ | ⟨reply, hReplies, hEq⟩ | ⟨frame, hPrimitive, rfl⟩
    · exact h.finish fun hZero => absurd hZero (Int.ne_of_lt hCode)
    · rw [hEq]
      exact h.drop hReplies
    · refine ⟨h.frameId, fun reply hReply => ?_, fun a ha => ?_, h.returned⟩
      · rcases List.mem_append.mp hReply with hReply | hReply
        · exact h.replies reply hReply
        · rw [List.mem_singleton.mp hReply]
          exact hPrimitive
      · obtain ⟨hCalls, hId, hRecent⟩ := h.current a ha
        refine ⟨hCalls, hId, fun reply hReply => ?_⟩
        rcases List.mem_append.mp hReply with hReply | hReply
        · exact hRecent reply hReply
        · rw [List.mem_singleton.mp hReply]
          trivial

/-- In every run in which no confirm stays on the link across 255 later calls, a call that
returns zero stores a confirm that the node gave to a frame of that call. -/
theorem zero_stores_own_confirm (events : List Event) (t : Link)
    (hStale : Meets step NoneStale init events) (hRun : run step init events = some t) :
    ∀ r ∈ t.returned, r.result = 0 →
      ∃ frame, r.reply = some (.confirm r.call frame) ∧ r.confirm = some frame := by
  have hMatched : Matched t :=
    run_invariant (fun _ _ _ h hCond hStep => h.step hCond hStep) matched_init hStale hRun
  exact hMatched.returned

def lateConfirm : List Event :=
  [.start 1 [] (.intact [7]), .fail wpcIntTimeoutError, .start 1 [] (.intact [8]),
    .receive .lost, .receive .lost]

theorem zero_stores_own_confirm_late :
    ∃ t, run step init lateConfirm = some t ∧ ∀ r ∈ t.returned, r.result = 0 →
      ∃ frame, r.reply = some (.confirm r.call frame) ∧ r.confirm = some frame :=
  ⟨_, rfl, zero_stores_own_confirm lateConfirm _ (by decide) rfl⟩

end CMeshApi.Wpc.Link
