import CMeshApi.Foundations.Machine
import CMeshApi.Wpc.SendRequest

/-!
# The host, the serial link and the node

The calls of `send_request_locked`, one at a time under the request lock, and the
node at the other end of a first-in first-out link. The node executes a request
that reaches it intact and answers with a confirm of the same frame id; one that
reaches it corrupted it answers with a dummy confirm, whose CRC of `0xFFFF` the
host reads as `WPC_INT_WRONG_CRC_FROM_HOST`. All delay lies in the replies, which
wait on the link until some call reads them, be it the one they answer or a later
one. Indications share the link, and a poll reads them outside of the loop.

The numbers of the calls, what the node executed and what the calls returned are
records of the run that no step looks at.
-/

namespace CMeshApi.Wpc

/-- What happens to a frame that the host sends. -/
inductive Fate where
  | failed
  | lost
  | corrupted
  | intact (confirmPayload : List UInt8)
deriving DecidableEq, Repr

/-- A frame on its way to the host, with the number of the call it answers. -/
inductive Reply where
  | confirm (call : Nat) (frame : WpcFrame)
  | dummy (call : Nat)
  | indication (frame : WpcFrame)
deriving DecidableEq, Repr

def Reply.reception : Reply → Reception
  | .confirm _ frame => .frame frame
  | .dummy _ => .failed wpcIntWrongCrcFromHost
  | .indication frame => .frame frame

structure Active where
  call : Nat
  exchange : Exchange
deriving DecidableEq, Repr

/-- A call that has returned, with the reply that its last round read. -/
structure Returned where
  call : Nat
  result : Int
  confirm : Option WpcFrame
  reply : Option Reply
deriving DecidableEq, Repr

structure Link where
  /-- The static variable of `send_request_locked`. -/
  frameId : UInt8
  current : Option Active
  replies : List Reply
  calls : Nat
  executed : List Nat
  returned : List Returned
deriving DecidableEq, Repr

namespace Link

def init : Link := ⟨0, none, [], 0, [], []⟩

def confirmOf (request : WpcFrame) (payload : List UInt8) : WpcFrame :=
  ⟨request.primitiveId + 0x80, request.frameId, payload⟩

def answer (a : Active) : Fate → List Reply
  | .failed => []
  | .lost => []
  | .corrupted => [.dummy a.call]
  | .intact payload => [.confirm a.call (confirmOf a.exchange.request payload)]

def executions (a : Active) : Fate → List Nat
  | .intact _ => [a.call]
  | _ => []

def finish (s : Link) (a : Active) (result : Int) (confirm : Option WpcFrame)
    (reply : Option Reply) : Link :=
  { s with current := none, returned := s.returned ++ [⟨a.call, result, confirm, reply⟩] }

/-- `Slip_send_buffer` of the request, and the way back into the loop. -/
def send (s : Link) (a : Active) (fate : Fate) : Link :=
  if fate = .failed then finish s a wpcIntGenError none none
  else { s with
    current := some a
    replies := s.replies ++ answer a fate
    executed := s.executed ++ executions a fate }

inductive Event where
  /-- A call is made, with the fate of its request. -/
  | start (primitiveId : UInt8) (payload : List UInt8) (fate : Fate)
  /-- The call reads the first reply, with the fate of the request if it is sent again. -/
  | receive (fate : Fate)
  /-- The call gets another negative code: a timeout, or a reply garbled on the way. -/
  | fail (code : Int)
  | loseReply
  | indicate (frame : WpcFrame)
  | readIndication

def act (s : Link) (a : Active) (reply : Reply) (fate : Fate) : Action → Link
  | .resend x => send s ⟨a.call, x⟩ fate
  | .wait x => { s with current := some ⟨a.call, x⟩ }
  | .giveBack result confirm => finish s a result confirm (some reply)

def step (s : Link) : Event → Option Link
  | .start primitiveId payload fate =>
    match s.current with
    | some _ => none
    | none =>
      let request : WpcFrame := ⟨primitiveId, s.frameId, payload⟩
      some (send { s with frameId := s.frameId + 1, calls := s.calls + 1 }
        ⟨s.calls, request, 0, 0⟩ fate)
  | .receive fate =>
    match s.current, s.replies with
    | some a, reply :: rest =>
      some (act { s with replies := rest } a reply fate (onReception a.exchange reply.reception))
    | _, _ => none
  | .fail code =>
    match s.current with
    | some a =>
      if code < 0 ∧ code ≠ wpcIntWrongCrcFromHost then some (finish s a code none none) else none
    | none => none
  | .loseReply =>
    match s.replies with
    | _ :: rest => some { s with replies := rest }
    | [] => none
  | .indicate frame =>
    if frame.primitiveId.toNat < sapConfirmOffset then
      some { s with replies := s.replies ++ [.indication frame] }
    else none
  | .readIndication =>
    match s.current, s.replies with
    | none, _ :: rest => some { s with replies := rest }
    | _, _ => none

section Steps

variable {s t : Link}

theorem send_cases (s : Link) (a : Active) (fate : Fate) :
    send s a fate = finish s a wpcIntGenError none none ∨
      send s a fate = { s with
        current := some a
        replies := s.replies ++ answer a fate
        executed := s.executed ++ executions a fate } := by
  unfold send
  split
  · exact Or.inl rfl
  · exact Or.inr rfl

theorem step_start {primitiveId : UInt8} {payload : List UInt8} {fate : Fate}
    (h : s.step (.start primitiveId payload fate) = some t) :
    s.current = none ∧
      t = send { s with frameId := s.frameId + 1, calls := s.calls + 1 }
        ⟨s.calls, ⟨primitiveId, s.frameId, payload⟩, 0, 0⟩ fate := by
  simp only [step] at h
  split at h
  · cases h
  · next hIdle => exact ⟨hIdle, (Option.some.inj h).symm⟩

theorem step_receive {fate : Fate} (h : s.step (.receive fate) = some t) :
    ∃ a reply rest, s.current = some a ∧ s.replies = reply :: rest ∧
      ((∃ x, (∃ j, reply = .dummy j) ∧ x.request = a.exchange.request ∧
          t = send { s with replies := rest } ⟨a.call, x⟩ fate) ∨
        (∃ x, x.request = a.exchange.request ∧
          t = { s with replies := rest, current := some ⟨a.call, x⟩ }) ∨
        ∃ result confirm, onReception a.exchange reply.reception = .giveBack result confirm ∧
          t = finish { s with replies := rest } a result confirm (some reply)) := by
  simp only [step] at h
  split at h
  · next a reply rest hCurrent hReplies =>
    refine ⟨a, reply, rest, hCurrent, hReplies, ?_⟩
    obtain rfl := Option.some.inj h
    cases hAction : onReception a.exchange reply.reception with
    | resend x =>
      obtain ⟨hDummy, hRequest⟩ := onReception_resend hAction
      refine Or.inl ⟨x, ?_, hRequest, rfl⟩
      cases reply with
      | confirm j frame => cases hDummy
      | dummy j => exact ⟨j, rfl⟩
      | indication frame => cases hDummy
    | wait x => exact Or.inr (Or.inl ⟨x, onReception_wait hAction, rfl⟩)
    | giveBack result confirm => exact Or.inr (Or.inr ⟨result, confirm, rfl, rfl⟩)
  · cases h

theorem step_other {e : Event} (h : s.step e = some t)
    (hStart : ∀ primitiveId payload fate, e ≠ .start primitiveId payload fate)
    (hReceive : ∀ fate, e ≠ .receive fate) :
    (∃ a code, s.current = some a ∧ code < 0 ∧ t = finish s a code none none) ∨
      (∃ reply, s.replies = reply :: t.replies ∧ t = { s with replies := t.replies }) ∨
      ∃ frame, frame.primitiveId.toNat < sapConfirmOffset ∧
        t = { s with replies := s.replies ++ [.indication frame] } := by
  cases e with
  | start primitiveId payload fate => exact absurd rfl (hStart _ _ _)
  | receive fate => exact absurd rfl (hReceive _)
  | fail code =>
    simp only [step] at h
    split at h
    · next a hCurrent =>
      split at h
      · next hCode => exact Or.inl ⟨a, code, hCurrent, hCode.1, (Option.some.inj h).symm⟩
      · cases h
    · cases h
  | loseReply =>
    simp only [step] at h
    split at h
    · next reply rest hReplies =>
      obtain rfl := Option.some.inj h
      exact Or.inr (Or.inl ⟨reply, hReplies, rfl⟩)
    · cases h
  | indicate frame =>
    simp only [step] at h
    split at h
    · next hPrimitive => exact Or.inr (Or.inr ⟨frame, hPrimitive, (Option.some.inj h).symm⟩)
    · cases h
  | readIndication =>
    simp only [step] at h
    split at h
    · next reply rest hCurrent hReplies =>
      obtain rfl := Option.some.inj h
      exact Or.inr (Or.inl ⟨reply, hReplies, rfl⟩)
    · cases h

end Steps

end Link

end CMeshApi.Wpc
