import CMeshApi.Foundations.Machine
import CMeshApi.Wpc.SendRequest

/-!
# Polling for indications

A call of `get_indication_locked` of `wpc_internal.c` with `handle_indication` and
`send_response_to_stack` inside, against a node that holds indications. The node
sends them one at a time, the next one when it has been told to, over a link that
keeps and orders what is sent on it. Either party may be ahead of the other: the
node answers a response while the host still hands over the indication. What the
node sent and what the callback was given are records that no step looks at.
-/

namespace CMeshApi.Wpc

open Machine

namespace Polling

def msapIndicationPollRequest : UInt8 := 0x04

/-- An indication of the node, less its status byte. What it sends fits a `wpc_frame_t`. -/
structure Indication where
  primitiveId : UInt8
  frameId : UInt8
  body : List UInt8
  primitive_lt : primitiveId.toNat < sapConfirmOffset
  fits : 3 + 1 + body.length ≤ sizeofWpcFrame

/-- The status tells if another indication is pending. -/
def Indication.frame (i : Indication) (others : List Indication) : WpcFrame :=
  ⟨i.primitiveId, i.frameId, (if others.isEmpty then 0 else 1) :: i.body⟩

/-- All that the node sends of what is pending. -/
def framesOf : List Indication → List WpcFrame
  | [] => []
  | i :: others => i.frame others :: framesOf others

/-- `sap_response_payload.result`, `sap_generic_confirm_payload.result` and `indication_status`
are the first byte of the payload. -/
def resultOf (f : WpcFrame) : UInt8 := f.payload.headD 0

def responseTo (f : WpcFrame) (moreInd : Bool) : WpcFrame :=
  ⟨f.primitiveId + 0x80, f.frameId, [if moreInd then 1 else 0]⟩

/-- Where the host is in the call. `maxInd` is the variable after the last decrement. -/
inductive Host where
  | called (maxInd : UInt32)
  | polling (maxInd : UInt32) (x : Exchange)
  | waiting (maxInd : UInt32)
  | responding (maxInd : UInt32) (frame : WpcFrame)
  | handing (maxInd : UInt32) (frame : WpcFrame)
  | returned (result : Int)

/-- `told` says that the node is to send the next indication, `outstanding` is the one that
waits for a response. -/
structure Node where
  pending : List Indication
  told : Bool
  outstanding : Option WpcFrame

end Polling

open Polling

structure Poll where
  host : Host
  toNode : List WpcFrame
  toHost : List WpcFrame
  node : Node
  sent : List WpcFrame
  handed : List WpcFrame

namespace Poll

def init (maxInd : UInt32) (pending : List Indication) : Poll :=
  ⟨.called maxInd, [], [], ⟨pending, false, none⟩, [], []⟩

inductive Event where
  /-- The host goes on, up to its next access to the link or to the callback. -/
  | host
  /-- The node answers the poll request. -/
  | confirm (result : UInt8)
  /-- The node reads a response. -/
  | response
  /-- The node sends an indication. -/
  | indicate

/-- The test of the loop, `max_ind-- && remaining_ind`, and the return after it. -/
def loopTest (maxInd : UInt32) (remainingInd : UInt8) : Host :=
  if maxInd ≠ 0 ∧ remainingInd ≠ 0 then .waiting (maxInd - 1)
  else .returned (if remainingInd ≠ 0 then 1 else 0)

def pollRequest (frameId : UInt8) : WpcFrame := ⟨msapIndicationPollRequest, frameId, []⟩

def afterPoll (maxInd : UInt32) : Action → Host
  | .resend x => .polling maxInd x
  | .wait x => .polling maxInd x
  | .giveBack _ (some confirm) => if resultOf confirm = 0 then .returned 0 else loopTest maxInd 1
  | .giveBack result none => .returned result

def resent : Action → List WpcFrame
  | .resend x => [x.request]
  | _ => []

/-- `frameId` is the static variable of `send_request_locked`. -/
def hostStep (frameId : UInt8) (s : Poll) : Option Poll :=
  match s.host with
  | .called maxInd =>
    if maxInd = 0 then some { s with host := .returned wpcIntWrongParamError }
    else some { s with
      host := .polling maxInd ⟨pollRequest frameId, 0, 0⟩
      toNode := s.toNode ++ [pollRequest frameId] }
  | .polling maxInd x =>
    match s.toHost with
    | f :: rest => some { s with
        host := afterPoll maxInd (onReception x (.frame f))
        toNode := s.toNode ++ resent (onReception x (.frame f))
        toHost := rest }
    | [] => none
  | .waiting maxInd =>
    match s.toHost with
    | f :: rest => some { s with host := .responding maxInd f, toHost := rest }
    | [] => none
  | .responding maxInd f =>
    some { s with
      host := .handing maxInd f
      toNode := s.toNode ++ [responseTo f (resultOf f ≠ 0 ∧ maxInd ≠ 0)] }
  | .handing maxInd f =>
    some { s with host := loopTest maxInd (resultOf f), handed := s.handed ++ [f] }
  | .returned _ => none

/-- The response that lets the node send the next indication. -/
def Asks (outstanding : Option WpcFrame) (f : WpcFrame) : Prop :=
  ∃ i ∈ outstanding, f = responseTo i true

instance (outstanding : Option WpcFrame) (f : WpcFrame) : Decidable (Asks outstanding f) :=
  inferInstanceAs (Decidable (∃ i ∈ outstanding, _))

def step (frameId : UInt8) (s : Poll) : Event → Option Poll
  | .host => hostStep frameId s
  | .confirm result =>
    match s.toNode with
    | f :: rest =>
      if f.primitiveId = msapIndicationPollRequest ∧ (result = 0 ↔ s.node.pending.isEmpty) then
        some { s with
          toNode := rest
          toHost := s.toHost ++ [⟨f.primitiveId + 0x80, f.frameId, [result]⟩]
          node := { s.node with told := result ≠ 0 } }
      else none
    | [] => none
  | .response =>
    match s.toNode with
    | f :: rest =>
      if f.primitiveId = msapIndicationPollRequest then none
      else some { s with
        toNode := rest
        node := { s.node with
          told := s.node.told || Asks s.node.outstanding f
          outstanding := none } }
    | [] => none
  | .indicate =>
    match s.node.told, s.node.pending with
    | true, i :: others =>
      some { s with
        toHost := s.toHost ++ [i.frame others]
        node := ⟨others, false, some (i.frame others)⟩
        sent := s.sent ++ [i.frame others] }
    | _, _ => none

/-- An indication is due to the host: the node is told, or it has been asked, or it has sent. -/
inductive Due : List WpcFrame → List WpcFrame → Node → Prop
  | told {i : Indication} {others : List Indication} {outstanding : Option WpcFrame} :
      Due [] [] ⟨i :: others, true, outstanding⟩
  | asked {i : Indication} {others : List Indication} {f : WpcFrame}
      (hPrimitive : f.primitiveId.toNat < sapConfirmOffset) :
      Due [responseTo f true] [] ⟨i :: others, false, some f⟩
  | sent {i : Indication} {others : List Indication} :
      Due [] [i.frame others] ⟨others, false, some (i.frame others)⟩

/-- Nothing is due; the last response may still be on its way. -/
inductive Quiet : List WpcFrame → Node → Prop
  | answered {pending : List Indication} {outstanding : Option WpcFrame} :
      Quiet [] ⟨pending, false, outstanding⟩
  | stopped {pending : List Indication} {f : WpcFrame}
      (hPrimitive : f.primitiveId.toNat < sapConfirmOffset) :
      Quiet [responseTo f false] ⟨pending, false, some f⟩

def pollConfirm (frameId result : UInt8) : WpcFrame :=
  ⟨msapIndicationPollRequest + 0x80, frameId, [result]⟩

/-- The states of a call, in their order. -/
inductive Phase (frameId : UInt8) (maxInd : UInt32) : Poll → Prop
  | called {pending : List Indication} :
      Phase frameId maxInd ⟨.called maxInd, [], [], ⟨pending, false, none⟩, [], []⟩
  | polled {pending : List Indication} :
      Phase frameId maxInd ⟨.polling maxInd ⟨pollRequest frameId, 0, 0⟩, [pollRequest frameId], [],
        ⟨pending, false, none⟩, [], []⟩
  | refused :
      Phase frameId maxInd ⟨.polling maxInd ⟨pollRequest frameId, 0, 0⟩, [],
        [pollConfirm frameId 0], ⟨[], false, none⟩, [], []⟩
  | confirmed {result : UInt8} {toHost : List WpcFrame} {node : Node} (hResult : result ≠ 0)
      (hDue : Due [] toHost node) :
      Phase frameId maxInd ⟨.polling maxInd ⟨pollRequest frameId, 0, 0⟩, [],
        pollConfirm frameId result :: toHost, node, toHost, []⟩
  | waiting {m : UInt32} {toNode toHost handed : List WpcFrame} {node : Node}
      (hCount : handed.length + m.toNat + 1 = maxInd.toNat) (hDue : Due toNode toHost node) :
      Phase frameId maxInd ⟨.waiting m, toNode, toHost, node, handed ++ toHost, handed⟩
  | responding {m : UInt32} {i : Indication} {others : List Indication} {handed : List WpcFrame}
      (hCount : handed.length + m.toNat + 1 = maxInd.toNat) :
      Phase frameId maxInd ⟨.responding m (i.frame others), [], [],
        ⟨others, false, some (i.frame others)⟩, handed ++ [i.frame others], handed⟩
  | handingOn {m : UInt32} {f : WpcFrame} {toNode toHost handed : List WpcFrame} {node : Node}
      (hCount : handed.length + m.toNat + 1 = maxInd.toNat) (hMore : m ≠ 0 ∧ resultOf f ≠ 0)
      (hDue : Due toNode toHost node) :
      Phase frameId maxInd ⟨.handing m f, toNode, toHost, node, handed ++ f :: toHost, handed⟩
  | handingLast {m : UInt32} {f : WpcFrame} {toNode handed : List WpcFrame} {node : Node}
      (hCount : handed.length + m.toNat + 1 = maxInd.toNat) (hLast : ¬ (m ≠ 0 ∧ resultOf f ≠ 0))
      (hStatus : resultOf f ≠ 0 ↔ node.pending ≠ []) (hQuiet : Quiet toNode node) :
      Phase frameId maxInd ⟨.handing m f, toNode, [], node, handed ++ [f], handed⟩
  | returned {result : Int} {toNode handed : List WpcFrame} {node : Node}
      (hCount : handed.length ≤ maxInd.toNat)
      (hFull : node.pending = [] ∨ handed.length = maxInd.toNat)
      (hResult : result = if node.pending = [] then 0 else 1) (hQuiet : Quiet toNode node) :
      Phase frameId maxInd ⟨.returned result, toNode, [], node, handed, handed⟩

theorem init_phase (frameId : UInt8) (maxInd : UInt32) (pending : List Indication) :
    Phase frameId maxInd (init maxInd pending) := .called

section Steps

variable {frameId : UInt8} {maxInd : UInt32} {s t : Poll}

theorem response_not_poll {f : WpcFrame} (h : f.primitiveId.toNat < sapConfirmOffset) (more : Bool) :
    (responseTo f more).primitiveId ≠ msapIndicationPollRequest := by
  intro hEq
  have hToNat : (f.primitiveId + 0x80).toNat = 4 := congrArg UInt8.toNat hEq
  have hOffset : sapConfirmOffset = 128 := rfl
  rw [UInt8.toNat_add, show (0x80 : UInt8).toNat = 128 from rfl] at hToNat
  omega

theorem onReception_pollConfirm (frameId result : UInt8) :
    onReception ⟨pollRequest frameId, 0, 0⟩ (.frame (pollConfirm frameId result)) =
      .giveBack 0 (some (pollConfirm frameId result)) := by
  simp only [onReception]
  rw [if_neg (fun h => h rfl), if_neg (fun h => h rfl)]

theorem resultOf_frame (i : Indication) (others : List Indication) :
    resultOf (i.frame others) ≠ 0 ↔ others ≠ [] := by
  cases others with
  | nil => exact iff_of_false (fun h => h rfl) (fun h => h rfl)
  | cons i' rest => exact iff_of_true (show (1 : UInt8) ≠ 0 by decide) nofun

theorem loopTest_on {m : UInt32} {r : UInt8} (h : m ≠ 0 ∧ r ≠ 0) :
    loopTest m r = .waiting (m - 1) := if_pos h

theorem toNat_pred {m : UInt32} (h : m ≠ 0) : (m - 1).toNat + 1 = m.toNat := by
  have hPos : m.toNat ≠ 0 := fun hZero => h (UInt32.toNat_inj.mp hZero)
  have hOne : (1 : UInt32).toNat ≤ m.toNat := Nat.one_le_iff_ne_zero.mpr hPos
  rw [UInt32.toNat_sub_of_le _ _ (UInt32.le_iff_toNat_le.mpr hOne)]
  exact Nat.succ_pred hPos

theorem afterPoll_refused :
    afterPoll maxInd (.giveBack 0 (some (pollConfirm frameId 0))) = .returned 0 := rfl

theorem afterPoll_confirmed {result : UInt8} (hResult : result ≠ 0) (hMax : maxInd ≠ 0) :
    afterPoll maxInd (.giveBack 0 (some (pollConfirm frameId result))) = .waiting (maxInd - 1) := by
  have hHeld : resultOf (pollConfirm frameId result) ≠ 0 := hResult
  rw [afterPoll, if_neg hHeld, loopTest_on ⟨hMax, by decide⟩]

theorem hostStep_phase (hMax : maxInd ≠ 0) (h : Phase frameId maxInd s)
    (hStep : hostStep frameId s = some t) : Phase frameId maxInd t := by
  cases h with
  | called =>
    simp only [hostStep] at hStep
    rw [if_neg hMax] at hStep
    cases hStep
    exact .polled
  | polled => cases hStep
  | refused =>
    simp only [hostStep, onReception_pollConfirm, afterPoll_refused] at hStep
    cases hStep
    exact .returned (Nat.zero_le _) (.inl rfl) rfl .answered
  | confirmed hResult hDue =>
    simp only [hostStep, onReception_pollConfirm, afterPoll_confirmed hResult hMax] at hStep
    cases hStep
    exact .waiting (by rw [List.length_nil, Nat.zero_add, toNat_pred hMax]) hDue
  | waiting hCount hDue =>
    cases hDue with
    | told => cases hStep
    | asked => cases hStep
    | sent =>
      cases hStep
      exact .responding hCount
  | @responding m i others handed hCount =>
    cases hStep
    have hPrimitive : (i.frame others).primitiveId.toNat < sapConfirmOffset := i.primitive_lt
    by_cases hMore : m ≠ 0 ∧ resultOf (i.frame others) ≠ 0
    · obtain ⟨i', rest, rfl⟩ := List.exists_cons_of_ne_nil ((resultOf_frame i others).mp hMore.2)
      have hDue : Due [responseTo (i.frame (i' :: rest)) true] []
          ⟨i' :: rest, false, some (i.frame (i' :: rest))⟩ := .asked hPrimitive
      rw [show (decide (resultOf (i.frame (i' :: rest)) ≠ 0 ∧ m ≠ 0)) = true from
        decide_eq_true hMore.symm]
      exact .handingOn hCount hMore hDue
    · rw [show (decide (resultOf (i.frame others) ≠ 0 ∧ m ≠ 0)) = false from
        decide_eq_false fun h => hMore h.symm]
      exact .handingLast hCount hMore (resultOf_frame i others) (.stopped hPrimitive)
  | @handingOn m f toNode toHost handed node hCount hMore hDue =>
    simp only [hostStep, loopTest_on hMore] at hStep
    cases hStep
    rw [show handed ++ f :: toHost = (handed ++ [f]) ++ toHost by rw [List.append_assoc]; rfl]
    refine .waiting ?_ hDue
    have hPred := toNat_pred hMore.1
    rw [List.length_append, List.length_singleton]
    omega
  | @handingLast m f toNode handed node hCount hLast hStatus hQuiet =>
    simp only [hostStep, loopTest] at hStep
    rw [if_neg hLast] at hStep
    cases hStep
    have hLength : (handed ++ [f]).length + m.toNat = maxInd.toNat := by
      rw [List.length_append, List.length_singleton]
      omega
    refine .returned (by omega) ?_ ?_ hQuiet
    · rcases Decidable.not_and_iff_not_or_not.mp hLast with hZero | hNone
      · obtain rfl : m = 0 := Decidable.not_not.mp hZero
        exact .inr hLength
      · exact .inl (Decidable.not_not.mp fun hPending => hNone (hStatus.mpr hPending))
    · by_cases hPending : node.pending = []
      · rw [if_pos hPending, if_neg (fun h => hStatus.mp h hPending)]
      · rw [if_neg hPending, if_pos (hStatus.mpr hPending)]
  | returned => cases hStep

theorem confirm_cases {result : UInt8} (hStep : step frameId s (.confirm result) = some t) :
    ∃ f rest, s.toNode = f :: rest ∧ f.primitiveId = msapIndicationPollRequest ∧
      (result = 0 ↔ s.node.pending.isEmpty) ∧
      t = { s with
        toNode := rest
        toHost := s.toHost ++ [⟨f.primitiveId + 0x80, f.frameId, [result]⟩]
        node := { s.node with told := result ≠ 0 } } := by
  simp only [step] at hStep
  split at hStep
  · next f rest hFrames =>
    split at hStep
    · next hPoll => exact ⟨f, rest, hFrames, hPoll.1, hPoll.2, (Option.some.inj hStep).symm⟩
    · cases hStep
  · cases hStep

theorem response_cases (hStep : step frameId s .response = some t) :
    ∃ f rest, s.toNode = f :: rest ∧ f.primitiveId ≠ msapIndicationPollRequest ∧
      t = { s with
        toNode := rest
        node := { s.node with
          told := s.node.told || Asks s.node.outstanding f
          outstanding := none } } := by
  simp only [step] at hStep
  split at hStep
  · next f rest hFrames =>
    split at hStep
    · cases hStep
    · next hPoll => exact ⟨f, rest, hFrames, hPoll, (Option.some.inj hStep).symm⟩
  · cases hStep

theorem indicate_cases (hStep : step frameId s .indicate = some t) :
    ∃ i others, s.node.told = true ∧ s.node.pending = i :: others ∧
      t = { s with
        toHost := s.toHost ++ [i.frame others]
        node := ⟨others, false, some (i.frame others)⟩
        sent := s.sent ++ [i.frame others] } := by
  simp only [step] at hStep
  split at hStep
  · next i others hTold hPending => exact ⟨i, others, hTold, hPending, (Option.some.inj hStep).symm⟩
  · cases hStep

theorem Due.not_poll {toNode toHost : List WpcFrame} {node : Node} (h : Due toNode toHost node)
    {f : WpcFrame} (hf : f ∈ toNode) : f.primitiveId ≠ msapIndicationPollRequest := by
  cases h with
  | told => cases hf
  | asked hPrimitive => exact List.mem_singleton.mp hf ▸ response_not_poll hPrimitive true
  | sent => cases hf

theorem Quiet.not_poll {toNode : List WpcFrame} {node : Node} (h : Quiet toNode node)
    {f : WpcFrame} (hf : f ∈ toNode) : f.primitiveId ≠ msapIndicationPollRequest := by
  cases h with
  | answered => cases hf
  | stopped hPrimitive => exact List.mem_singleton.mp hf ▸ response_not_poll hPrimitive false

/-- The node reads the response that it waits for, and is told. -/
theorem Due.response {f : WpcFrame} {rest toHost : List WpcFrame} {node : Node}
    (h : Due (f :: rest) toHost node) :
    Due rest toHost { node with told := node.told || Asks node.outstanding f, outstanding := none } := by
  cases h with
  | @asked i others g hPrimitive =>
    have hAsks : decide (Asks (some g) (responseTo g true)) = true :=
      decide_eq_true ⟨g, rfl, rfl⟩
    rw [hAsks]
    exact .told

theorem responseTo_inj {f g : WpcFrame} {more more' : Bool} (h : responseTo f more = responseTo g more') :
    more = more' := by
  have hResult : (if more then (1 : UInt8) else 0) = if more' then 1 else 0 := congrArg resultOf h
  revert hResult
  cases more <;> cases more' <;> decide

theorem Quiet.response {f : WpcFrame} {rest : List WpcFrame} {node : Node}
    (h : Quiet (f :: rest) node) :
    Quiet rest { node with told := node.told || Asks node.outstanding f, outstanding := none } := by
  cases h with
  | @stopped pending g hPrimitive =>
    have hAsks : decide (Asks (some g) (responseTo g false)) = false := by
      apply decide_eq_false
      rintro ⟨g', -, hEq⟩
      exact absurd (responseTo_inj hEq) Bool.false_ne_true
    rw [hAsks]
    exact .answered

theorem Due.indicate {toNode toHost : List WpcFrame} {node : Node} (h : Due toNode toHost node)
    {i : Indication} {rest : List Indication} (hTold : node.told = true)
    (hPending : node.pending = i :: rest) :
    toHost = [] ∧ Due toNode [i.frame rest] ⟨rest, false, some (i.frame rest)⟩ := by
  cases h with
  | told =>
    cases hPending
    exact ⟨rfl, .sent⟩
  | asked => cases hTold
  | sent => cases hTold

theorem Quiet.not_told {toNode : List WpcFrame} {node : Node} (h : Quiet toNode node) :
    node.told = false := by
  cases h with
  | answered => rfl
  | stopped => rfl

theorem confirm_phase {result : UInt8} (h : Phase frameId maxInd s)
    (hStep : step frameId s (.confirm result) = some t) : Phase frameId maxInd t := by
  obtain ⟨f, rest, hFrames, hPoll, hHeld, rfl⟩ := confirm_cases hStep
  have hHead : f ∈ s.toNode := hFrames ▸ List.mem_cons_self
  cases h with
  | called => cases hFrames
  | @polled pending =>
    cases hFrames
    cases pending with
    | nil =>
      obtain rfl : result = 0 := hHeld.mpr rfl
      exact .refused
    | cons i others =>
      have hResult : result ≠ 0 := fun hZero => absurd (hHeld.mp hZero) Bool.false_ne_true
      rw [show decide (result ≠ 0) = true from decide_eq_true hResult]
      exact .confirmed hResult .told
  | refused => cases hFrames
  | confirmed => cases hFrames
  | waiting hCount hDue => exact absurd hPoll (hDue.not_poll hHead)
  | responding => cases hFrames
  | handingOn hCount hMore hDue => exact absurd hPoll (hDue.not_poll hHead)
  | handingLast hCount hLast hStatus hQuiet => exact absurd hPoll (hQuiet.not_poll hHead)
  | returned hCount hFull hResult hQuiet => exact absurd hPoll (hQuiet.not_poll hHead)

theorem response_phase (h : Phase frameId maxInd s) (hStep : step frameId s .response = some t) :
    Phase frameId maxInd t := by
  obtain ⟨f, rest, hFrames, hPoll, rfl⟩ := response_cases hStep
  cases h with
  | called => cases hFrames
  | polled =>
    cases hFrames
    exact absurd rfl hPoll
  | refused => cases hFrames
  | confirmed => cases hFrames
  | waiting hCount hDue =>
    cases hFrames
    exact .waiting hCount hDue.response
  | responding => cases hFrames
  | handingOn hCount hMore hDue =>
    cases hFrames
    exact .handingOn hCount hMore hDue.response
  | handingLast hCount hLast hStatus hQuiet =>
    cases hFrames
    exact .handingLast hCount hLast hStatus hQuiet.response
  | returned hCount hFull hResult hQuiet =>
    cases hFrames
    exact .returned hCount hFull hResult hQuiet.response

theorem indicate_phase (h : Phase frameId maxInd s) (hStep : step frameId s .indicate = some t) :
    Phase frameId maxInd t := by
  obtain ⟨i, others, hTold, hPending, rfl⟩ := indicate_cases hStep
  cases h with
  | called => cases hTold
  | polled => cases hTold
  | refused => cases hTold
  | confirmed hResult hDue =>
    obtain ⟨rfl, hNext⟩ := hDue.indicate hTold hPending
    exact .confirmed hResult hNext
  | @waiting m toNode toHost handed node hCount hDue =>
    obtain ⟨rfl, hNext⟩ := hDue.indicate hTold hPending
    rw [List.append_nil]
    exact .waiting hCount hNext
  | responding => cases hTold
  | handingOn hCount hMore hDue =>
    obtain ⟨rfl, hNext⟩ := hDue.indicate hTold hPending
    rw [List.append_assoc]
    exact .handingOn hCount hMore hNext
  | handingLast hCount hLast hStatus hQuiet => exact absurd hTold (by rw [hQuiet.not_told]; decide)
  | returned hCount hFull hResult hQuiet => exact absurd hTold (by rw [hQuiet.not_told]; decide)

theorem step_phase (hMax : maxInd ≠ 0) (s : Poll) (e : Event) (t : Poll)
    (h : Phase frameId maxInd s) (hStep : step frameId s e = some t) : Phase frameId maxInd t := by
  cases e with
  | host => exact hostStep_phase hMax h hStep
  | confirm result => exact confirm_phase h hStep
  | response => exact response_phase h hStep
  | indicate => exact indicate_phase h hStep

theorem hostStep_node (hStep : hostStep frameId s = some t) : t.sent = s.sent ∧ t.node = s.node := by
  simp only [hostStep] at hStep
  split at hStep
  · split at hStep
    · cases hStep
      exact ⟨rfl, rfl⟩
    · cases hStep
      exact ⟨rfl, rfl⟩
  · split at hStep
    · cases hStep
      exact ⟨rfl, rfl⟩
    · cases hStep
  · split at hStep
    · cases hStep
      exact ⟨rfl, rfl⟩
    · cases hStep
  · cases hStep
    exact ⟨rfl, rfl⟩
  · cases hStep
    exact ⟨rfl, rfl⟩
  · cases hStep

theorem step_framesOf (s : Poll) (e : Event) (t : Poll) (all : List WpcFrame)
    (h : all = s.sent ++ framesOf s.node.pending) (hStep : step frameId s e = some t) :
    all = t.sent ++ framesOf t.node.pending := by
  cases e with
  | host =>
    obtain ⟨hSent, hNode⟩ := hostStep_node hStep
    rw [hSent, hNode]
    exact h
  | confirm result =>
    obtain ⟨f, rest, -, -, -, rfl⟩ := confirm_cases hStep
    exact h
  | response =>
    obtain ⟨f, rest, -, -, rfl⟩ := response_cases hStep
    exact h
  | indicate =>
    obtain ⟨i, others, -, hPending, rfl⟩ := indicate_cases hStep
    rw [h, hPending, framesOf, List.append_assoc]
    rfl

def rank (s : Poll) : Nat :=
  5 * s.node.pending.length +
    match s.host with
    | .called _ => 6
    | .polling _ _ => 5 * s.toNode.length + 4 * s.toHost.length
    | .waiting _ => 2 + s.toNode.length + 4 * s.toHost.length
    | .responding _ _ => 5
    | .handing _ _ => 3 + s.toNode.length + 4 * s.toHost.length
    | .returned _ => s.toNode.length

theorem hostStep_rank (hMax : maxInd ≠ 0) (h : Phase frameId maxInd s)
    (hStep : hostStep frameId s = some t) : rank t < rank s := by
  cases h with
  | called =>
    simp only [hostStep] at hStep
    rw [if_neg hMax] at hStep
    cases hStep
    simp only [rank, List.nil_append, List.length_singleton, List.length_nil]
    omega
  | polled => cases hStep
  | refused =>
    simp only [hostStep, onReception_pollConfirm, afterPoll_refused] at hStep
    cases hStep
    simp only [rank, resent, List.append_nil, List.length_singleton, List.length_nil]
    omega
  | confirmed hResult hDue =>
    simp only [hostStep, onReception_pollConfirm, afterPoll_confirmed hResult hMax] at hStep
    cases hStep
    simp only [rank, resent, List.append_nil, List.length_cons, List.length_nil]
    omega
  | waiting hCount hDue =>
    cases hDue with
    | told => cases hStep
    | asked => cases hStep
    | sent =>
      cases hStep
      simp only [rank, List.length_singleton, List.length_nil]
      omega
  | responding hCount =>
    cases hStep
    simp only [rank, List.nil_append, List.length_singleton, List.length_nil]
    omega
  | handingOn hCount hMore hDue =>
    simp only [hostStep, loopTest_on hMore] at hStep
    cases hStep
    simp only [rank]
    omega
  | handingLast hCount hLast hStatus hQuiet =>
    simp only [hostStep, loopTest] at hStep
    rw [if_neg hLast] at hStep
    cases hStep
    simp only [rank, List.length_nil]
    omega
  | returned => cases hStep

theorem step_rank (hMax : maxInd ≠ 0) (e : Event) (h : Phase frameId maxInd s)
    (hStep : step frameId s e = some t) : rank t < rank s := by
  cases e with
  | host => exact hostStep_rank hMax h hStep
  | confirm result =>
    obtain ⟨f, rest, hFrames, hPoll, hHeld, rfl⟩ := confirm_cases hStep
    have hHead : f ∈ s.toNode := hFrames ▸ List.mem_cons_self
    cases h with
    | polled =>
      cases hFrames
      simp only [rank, List.nil_append, List.length_singleton, List.length_nil]
      omega
    | waiting hCount hDue => exact absurd hPoll (hDue.not_poll hHead)
    | handingOn hCount hMore hDue => exact absurd hPoll (hDue.not_poll hHead)
    | handingLast hCount hLast hStatus hQuiet => exact absurd hPoll (hQuiet.not_poll hHead)
    | returned hCount hFull hResult hQuiet => exact absurd hPoll (hQuiet.not_poll hHead)
    | _ => cases hFrames
  | response =>
    obtain ⟨f, rest, hFrames, hPoll, rfl⟩ := response_cases hStep
    cases h with
    | polled =>
      cases hFrames
      exact absurd rfl hPoll
    | waiting => cases hFrames; simp only [rank, List.length_cons]; omega
    | handingOn => cases hFrames; simp only [rank, List.length_cons]; omega
    | handingLast => cases hFrames; simp only [rank, List.length_cons]; omega
    | returned => cases hFrames; simp only [rank, List.length_cons]; omega
    | _ => cases hFrames
  | indicate =>
    obtain ⟨i, others, hTold, hPending, rfl⟩ := indicate_cases hStep
    have hLength : s.node.pending.length = others.length + 1 := congrArg List.length hPending
    cases h with
    | confirmed => simp only [rank, List.length_append, List.length_singleton] at hLength ⊢; omega
    | waiting => simp only [rank, List.length_append, List.length_singleton] at hLength ⊢; omega
    | handingOn => simp only [rank, List.length_append, List.length_singleton] at hLength ⊢; omega
    | handingLast hCount hLast hStatus hQuiet => exact absurd hTold (by rw [hQuiet.not_told]; decide)
    | returned hCount hFull hResult hQuiet => exact absurd hTold (by rw [hQuiet.not_told]; decide)
    | _ => cases hTold

theorem waiting_progress {m : UInt32} {toNode toHost sent handed : List WpcFrame} {node : Node}
    (hDue : Due toNode toHost node) :
    ∃ e t, step frameId ⟨.waiting m, toNode, toHost, node, sent, handed⟩ e = some t := by
  cases hDue with
  | told => exact ⟨.indicate, _, rfl⟩
  | asked hPrimitive => exact ⟨.response, _, if_neg (response_not_poll hPrimitive true)⟩
  | sent => exact ⟨.host, _, rfl⟩

/-- A call that has not returned can go on, or the node can. -/
theorem phase_progress (h : Phase frameId maxInd s) (hHost : ∀ result, s.host ≠ .returned result) :
    ∃ e t, step frameId s e = some t := by
  cases h with
  | called =>
    by_cases hMax : maxInd = 0
    · exact ⟨.host, _, if_pos hMax⟩
    · exact ⟨.host, _, if_neg hMax⟩
  | @polled pending =>
    cases pending with
    | nil => exact ⟨.confirm 0, _, rfl⟩
    | cons i others => exact ⟨.confirm 1, _, rfl⟩
  | refused => exact ⟨.host, _, rfl⟩
  | confirmed => exact ⟨.host, _, rfl⟩
  | waiting hCount hDue => exact waiting_progress hDue
  | responding => exact ⟨.host, _, rfl⟩
  | handingOn => exact ⟨.host, _, rfl⟩
  | handingLast => exact ⟨.host, _, rfl⟩
  | returned => exact absurd rfl (hHost _)

end Steps

/-- The node has been told to send an indication that the host has not read yet: a response that
asks for it is on its way, or the node is to send it, or has sent it. -/
def Told (s : Poll) : Prop :=
  (∃ f ∈ s.toNode, Asks s.node.outstanding f) ∨ s.node.told = true ∨
    ∃ f ∈ s.toHost, f.primitiveId.toNat < sapConfirmOffset

theorem Due.told_of {s : Poll} (h : Due s.toNode s.toHost s.node) : Told s := by
  obtain ⟨host, toNode, toHost, node, sent, handed⟩ := s
  cases h with
  | told => exact .inr (.inl rfl)
  | @asked i others f hPrimitive => exact .inl ⟨_, List.mem_singleton.mpr rfl, f, rfl, rfl⟩
  | @sent i others => exact .inr (.inr ⟨_, List.mem_singleton.mpr rfl, i.primitive_lt⟩)

theorem Quiet.not_told_of {s : Poll} (h : Quiet s.toNode s.node) (hNone : s.toHost = []) :
    ¬ Told s := by
  rintro (⟨f, hf, i, hi, hAsks⟩ | hTold | ⟨f, hf, -⟩)
  · obtain ⟨host, toNode, toHost, node, sent, handed⟩ := s
    cases h with
    | answered => cases hf
    | stopped =>
      rw [List.mem_singleton.mp hf] at hAsks
      exact absurd (responseTo_inj hAsks) Bool.false_ne_true
  · rw [h.not_told] at hTold
    cases hTold
  · rw [hNone] at hf
    cases hf

section Phases

variable {frameId : UInt8} {maxInd : UInt32} {s : Poll}

theorem Phase.waiting_told (h : Phase frameId maxInd s) {m : UInt32} (hHost : s.host = .waiting m) :
    Told s := by
  cases h with
  | waiting hCount hDue => exact Due.told_of hDue
  | _ => cases hHost

theorem Phase.returned_quiet (h : Phase frameId maxInd s) {result : Int}
    (hHost : s.host = .returned result) :
    ¬ Told s ∧ s.handed = s.sent ∧ (s.node.pending = [] ∨ s.handed.length = maxInd.toNat) ∧
      result = if s.node.pending = [] then 0 else 1 := by
  cases h with
  | returned hCount hFull hResult hQuiet =>
    cases hHost
    exact ⟨Quiet.not_told_of hQuiet rfl, rfl, hFull, hResult⟩
  | _ => cases hHost

theorem le_of_count {n m total : Nat} (h : n + m + 1 = total) : n ≤ total := by omega

theorem Phase.handed (h : Phase frameId maxInd s) :
    s.handed <+: s.sent ∧ s.handed.length ≤ maxInd.toNat := by
  cases h with
  | called => exact ⟨List.nil_prefix, Nat.zero_le _⟩
  | polled => exact ⟨List.nil_prefix, Nat.zero_le _⟩
  | refused => exact ⟨List.nil_prefix, Nat.zero_le _⟩
  | confirmed => exact ⟨List.nil_prefix, Nat.zero_le _⟩
  | waiting hCount => exact ⟨List.prefix_append _ _, le_of_count hCount⟩
  | responding hCount => exact ⟨List.prefix_append _ _, le_of_count hCount⟩
  | handingOn hCount => exact ⟨List.prefix_append _ _, le_of_count hCount⟩
  | handingLast hCount => exact ⟨List.prefix_append _ _, le_of_count hCount⟩
  | returned hCount => exact ⟨List.prefix_rfl, hCount⟩

end Phases

/-- Whatever the order of the steps: the host waits only when the node has been told, and is done
only when it has not; the callback gets what the node sends, each indication once and in order, and
at most `maxInd` of them; the call comes to its end, and tells if an indication is left. -/
theorem get_indication_locked_serves (frameId : UInt8) (maxInd : UInt32) (hMax : 0 < maxInd)
    (pending : List Indication) (es : List Event) (s : Poll)
    (hRun : run (step frameId) (init maxInd pending) es = some s) :
    (∀ m, s.host = .waiting m → Told s) ∧
      framesOf pending = s.sent ++ framesOf s.node.pending ∧
      s.handed <+: s.sent ∧ s.handed.length ≤ maxInd.toNat ∧
      (∀ result, s.host = .returned result →
        ¬ Told s ∧ s.handed = s.sent ∧ (s.node.pending = [] ∨ s.handed.length = maxInd.toNat) ∧
          result = if s.node.pending = [] then 0 else 1) ∧
      ((∀ result, s.host ≠ .returned result) → ∃ e t, step frameId s e = some t) ∧
      es.length ≤ 5 * pending.length + 6 := by
  have hNe : maxInd ≠ 0 := UInt32.pos_iff_ne_zero.mp hMax
  have hPhase := run_invariant' (step_phase hNe) (init_phase frameId maxInd pending) hRun
  have hFrames := run_invariant' (fun s e t => step_framesOf s e t (framesOf pending)) rfl hRun
  have hLength := run_length_le rank (step_phase hNe) (fun s e t => step_rank hNe e)
    (init_phase frameId maxInd pending) hRun
  refine ⟨fun m => hPhase.waiting_told, hFrames, hPhase.handed.1, hPhase.handed.2,
    fun result => hPhase.returned_quiet, phase_progress hPhase, ?_⟩
  exact Nat.le_of_add_right_le hLength

/-- Two indications, and a callback that takes one. -/
def twoIndications : List Indication :=
  [⟨0x07, 1, [0x01], by decide, by decide⟩, ⟨0x22, 2, [0x00], by decide, by decide⟩]

def oneOfTwo : List Event := [.host, .confirm 1, .indicate, .host, .host, .host, .host, .response]

theorem get_indication_locked_serves_one :
    ∃ s, run (step 9) (init 1 twoIndications) oneOfTwo = some s ∧ s.host = .returned 1 ∧
      s.handed = [⟨0x07, 1, [1, 0x01]⟩] ∧ ¬ Told s := by
  have hServes := get_indication_locked_serves 9 1 (by decide) twoIndications oneOfTwo _ rfl
  exact ⟨_, rfl, rfl, rfl, (hServes.2.2.2.2.1 1 rfl).1⟩

end Poll

end CMeshApi.Wpc
