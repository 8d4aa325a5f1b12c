import CMeshApi.Foundations.Guarded
import CMeshApi.Wpc.Link
import CMeshApi.Wpc.Polling

/-!
# Requests from several threads

`WPC_Int_send_request_timeout` and `get_indication` of `wpc_internal.c`, called by any number of
threads under the request lock, up to the point where `Platform_close` destroys it. Each access
to what the threads share is a step of its own: the static `frame_id` is read and
written in two steps. Under the lock no other thread comes in between, so that the
link sees one call after the other.
-/

namespace CMeshApi.Wpc

open Machine Polling

namespace RequestLock

variable {ι : Type}

/-- What the threads share. The thread of each call is a record, as are the last two. -/
structure Line (ι : Type) where
  frameId : UInt8
  replies : List Reply
  callers : List ι
  executed : List Nat
  returned : List Returned

/-- Why `send_request_locked` is called. -/
inductive Purpose where
  | request
  | poll (maxInd : UInt32)
deriving DecidableEq, Repr

inductive Phase where
  | outside
  /-- Has the lock, and looks whether it is to poll. -/
  | polling (maxInd : UInt32)
  | entered (purpose : Purpose) (primitiveId : UInt8) (payload : List UInt8)
  | numbered (purpose : Purpose) (primitiveId : UInt8) (payload : List UInt8) (frameId : UInt8)
  | ready (purpose : Purpose) (request : WpcFrame)
  | waiting (purpose : Purpose) (a : Active)
  /-- In `check_if_timeout_reached_locked`. -/
  | silent (purpose : Purpose) (call : Nat) (code : Int)
  | answered (purpose : Purpose) (call : Nat) (result : Int) (confirm : Option WpcFrame)
  /-- In the loop of `get_indication_locked`, after the confirm of the call. -/
  | receiving (call : Nat) (maxInd : UInt32)
  | over
  /-- Has given up the lock to close the platform and to leave the process. -/
  | leaving
deriving DecidableEq, Repr

/-- What a call of `send_request_locked` has returned to its thread. -/
structure Answer where
  call : Nat
  result : Int
  confirm : Option WpcFrame
deriving DecidableEq, Repr

structure Caller where
  phase : Phase
  answers : List Answer
deriving DecidableEq, Repr

def Phase.inside : Phase → Bool
  | .outside | .leaving => false
  | _ => true

inductive Move where
  | request (primitiveId : UInt8) (payload : List UInt8)
  | getIndication (maxInd : UInt32)
  | poll (disabled : Bool)
  | readFrameId
  | writeFrameId
  /-- With the fate of the request. -/
  | send (fate : Fate)
  | receive (fate : Fate)
  | fail (code : Int)
  | checkTimeout (reached : Bool)
  | return
  | indication
  /-- `Slip_get_buffer` gives nothing. -/
  | noIndication
  | unlock
deriving DecidableEq, Repr

/-- A call of `send_request_locked` ends. -/
def Line.finish (s : Line ι) (a : Active) (result : Int) (confirm : Option WpcFrame)
    (reply : Option Reply) : Line ι :=
  { s with returned := s.returned ++ [⟨a.call, result, confirm, reply⟩] }

def Line.send (s : Line ι) (purpose : Purpose) (a : Active) (fate : Fate) : Line ι × Phase :=
  if fate = .failed then (s.finish a wpcIntGenError none none, .silent purpose a.call wpcIntGenError)
  else ({ s with
    replies := s.replies ++ Link.answer a fate
    executed := s.executed ++ Link.executions a fate }, .waiting purpose a)

def Line.act (s : Line ι) (purpose : Purpose) (a : Active) (reply : Reply) (fate : Fate) :
    Action → Line ι × Phase
  | .resend x => s.send purpose ⟨a.call, x⟩ fate
  | .wait x => (s, .waiting purpose ⟨a.call, x⟩)
  | .giveBack result confirm =>
    (s.finish a result confirm (some reply), .answered purpose a.call result confirm)

/-- What the loop of `get_indication_locked` does after a frame. -/
def afterIndication (call : Nat) (maxInd : UInt32) (frame : WpcFrame) : Phase :=
  if maxInd - 1 ≠ 0 ∧ resultOf frame ≠ 0 then .receiving call (maxInd - 1) else .over

def afterAnswer (purpose : Purpose) (call : Nat) (result : Int) (confirm : Option WpcFrame) : Phase :=
  match purpose, confirm with
  | .poll maxInd, some frame =>
    if result < 0 ∨ resultOf frame = 0 then .over else .receiving call maxInd
  | _, _ => .over

def Caller.to (t : Caller) (phase : Phase) : Caller := { t with phase }

/-- What the thread's next step does to the line, and where it takes the thread. -/
def move (i : ι) (s : Line ι) (t : Caller) : Move → Option (Line ι × Caller)
  | .request primitiveId payload =>
    match t.phase with
    | .outside => some (s, t.to (.entered .request primitiveId payload))
    | _ => none
  | .getIndication maxInd =>
    match t.phase with
    | .outside => some (s, t.to (.polling maxInd))
    | _ => none
  | .poll disabled =>
    match t.phase with
    | .polling maxInd =>
      some (s, t.to (if disabled ∨ maxInd = 0 then .over
        else .entered (.poll maxInd) msapIndicationPollRequest []))
    | _ => none
  | .readFrameId =>
    match t.phase with
    | .entered purpose primitiveId payload =>
      some (s, t.to (.numbered purpose primitiveId payload s.frameId))
    | _ => none
  | .writeFrameId =>
    match t.phase with
    | .numbered purpose primitiveId payload frameId =>
      some ({ s with frameId := frameId + 1 }, t.to (.ready purpose ⟨primitiveId, frameId, payload⟩))
    | _ => none
  | .send fate =>
    match t.phase with
    | .ready purpose request =>
      let (line, phase) := { s with callers := s.callers ++ [i] }.send purpose
        ⟨s.callers.length, request, 0, 0⟩ fate
      some (line, t.to phase)
    | _ => none
  | .receive fate =>
    match t.phase, s.replies with
    | .waiting purpose a, reply :: rest =>
      let (line, phase) := { s with replies := rest }.act purpose a reply fate
        (onReception a.exchange reply.reception)
      some (line, t.to phase)
    | _, _ => none
  | .fail code =>
    match t.phase with
    | .waiting purpose a =>
      if code < 0 ∧ code ≠ wpcIntWrongCrcFromHost then
        -- a reply with a wrong CRC shows that the node is there
        some (s.finish a code none none, t.to (if code = wpcIntWrongCrc then
          .answered purpose a.call code none else .silent purpose a.call code))
      else none
    | _ => none
  | .checkTimeout reached =>
    match t.phase with
    | .silent purpose call code =>
      some (s, t.to (if reached then .leaving else .answered purpose call code none))
    | _ => none
  | .return =>
    match t.phase with
    | .answered purpose call result confirm =>
      some (s, ⟨afterAnswer purpose call result confirm, t.answers ++ [⟨call, result, confirm⟩]⟩)
    | _ => none
  | .indication =>
    match t.phase, s.replies with
    | .receiving call maxInd, reply :: rest =>
      some ({ s with replies := rest }, t.to (match reply.reception with
        | .failed _ => .over
        | .frame frame => afterIndication call maxInd frame))
    | _, _ => none
  | .noIndication =>
    match t.phase with
    | .receiving _ _ => some (s, t.to .over)
    | _ => none
  | .unlock =>
    match t.phase with
    | .over => some (s, t.to .outside)
    | _ => none

/-- What the node and the wire do to the line. -/
inductive Weather where
  | loseReply
  | indicate (frame : WpcFrame)
deriving DecidableEq, Repr

def weather (s : Line ι) : Weather → Option (Line ι)
  | .loseReply =>
    match s.replies with
    | _ :: rest => some { s with replies := rest }
    | [] => none
  | .indicate frame =>
    if frame.primitiveId.toNat < sapConfirmOffset then
      some { s with replies := s.replies ++ [.indication frame] }
    else none

/-- The moves of a thread that has returned some answers, by its phases before and after. -/
inductive Moved (i : ι) (s : Line ι) (answers : List Answer) :
    Phase → Line ι → Phase → List Answer → Prop where
  | request {primitiveId payload} :
      Moved i s answers .outside s (.entered .request primitiveId payload) answers
  | getIndication {maxInd} : Moved i s answers .outside s (.polling maxInd) answers
  | noPoll {maxInd} : Moved i s answers (.polling maxInd) s .over answers
  | poll {maxInd} : Moved i s answers (.polling maxInd) s
      (.entered (.poll maxInd) msapIndicationPollRequest []) answers
  | readFrameId {purpose primitiveId payload} :
      Moved i s answers (.entered purpose primitiveId payload) s
        (.numbered purpose primitiveId payload s.frameId) answers
  | writeFrameId {purpose primitiveId payload frameId} :
      Moved i s answers (.numbered purpose primitiveId payload frameId)
        { s with frameId := frameId + 1 } (.ready purpose ⟨primitiveId, frameId, payload⟩) answers
  | send {purpose request fate line phase} (h : { s with callers := s.callers ++ [i] }.send purpose
        ⟨s.callers.length, request, 0, 0⟩ fate = (line, phase)) :
      Moved i s answers (.ready purpose request) line phase answers
  | receive {purpose a reply rest fate line phase} (hReplies : s.replies = reply :: rest)
      (h : { s with replies := rest }.act purpose a reply fate
        (onReception a.exchange reply.reception) = (line, phase)) :
      Moved i s answers (.waiting purpose a) line phase answers
  | wrongCrc {purpose a} : Moved i s answers (.waiting purpose a)
      (s.finish a wpcIntWrongCrc none none) (.answered purpose a.call wpcIntWrongCrc none) answers
  | fail {purpose a code} (hCode : code < 0 ∧ code ≠ wpcIntWrongCrcFromHost) :
      Moved i s answers (.waiting purpose a) (s.finish a code none none) (.silent purpose a.call code)
        answers
  | giveUp {purpose call code} : Moved i s answers (.silent purpose call code) s .leaving answers
  | goOn {purpose call code} :
      Moved i s answers (.silent purpose call code) s (.answered purpose call code none) answers
  | return {purpose call result confirm} :
      Moved i s answers (.answered purpose call result confirm) s
        (afterAnswer purpose call result confirm) (answers ++ [⟨call, result, confirm⟩])
  | failedIndication {call maxInd reply rest} (hReplies : s.replies = reply :: rest) :
      Moved i s answers (.receiving call maxInd) { s with replies := rest } .over answers
  | indication {call maxInd frame reply rest} (hReplies : s.replies = reply :: rest)
      (hFrame : reply.reception = .frame frame) :
      Moved i s answers (.receiving call maxInd) { s with replies := rest }
        (afterIndication call maxInd frame) answers
  | noIndication {call maxInd} : Moved i s answers (.receiving call maxInd) s .over answers
  | unlock : Moved i s answers .over s .outside answers

theorem moved_of_move {i : ι} {s s' : Line ι} {t t' : Caller} {e : Move}
    (h : move i s t e = some (s', t')) : Moved i s t.answers t.phase s' t'.phase t'.answers := by
  obtain ⟨phase, answers⟩ := t
  cases e with
  | request primitiveId payload =>
    cases phase <;> cases h
    exact .request
  | getIndication maxInd =>
    cases phase <;> cases h
    exact .getIndication
  | poll disabled =>
    cases phase <;> cases h
    dsimp only [Caller.to]
    split
    · exact .noPoll
    · exact .poll
  | readFrameId =>
    cases phase <;> cases h
    exact .readFrameId
  | writeFrameId =>
    cases phase <;> cases h
    exact .writeFrameId
  | send fate =>
    cases phase <;> cases h
    exact .send rfl
  | receive fate =>
    cases hReplies : s.replies with
    | nil => cases phase <;> simp [move, hReplies] at h
    | cons reply rest =>
      cases phase <;> simp only [move, hReplies, reduceCtorEq] at h
      cases h
      exact .receive hReplies rfl
  | fail code =>
    cases phase <;> simp only [move, reduceCtorEq] at h
    obtain ⟨hCode, hSame⟩ := Option.ite_none_right_eq_some.mp h
    cases hSame
    dsimp only [Caller.to]
    split
    · next hCrc =>
      subst hCrc
      exact .wrongCrc
    · exact .fail hCode
  | checkTimeout reached =>
    cases phase <;> cases h
    cases reached with
    | false => exact .goOn
    | true => exact .giveUp
  | «return» =>
    cases phase <;> cases h
    exact .return
  | indication =>
    cases hReplies : s.replies with
    | nil => cases phase <;> simp [move, hReplies] at h
    | cons reply rest =>
      cases phase <;> simp only [move, hReplies, reduceCtorEq] at h
      cases h
      dsimp only [Caller.to]
      cases hFrame : reply.reception with
      | failed code => exact .failedIndication hReplies
      | frame frame => exact .indication hReplies hFrame
  | noIndication =>
    cases phase <;> cases h
    exact .noIndication
  | unlock =>
    cases phase <;> cases h
    exact .unlock

theorem send_inside {s line : Line ι} {purpose : Purpose} {a : Active} {fate : Fate} {phase : Phase}
    (h : s.send purpose a fate = (line, phase)) : phase.inside = true := by
  unfold Line.send at h
  split at h <;> cases h <;> rfl

theorem act_inside {s line : Line ι} {purpose : Purpose} {a : Active} {reply : Reply} {fate : Fate}
    {action : Action} {phase : Phase} (h : s.act purpose a reply fate action = (line, phase)) :
    phase.inside = true := by
  cases action with
  | resend x => exact send_inside h
  | wait x =>
    cases h
    rfl
  | giveBack result confirm =>
    cases h
    rfl

theorem afterIndication_inside (call : Nat) (maxInd : UInt32) (frame : WpcFrame) :
    (afterIndication call maxInd frame).inside = true := by
  unfold afterIndication
  split <;> rfl

theorem afterAnswer_inside (purpose : Purpose) (call : Nat) (result : Int) (confirm : Option WpcFrame) :
    (afterAnswer purpose call result confirm).inside = true := by
  unfold afterAnswer
  split
  · split <;> rfl
  · rfl

theorem move_untouched {i : ι} {s s' : Line ι} {t t' : Caller} {e : Move}
    (h : move i s t e = some (s', t')) (hOutside : (t.phase.inside && t'.phase.inside) = false) :
    s' = s := by
  have hMoved := moved_of_move h
  obtain ⟨phase, answers⟩ := t
  obtain ⟨phase', answers'⟩ := t'
  dsimp only at hMoved hOutside
  cases hMoved with
  | writeFrameId => cases hOutside
  | send hSend => rw [send_inside hSend] at hOutside; cases hOutside
  | receive _ hAct => rw [act_inside hAct] at hOutside; cases hOutside
  | wrongCrc => cases hOutside
  | fail hCode => cases hOutside
  | failedIndication hReplies => cases hOutside
  | indication hReplies => rw [afterIndication_inside] at hOutside; cases hOutside
  | _ => rfl

/-- The threads of the process. -/
def code : Guarded.Code ι (Line ι) Caller Move where
  inside t := t.phase.inside
  step := move
  untouched := move_untouched

def Line.link (s : Line ι) (frameId : UInt8) (current : Option Active) : Link :=
  ⟨frameId, current, s.replies, s.callers.length, s.executed, s.returned⟩

def Phase.active : Phase → Option Active
  | .waiting _ a => some a
  | _ => none

/-- The frame id of the next call: the call that has taken it is not made before it sends. -/
def Phase.nextId (s : Line ι) : Phase → UInt8
  | .ready _ request => request.frameId
  | _ => s.frameId

/-- The link, for the phase of the thread in the section. -/
def Line.during (s : Line ι) (phase : Phase) : Link := s.link (phase.nextId s) phase.active

theorem send_link (s : Line ι) (purpose : Purpose) (a : Active) (fate : Fate) (frameId : UInt8)
    (current : Option Active) :
    Link.send (s.link frameId current) a fate =
      (s.send purpose a fate).1.link frameId (s.send purpose a fate).2.active := by
  unfold Link.send Line.send
  split
  · rfl
  · rfl

theorem act_link (s : Line ι) (purpose : Purpose) (a : Active) (reply : Reply) (fate : Fate)
    (frameId : UInt8) (current : Option Active) (action : Action) :
    Link.act (s.link frameId current) a reply fate action =
      (s.act purpose a reply fate action).1.link frameId
        (s.act purpose a reply fate action).2.active := by
  cases action with
  | resend x => exact send_link s purpose ⟨a.call, x⟩ fate frameId current
  | wait x => rfl
  | giveBack result confirm => rfl

/-- The thread has got the answers of calls that it has made, each once and in order. -/
structure Knows (i : ι) (t : Caller) (s : Line ι) : Prop where
  own : ∀ x ∈ t.answers, s.callers[x.call]? = some i
  returned : ∀ x ∈ t.answers, ∃ reply, (⟨x.call, x.result, x.confirm, reply⟩ : Returned) ∈ s.returned
  inOrder : t.answers.Pairwise fun x y => x.call < y.call

/-- The call whose answer is still to come. -/
def Phase.call : Phase → Option Nat
  | .waiting _ a => some a.call
  | .silent _ call _ | .answered _ call _ _ => some call
  | _ => none

def Newer (answers : List Answer) (phase : Phase) : Prop :=
  ∀ call ∈ phase.call, ∀ x ∈ answers, x.call < call

/-- What the phase tells of the line. The call that returned last is that of the thread. -/
def Own (i : ι) (s : Line ι) : Phase → Prop
  | .numbered _ _ _ frameId => frameId = s.frameId
  | .ready _ request => s.frameId = request.frameId + 1
  | .waiting _ a => s.callers[a.call]? = some i
  | .silent _ call code => s.callers[call]? = some i ∧ code < 0 ∧
      s.returned.getLast? = some ⟨call, code, none, none⟩
  | .answered _ call result confirm => s.callers[call]? = some i ∧ (result < 0 ∨ result = 0) ∧
      ∃ reply, s.returned.getLast? = some ⟨call, result, confirm, reply⟩
  | .receiving call _ => s.callers[call]? = some i ∧
      ∃ frame reply, s.returned.getLast? = some ⟨call, 0, some frame, reply⟩ ∧ resultOf frame ≠ 0
  | _ => True

variable {i : ι} {s s' : Line ι} {answers answers' : List Answer} {phase phase' : Phase}

theorem afterAnswer_during (s : Line ι) (purpose : Purpose) (call : Nat) (result : Int)
    (confirm : Option WpcFrame) : s.during (afterAnswer purpose call result confirm) = s.during .over := by
  unfold afterAnswer
  split
  · split <;> rfl
  · rfl

theorem afterIndication_during (s : Line ι) (call : Nat) (maxInd : UInt32) (frame : WpcFrame) :
    s.during (afterIndication call maxInd frame) = s.during .over := by
  unfold afterIndication
  split <;> rfl

theorem send_active {line : Line ι} {purpose : Purpose} {a : Active} {fate : Fate}
    (h : s.send purpose a fate = (line, phase)) : phase.nextId line = line.frameId ∧ line.frameId = s.frameId := by
  unfold Line.send at h
  split at h <;> cases h <;> exact ⟨rfl, rfl⟩

theorem act_active {line : Line ι} {purpose : Purpose} {a : Active} {reply : Reply} {fate : Fate}
    {action : Action} (h : s.act purpose a reply fate action = (line, phase)) :
    phase.nextId line = line.frameId ∧ line.frameId = s.frameId := by
  cases action with
  | resend x => exact send_active h
  | wait x =>
    cases h
    exact ⟨rfl, rfl⟩
  | giveBack result confirm =>
    cases h
    exact ⟨rfl, rfl⟩

/-- Each move is at most one event on the link. -/
theorem moved_during (h : Moved i s answers phase s' phase' answers') (hOwn : Own i s phase) :
    ∃ as, run Link.step (s.during phase) as = some (s'.during phase') := by
  cases h with
  | writeFrameId =>
    obtain rfl := hOwn
    exact ⟨[], rfl⟩
  | @send purpose request fate _ _ hSend =>
    refine ⟨[.start request.primitiveId request.payload fate], ?_⟩
    have hLink := send_link { s with callers := s.callers ++ [i] } purpose
      ⟨s.callers.length, request, 0, 0⟩ fate s.frameId none
    obtain ⟨hNext, hFrameId⟩ := send_active hSend
    rw [hSend] at hLink
    have hStart : Link.step (s.during (.ready purpose request))
        (.start request.primitiveId request.payload fate) =
        some (Link.send (Line.link { s with callers := s.callers ++ [i] } s.frameId none)
          ⟨s.callers.length, request, 0, 0⟩ fate) := by
      rw [show s.frameId = request.frameId + 1 from hOwn, Line.link, List.length_append]
      rfl
    rw [run_cons, hStart, hLink, Line.during, hNext, hFrameId]
    rfl
  | @receive purpose a reply rest fate _ _ hReplies hAct =>
    refine ⟨[.receive fate], ?_⟩
    have hLink := act_link { s with replies := rest } purpose a reply fate s.frameId (some a)
      (onReception a.exchange reply.reception)
    obtain ⟨hNext, hFrameId⟩ := act_active hAct
    rw [hAct] at hLink
    have hReceive : Link.step (s.during (.waiting purpose a)) (.receive fate) =
        some (Link.act (Line.link { s with replies := rest } s.frameId (some a)) a reply fate
          (onReception a.exchange reply.reception)) := by
      rw [Line.during, Line.link, Link.step]
      dsimp only [Phase.active]
      rw [hReplies]
      rfl
    rw [run_cons, hReceive, hLink, Line.during, hNext, hFrameId]
    rfl
  | wrongCrc => exact ⟨[.fail wpcIntWrongCrc], rfl⟩
  | @fail purpose a code hCode =>
    refine ⟨[.fail code], ?_⟩
    rw [run_cons, Line.during, Line.link, Link.step]
    dsimp only [Phase.active]
    rw [if_pos hCode]
    rfl
  | «return» =>
    rw [afterAnswer_during]
    exact ⟨[], rfl⟩
  | failedIndication hReplies =>
    refine ⟨[.readIndication], ?_⟩
    rw [run_cons, Line.during, Line.link, Link.step, hReplies]
    rfl
  | indication hReplies =>
    refine ⟨[.readIndication], ?_⟩
    rw [afterIndication_during, run_cons, Line.during, Line.link, Link.step, hReplies]
    rfl
  | _ => exact ⟨[], rfl⟩

/-- Calls and answers are only added. -/
structure Grows (s s' : Line ι) : Prop where
  callers : s.callers <+: s'.callers
  returned : s.returned <+: s'.returned

theorem Grows.caller (h : Grows s s') {call : Nat} (hCall : s.callers[call]? = some i) :
    s'.callers[call]? = some i := by
  obtain ⟨later, hLater⟩ := h.callers
  rw [← hLater, List.getElem?_append_left (List.getElem?_eq_some_iff.mp hCall).1]
  exact hCall

theorem Knows.grows {t : Caller} (h : Knows i t s) (hGrows : Grows s s') : Knows i t s' := by
  refine ⟨fun x hx => hGrows.caller (h.own x hx), ?_, h.inOrder⟩
  intro x hx
  obtain ⟨reply, hReturned⟩ := h.returned x hx
  exact ⟨reply, hGrows.returned.subset hReturned⟩

theorem send_grows {line : Line ι} {purpose : Purpose} {a : Active} {fate : Fate}
    (h : s.send purpose a fate = (line, phase)) : Grows s line := by
  unfold Line.send at h
  split at h <;> cases h
  · exact ⟨List.prefix_refl _, List.prefix_append _ _⟩
  · exact ⟨List.prefix_refl _, List.prefix_refl _⟩

theorem act_grows {line : Line ι} {purpose : Purpose} {a : Active} {reply : Reply} {fate : Fate}
    {action : Action} (h : s.act purpose a reply fate action = (line, phase)) : Grows s line := by
  cases action with
  | resend x => exact send_grows h
  | wait x =>
    cases h
    exact ⟨List.prefix_refl _, List.prefix_refl _⟩
  | giveBack result confirm =>
    cases h
    exact ⟨List.prefix_refl _, List.prefix_append _ _⟩

theorem moved_grows (h : Moved i s answers phase s' phase' answers') : Grows s s' := by
  cases h with
  | send hSend =>
    obtain ⟨hCallers, hReturned⟩ := send_grows hSend
    exact ⟨(List.prefix_append _ _).trans hCallers, hReturned⟩
  | receive _ hAct => exact ⟨(act_grows hAct).callers, (act_grows hAct).returned⟩
  | wrongCrc => exact ⟨List.prefix_refl _, List.prefix_append _ _⟩
  | fail _ => exact ⟨List.prefix_refl _, List.prefix_append _ _⟩
  | _ => exact ⟨List.prefix_refl _, List.prefix_refl _⟩

theorem onReception_result {x : Exchange} {reply : Reply} {result : Int} {confirm : Option WpcFrame}
    (h : onReception x reply.reception = .giveBack result confirm) : result < 0 ∨ result = 0 := by
  have hSkip : skip x = .giveBack result confirm → result < 0 ∨ result = 0 := by
    intro hSkip
    obtain hWait | hLost := skip_eq x
    · cases hWait.symm.trans hSkip
    · cases hLost.symm.trans hSkip
      exact .inl (by decide)
  cases reply with
  | dummy call =>
    simp only [Reply.reception, onReception] at h
    split at h <;> cases h
    exact .inl (by decide)
  | confirm call frame =>
    simp only [Reply.reception, onReception] at h
    split at h
    · exact hSkip h
    · split at h
      · exact hSkip h
      · cases h
        exact .inr rfl
  | indication frame =>
    simp only [Reply.reception, onReception] at h
    split at h
    · exact hSkip h
    · split at h
      · exact hSkip h
      · cases h
        exact .inr rfl

theorem own_send {line : Line ι} {purpose : Purpose} {a : Active} {fate : Fate}
    (hCaller : s.callers[a.call]? = some i) (h : s.send purpose a fate = (line, phase)) :
    Own i line phase := by
  unfold Line.send at h
  split at h <;> cases h
  · exact ⟨hCaller, by decide, List.getLast?_concat⟩
  · exact hCaller

theorem own_act {line : Line ι} {purpose : Purpose} {a : Active} {reply : Reply} {fate : Fate} {x : Exchange}
    (hCaller : s.callers[a.call]? = some i)
    (h : s.act purpose a reply fate (onReception x reply.reception) = (line, phase)) : Own i line phase := by
  cases hAction : onReception x reply.reception with
  | resend y =>
    rw [hAction] at h
    exact own_send (a := ⟨a.call, y⟩) hCaller h
  | wait y =>
    rw [hAction] at h
    cases h
    exact hCaller
  | giveBack result confirm =>
    rw [hAction] at h
    cases h
    exact ⟨hCaller, onReception_result hAction, _, List.getLast?_concat⟩

theorem own_afterAnswer {purpose : Purpose} {call : Nat} {result : Int} {confirm : Option WpcFrame}
    (h : Own i s (.answered purpose call result confirm)) :
    Own i s (afterAnswer purpose call result confirm) := by
  obtain ⟨hCaller, hResult, reply, hLast⟩ := h
  unfold afterAnswer
  split
  · next maxInd frame =>
    split
    · trivial
    · next hPending =>
      rw [not_or] at hPending
      obtain rfl := hResult.resolve_left hPending.1
      exact ⟨hCaller, frame, reply, hLast, hPending.2⟩
  · trivial

theorem own_moved (h : Moved i s answers phase s' phase' answers') (hOwn : Own i s phase) :
    Own i s' phase' := by
  cases h with
  | readFrameId => rfl
  | writeFrameId =>
    obtain rfl := hOwn
    rfl
  | send hSend => exact own_send (by simp) hSend
  | @receive purpose a reply rest fate _ _ _ hAct => exact own_act (s := { s with replies := rest }) hOwn hAct
  | wrongCrc => exact ⟨hOwn, .inl (by decide), none, List.getLast?_concat⟩
  | fail hCode => exact ⟨hOwn, hCode.1, List.getLast?_concat⟩
  | goOn => exact ⟨hOwn.1, .inl hOwn.2.1, none, hOwn.2.2⟩
  | «return» => exact own_afterAnswer hOwn
  | indication _ _ =>
    unfold afterIndication
    split
    · exact hOwn
    · trivial
  | _ => trivial

theorem send_call {line : Line ι} {purpose : Purpose} {a : Active} {fate : Fate}
    (h : s.send purpose a fate = (line, phase)) : phase.call = some a.call := by
  unfold Line.send at h
  split at h <;> cases h <;> rfl

theorem act_call {line : Line ι} {purpose : Purpose} {a : Active} {reply : Reply} {fate : Fate}
    {action : Action} (h : s.act purpose a reply fate action = (line, phase)) :
    phase.call = some a.call := by
  cases action with
  | resend x => exact send_call (a := ⟨a.call, x⟩) h
  | wait x =>
    cases h
    rfl
  | giveBack result confirm =>
    cases h
    rfl

theorem afterAnswer_call (purpose : Purpose) (call : Nat) (result : Int) (confirm : Option WpcFrame) :
    (afterAnswer purpose call result confirm).call = none := by
  unfold afterAnswer
  split
  · split <;> rfl
  · rfl

theorem newer_moved (h : Moved i s answers phase s' phase' answers') (hKnows : Knows i ⟨phase, answers⟩ s)
    (hNewer : Newer answers phase) : Newer answers' phase' := by
  cases h with
  | send hSend =>
    rw [Newer, send_call hSend]
    rintro _ ⟨⟩ x hx
    exact (List.getElem?_eq_some_iff.mp (hKnows.own x hx)).1
  | receive _ hAct =>
    rw [Newer, act_call hAct]
    exact hNewer
  | wrongCrc => exact hNewer
  | fail _ => exact hNewer
  | goOn => exact hNewer
  | «return» =>
    rw [Newer, afterAnswer_call]
    rintro _ ⟨⟩
  | indication _ _ =>
    unfold afterIndication
    split <;> rintro _ ⟨⟩
  | _ => rintro _ ⟨⟩

theorem knows_moved (h : Moved i s answers phase s' phase' answers') (hOwn : Own i s phase)
    (hNewer : Newer answers phase) (hKnows : Knows i ⟨phase, answers⟩ s) :
    Knows i ⟨phase', answers'⟩ s' := by
  have hGrown : Knows i ⟨phase', answers⟩ s' := by
    obtain ⟨hOwned, hReturned, hOrder⟩ := Knows.grows hKnows (moved_grows h)
    exact ⟨hOwned, hReturned, hOrder⟩
  cases h with
  | @«return» purpose call result confirm =>
    obtain ⟨hCaller, -, reply, hLast⟩ := hOwn
    have hEach : ∀ x ∈ answers ++ [⟨call, result, confirm⟩], x ∈ answers ∨ x = ⟨call, result, confirm⟩ :=
      fun x hx => (List.mem_append.mp hx).imp_right List.mem_singleton.mp
    refine ⟨?_, ?_, ?_⟩
    · intro x hx
      obtain hBefore | rfl := hEach x hx
      · exact hGrown.own x hBefore
      · exact hCaller
    · intro x hx
      obtain hBefore | rfl := hEach x hx
      · exact hGrown.returned x hBefore
      · exact ⟨reply, List.mem_of_getLast? hLast⟩
    · refine List.pairwise_append.mpr ⟨hKnows.inOrder, List.pairwise_singleton _ _, ?_⟩
      intro x hx y hy
      rw [List.mem_singleton.mp hy]
      exact hNewer call rfl x hx
  | _ => exact hGrown

structure Follows (c : Option (ι × Caller)) (s : Line ι) (link : Link) : Prop where
  link : link = s.during (c.elim .outside fun x => x.2.phase)
  knows : ∀ i t, c = some (i, t) → Knows i t s
  own : ∀ i t, c = some (i, t) → Own i s t.phase
  newer : ∀ i t, c = some (i, t) → Newer t.answers t.phase

theorem follows_some {t : Caller} {link : Link} :
    Follows (some (i, t)) s link ↔
      link = s.during t.phase ∧ Knows i t s ∧ Own i s t.phase ∧ Newer t.answers t.phase := by
  constructor
  · rintro ⟨hLink, hKnows, hOwn, hNewer⟩
    exact ⟨hLink, hKnows i t rfl, hOwn i t rfl, hNewer i t rfl⟩
  · rintro ⟨hLink, hKnows, hOwn, hNewer⟩
    refine ⟨hLink, ?_, ?_, ?_⟩
    · rintro _ _ ⟨⟩
      exact hKnows
    · rintro _ _ ⟨⟩
      exact hOwn
    · rintro _ _ ⟨⟩
      exact hNewer

/-- The weather changes what is on its way, and nothing that a thread knows. -/
theorem weather_cases {e : Weather} (h : weather s e = some s') (phase : Phase) :
    (∃ replies, s' = { s with replies := replies }) ∧
      ∃ as, run Link.step (s.during phase) as = some (s'.during phase) := by
  cases e with
  | loseReply =>
    cases hReplies : s.replies with
    | nil => simp [weather, hReplies] at h
    | cons reply rest =>
      rw [weather, hReplies] at h
      cases h
      refine ⟨⟨rest, rfl⟩, [.loseReply], ?_⟩
      rw [run_cons, Line.during, Line.link, Link.step, hReplies]
      cases phase <;> rfl
  | indicate frame =>
    obtain ⟨hFrame, hSame⟩ := Option.ite_none_right_eq_some.mp h
    cases hSame
    refine ⟨⟨_, rfl⟩, [.indicate frame], ?_⟩
    rw [run_cons, Line.during, Line.link, Link.step, if_pos hFrame]
    cases phase <;> rfl

theorem follows_weather {c : Option (ι × Caller)} {e : Weather} {link : Link} (h : weather s e = some s')
    (hFollows : Follows c s link) :
    ∃ as link', run Link.step link as = some link' ∧ Follows c s' link' := by
  obtain ⟨⟨replies, rfl⟩, as, hRun⟩ := weather_cases h (c.elim .outside fun x => x.2.phase)
  rw [← hFollows.link] at hRun
  refine ⟨as, _, hRun, rfl, ?_, ?_, hFollows.newer⟩
  · intro i t hc
    obtain ⟨hOwned, hReturned, hOrder⟩ := hFollows.knows i t hc
    exact ⟨hOwned, hReturned, hOrder⟩
  intro i t hc
  have hOwn := hFollows.own i t hc
  revert hOwn
  cases t.phase <;> exact id

theorem moved_enter (h : Moved i s answers phase s' phase' answers') (hOut : phase.inside = false) :
    phase'.inside = true ∧ answers' = answers ∧ s'.during .outside = s'.during phase' ∧
      Own i s' phase' ∧ phase'.call = none := by
  cases h with
  | request => exact ⟨rfl, rfl, rfl, trivial, rfl⟩
  | getIndication => exact ⟨rfl, rfl, rfl, trivial, rfl⟩
  | _ => cases hOut

theorem moved_leave (h : Moved i s answers phase s' phase' answers') (hOut : phase'.inside = false) :
    s.during phase = s'.during .outside := by
  cases h with
  | giveUp => rfl
  | unlock => rfl
  | send hSend => rw [send_inside hSend] at hOut; cases hOut
  | receive _ hAct => rw [act_inside hAct] at hOut; cases hOut
  | «return» => rw [afterAnswer_inside] at hOut; cases hOut
  | indication _ _ => rw [afterIndication_inside] at hOut; cases hOut
  | _ => cases hOut

/-- The sections of the threads are calls on the link. -/
theorem simulates [DecidableEq ι] :
    Guarded.Simulates (code : Guarded.Code ι _ _ _) weather Link.step Follows Knows where
  enter := by
    rintro i s t e ⟨phase', answers'⟩ link hOut hIn hMove ⟨rfl, -, -, -⟩ ⟨hOwned, hReturned, hOrder⟩
    obtain ⟨-, rfl, hDuring, hOwn, hCall⟩ := moved_enter (moved_of_move hMove) hOut
    refine follows_some.mpr ⟨hDuring, ⟨hOwned, hReturned, hOrder⟩, hOwn, ?_⟩
    rw [Newer, hCall]
    rintro _ ⟨⟩
  work := by
    rintro i s ⟨phase, answers⟩ e s' ⟨phase', answers'⟩ link - - hMove hFollows
    have hMoved := moved_of_move hMove
    obtain ⟨rfl, hKnows, hOwn, hNewer⟩ := follows_some.mp hFollows
    obtain ⟨as, hRun⟩ := moved_during hMoved hOwn
    exact ⟨as, _, hRun, follows_some.mpr ⟨rfl, knows_moved hMoved hOwn hNewer hKnows,
      own_moved hMoved hOwn, newer_moved hMoved hKnows hNewer⟩⟩
  leave := by
    rintro i s ⟨phase, answers⟩ e ⟨phase', answers'⟩ link - hOut hMove hFollows
    have hMoved := moved_of_move hMove
    obtain ⟨rfl, hKnows, hOwn, hNewer⟩ := follows_some.mp hFollows
    refine ⟨⟨moved_leave hMoved hOut, ?_, ?_, ?_⟩, knows_moved hMoved hOwn hNewer hKnows⟩
    · rintro _ _ ⟨⟩
    · rintro _ _ ⟨⟩
    · rintro _ _ ⟨⟩
  wait := by
    rintro i s t e t' hOut hOut' hMove -
    obtain ⟨hIn, -⟩ := moved_enter (moved_of_move hMove) hOut
    cases hOut'.symm.trans hIn
  change := follows_weather
  lasts := fun hMove _ _ hKnows => hKnows.grows (moved_grows (moved_of_move hMove))
  lastsChange := by
    intro s e s' hWeather j u hKnows
    obtain ⟨⟨replies, rfl⟩, -⟩ := weather_cases hWeather .outside
    obtain ⟨hOwned, hReturned, hOrder⟩ := hKnows
    exact ⟨hOwned, hReturned, hOrder⟩

def init : Guarded.State ι (Line ι) Caller := ⟨⟨0, [], [], [], []⟩, none, fun _ => ⟨.outside, []⟩⟩

/-- One call follows the other on the link. Each thread has the answers of its own calls, each once
and in order, and from the confirm of a poll to the last of its indications no other call is made. -/
structure Serialized (s : Guarded.State ι (Line ι) Caller) : Prop where
  link : ∃ as, run Link.step Link.init as =
    some (s.shared.during (s.current.elim .outside fun x => x.2.phase))
  exclusive : ∀ i j, (s.threads i).phase.inside = true → (s.threads j).phase.inside = true → i = j
  answers : ∀ i, Knows i (s.threads i) s.shared
  indications : ∀ i call maxInd, (s.threads i).phase = .receiving call maxInd →
    s.shared.callers[call]? = some i ∧ ∃ frame reply,
      s.shared.returned.getLast? = some ⟨call, 0, some frame, reply⟩ ∧ resultOf frame ≠ 0

theorem keeps_init [DecidableEq ι] :
    Guarded.Keeps code Follows Knows (init : Guarded.State ι _ _) Link.init where
  exclusive i := by constructor <;> rintro ⟨⟩
  sim := by
    refine ⟨rfl, ?_, ?_, ?_⟩
    · rintro _ _ ⟨⟩
    · rintro _ _ ⟨⟩
    · rintro _ _ ⟨⟩
  knows i _ := by
    refine ⟨?_, ?_, .nil⟩
    · rintro _ ⟨⟩
    · rintro _ ⟨⟩

/-- Calls of any number of threads, interleaved in any way. -/
theorem interleaved_calls_serialized [DecidableEq ι] {es : List (Guarded.Event ι Move Weather)}
    {s : Guarded.State ι (Line ι) Caller} (h : run (Guarded.step code weather) init es = some s) :
    Serialized s := by
  obtain ⟨as, link, hRun, hKeeps⟩ := simulates.run keeps_init h
  have hCurrent : ∀ i, (s.threads i).phase.inside = true → s.current = some (i, s.threads i) :=
    fun i hIn => Guarded.current_of_owner ((hKeeps.exclusive i).mp hIn)
  refine ⟨⟨as, hKeeps.sim.link ▸ hRun⟩, fun i j => hKeeps.exclusive.unique, ?_, ?_⟩
  · intro i
    cases hIn : (s.threads i).phase.inside with
    | false => exact hKeeps.knows i hIn
    | true => exact hKeeps.sim.knows i _ (hCurrent i hIn)
  · intro i call maxInd hPhase
    have hOwn := hKeeps.sim.own i _ (hCurrent i (by rw [hPhase]; rfl))
    rw [hPhase] at hOwn
    exact hOwn

/-- A request and a poll of two threads, with an indication that comes in between. -/
def requestAndPoll : List (Guarded.Event Bool Move Weather) :=
  [.thread true (.request 0x0E [1]), .thread true .readFrameId, .thread true .writeFrameId,
    .thread true (.send .corrupted), .thread true (.receive (.intact [0])),
    .other (.indicate ⟨0x03, 7, [1]⟩), .thread true (.receive .lost), .thread true .return,
    .thread true .unlock, .thread false (.getIndication 5), .thread false (.poll false),
    .thread false .readFrameId, .thread false .writeFrameId, .thread false (.send (.intact [1])),
    .thread false (.receive .lost), .thread false (.receive .lost), .thread false .return,
    .other (.indicate ⟨0x03, 8, [1]⟩), .thread false .indication]

theorem interleaved_calls_serialized_requestAndPoll :
    ∃ s, run (Guarded.step code weather) init requestAndPoll = some s ∧ Serialized s ∧
      (s.threads false).phase = .receiving 1 4 := by
  have hRun : run (Guarded.step (code : Guarded.Code Bool _ _ _) weather) init requestAndPoll =
      some _ := rfl
  exact ⟨_, hRun, interleaved_calls_serialized hRun, rfl⟩

end RequestLock

end CMeshApi.Wpc
