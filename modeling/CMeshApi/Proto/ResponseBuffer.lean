import CMeshApi.Foundations.Memory
import CMeshApi.Proto.Unfilled

/-!
# The buffer of the caller

`WPC_Proto_handle_request` and `WPC_Proto_get_current_event_status` are passed a buffer with its size,
and the header promises that a failed call leaves the buffer and sets the size to zero. Only one of
the exits after a failure sets it.
-/

namespace CMeshApi.Proto

open Programs Wpc

/-- The message that is encoded into the buffer. -/
inductive Outgoing where
  | response (resp : ProtoResponse)
  | statusEvent (event : Raw.StatusEvent)

/-- What nanopb decodes, and what it has written into a buffer of a size when it returns its status.
A decoded `wp_GenericMessage` may be without a `wp_WirepasMessage`. -/
structure Nanopb where
  decode : List UInt8 → Option (Option WirepasMessage)
  encode : Outgoing → Nat → Bool × List UInt8
  bounded : ∀ message size, (encode message size).2.length ≤ size

/-- What the two pointers of the caller refer to. -/
structure Output where
  buffer : Memory UInt8
  size : Nat

section Calls

variable {ν : Type} (env : Environment ν) (dsapDataTxRequest : UInt8 → Dsap.DataTx → ν → Int × ν) (pb : Nanopb)

def Nanopb.serialize (response : Output) : AppProtoRes × Option ProtoResponse → AppProtoRes × Output
  | (.ok, some resp) =>
    let (status, written) := pb.encode (.response resp) response.size
    let buffer := response.buffer.write 0 written
    if status then (.ok, ⟨buffer, written.length⟩) else (.cannotGenerateResponse, { response with buffer := buffer })
  | (res, _) => (res, response)

def Nanopb.wpcProtoHandleRequest (request : List UInt8) (memory : ResponseMemory) (response : Output) :
    Call Gateway ν (AppProtoRes × Output) :=
  match pb.decode request with
  | none => return (.invalidRequest, response)
  | some none => return (.invalidRequest, response)
  | some (some m) => do
    let handled ← handleMessage env dsapDataTxRequest m memory
    return pb.serialize response handled

/-- `WPC_Proto_get_current_event_status`, which calls it with the same arguments. -/
def Nanopb.protoConfigGetCurrentEventStatus (gwOnline sinkOnline : Bool) (eventStatus : Output) :
    Call Gateway ν (AppProtoRes × Output) := do
  if ← ask env.malloc then
    let event ← fillStatusEvent env (if gwOnline then .on else .off) (if sinkOnline then 1 else 0)
    let (status, written) := pb.encode (.statusEvent event) eventStatus.size
    let buffer := eventStatus.buffer.write 0 written
    return if status then (.ok, ⟨buffer, written.length⟩) else (.cannotGenerateResponse, ⟨buffer, 0⟩)
  else return (.notEnoughMemory, eventStatus)

/-- What the header promises, for a buffer of this size with any contents. -/
def Honours (call : Output → Call Gateway ν (AppProtoRes × Output)) (size : Nat) (w : World Gateway ν) : Prop :=
  ∀ buffer res out t, Returns (call ⟨buffer, size⟩) w (res, out) t →
    (res ≠ .ok → out.size = 0 ∧ out.buffer = buffer) ∧
      (res = .ok → out.size ≤ size ∧
        ∃ written : List UInt8, out.size = written.length ∧ out.buffer = buffer.write 0 written)

/-- The request is decoded to one that is supported, there is memory for its response, and any
response that its handler returns is encoded. -/
def AnswersRequest (request : List UInt8) (memory : ResponseMemory) (size : Nat) (w : World Gateway ν) : Prop :=
  ∃ m r, pb.decode request = some (some m) ∧ m.request = some r ∧ (env.malloc w.node).1 = true ∧
    ∀ resp t, Returns (r.handle env dsapDataTxRequest memory) { w with node := (env.malloc w.node).2 }
      (.ok, resp) t → (pb.encode (.response resp) size).1 = true

/-- Without memory for the event the size is zero already, and an event that is not encoded has
nothing of it written. -/
def AnswersStatus (gwOnline sinkOnline : Bool) (size : Nat) (w : World Gateway ν) : Prop :=
  ((env.malloc w.node).1 = false → size = 0) ∧
    ((env.malloc w.node).1 = true → ∀ event t,
      Returns (fillStatusEvent env (if gwOnline then .on else .off) (if sinkOnline then 1 else 0))
        { w with node := (env.malloc w.node).2 } event t →
          (pb.encode (.statusEvent event) size).1 = true ∨ (pb.encode (.statusEvent event) size).2 = [])

end Calls

section Contract

variable {ν : Type} {env : Environment ν} {dsapDataTxRequest : UInt8 → Dsap.DataTx → ν → Int × ν} {pb : Nanopb}
  {request : List UInt8} {memory : ResponseMemory} {size : Nat} {w : World Gateway ν}

/-- Every handler reports its errors in the response. -/
theorem handle_ok (r : ProtoRequest) :
    Yields (r.handle env dsapDataTxRequest memory) fun answer => answer.1 = .ok := by
  cases r with
  | getConfigs req =>
    exact .bind (.last fun _ => .last fun _ => .last fun _ => .pure rfl) fun _ hOk => .pure hOk
  | setConfig req =>
    refine .bind (.last fun g => .ite ?_ ?_) fun _ hOk => .pure hOk
    · exact .last fun _ => .pure rfl
    · exact .last fun _ => .last fun _ => .last fun _ => .pure rfl
  | sendPacket req => exact .bind (.last fun _ => .last fun _ => .pure rfl) fun _ hOk => .pure hOk
  | getScratchpadStatus req => exact .bind (.last fun _ => .last fun _ => .pure rfl) fun _ hOk => .pure hOk
  | uploadScratchpad req => exact .bind (.last fun _ => .last fun _ => .pure rfl) fun _ hOk => .pure hOk
  | processScratchpad req => exact .bind (.last fun _ => .last fun _ => .pure rfl) fun _ hOk => .pure hOk
  | getGatewayInfo req =>
    exact .bind (.last fun _ => .last fun _ => .last fun _ => .pure rfl) fun _ hOk => .pure hOk
  | setScratchpadTargetAndAction req =>
    exact .bind (.last fun _ => .last fun _ => .last fun _ => .last fun _ => .pure rfl) fun _ hOk => .pure hOk

/-- A failure that leaves both outputs alone is as promised for a size of zero only. -/
theorem honours_untouched {call : Output → Call Gateway ν (AppProtoRes × Output)} {res : AppProtoRes}
    {t : World Gateway ν} (hRes : res ≠ .ok) (h : ∀ output, Returns (call output) w (res, output) t) :
    Honours call size w ↔ size = 0 := by
  constructor
  · intro hHonours
    exact (((hHonours fun _ => 0) res _ t (h _)).1 hRes).1
  · rintro rfl buffer res' out t' hReturns
    obtain ⟨hSame, -⟩ := hReturns.unique (h ⟨buffer, 0⟩)
    obtain ⟨rfl, rfl⟩ := Prod.mk.inj hSame
    exact ⟨fun _ => ⟨rfl, rfl⟩, fun hOk => absurd hOk hRes⟩

theorem honours_serialize {call : Output → Call Gateway ν (AppProtoRes × Output)} {resp : ProtoResponse}
    {t : World Gateway ν}
    (h : ∀ output, Returns (call output) w (pb.serialize output (.ok, some resp)) t) :
    Honours call size w ↔ size = 0 ∨ (pb.encode (.response resp) size).1 = true := by
  have hBounded := pb.bounded (.response resp) size
  cases hStatus : (pb.encode (.response resp) size).1 with
  | true =>
    refine iff_of_true (fun buffer res out t' hReturns => ?_) (.inr rfl)
    obtain ⟨hSame, -⟩ := hReturns.unique (h ⟨buffer, size⟩)
    simp only [Nanopb.serialize, hStatus, if_true] at hSame
    obtain ⟨rfl, rfl⟩ := Prod.mk.inj hSame
    exact ⟨fun hError => absurd rfl hError, fun _ => ⟨hBounded, _, rfl, rfl⟩⟩
  | false =>
    have hSerialized : ∀ buffer, pb.serialize ⟨buffer, size⟩ (.ok, some resp) =
        (.cannotGenerateResponse, ⟨buffer.write 0 (pb.encode (.response resp) size).2, size⟩) := by
      intro buffer
      simp only [Nanopb.serialize, hStatus]
      rfl
    constructor
    · intro hHonours
      have hReturns := h ⟨fun _ => 0, size⟩
      rw [hSerialized] at hReturns
      exact .inl ((hHonours _ _ _ t hReturns).1 nofun).1
    · rintro (rfl | hTrue)
      · intro buffer res out t' hReturns
        obtain ⟨hSame, -⟩ := hReturns.unique (h ⟨buffer, 0⟩)
        rw [hSerialized, List.eq_nil_of_length_eq_zero (Nat.le_zero.mp hBounded), Memory.write_nil] at hSame
        obtain ⟨rfl, rfl⟩ := Prod.mk.inj hSame
        exact ⟨fun _ => ⟨rfl, rfl⟩, nofun⟩
      · cases hTrue

/-- Nothing is done for a request that is not decoded to a message. -/
theorem returns_undecoded (hDecode : ∀ m, pb.decode request ≠ some (some m)) (output : Output) :
    Returns (pb.wpcProtoHandleRequest env dsapDataTxRequest request memory output) w
      (.invalidRequest, output) w := by
  rw [Nanopb.wpcProtoHandleRequest]
  rcases hNot : pb.decode request with - | - | m
  · rfl
  · rfl
  · exact absurd hNot (hDecode m)

theorem returns_handleRequest {m : WirepasMessage} (hDecode : pb.decode request = some (some m)) {t : World Gateway ν}
    {handled : AppProtoRes × Option ProtoResponse}
    (h : Returns (handleMessage env dsapDataTxRequest m memory) w handled t) (output : Output) :
    Returns (pb.wpcProtoHandleRequest env dsapDataTxRequest request memory output) w
      (pb.serialize output handled) t := by
  rw [Nanopb.wpcProtoHandleRequest, hDecode]
  exact returns_bind.mpr ⟨handled, t, h, returns_pure.mpr ⟨rfl, rfl⟩⟩

/-- A request that gets as far as its handler. -/
theorem honours_handled_iff {m : WirepasMessage} {r : ProtoRequest} (hDecode : pb.decode request = some (some m))
    (hRequest : m.request = some r) (hMalloc : (env.malloc w.node).1 = true) :
    Honours (pb.wpcProtoHandleRequest env dsapDataTxRequest request memory) size w ↔
      size = 0 ∨ AnswersRequest env dsapDataTxRequest pb request memory size w := by
  by_cases hReturns : ∃ answer t, Returns (r.handle env dsapDataTxRequest memory)
    { w with node := (env.malloc w.node).2 } answer t
  · obtain ⟨⟨res, resp⟩, t, hHandler⟩ := hReturns
    obtain rfl : res = .ok := handle_ok r _ _ _ hHandler
    rw [honours_serialize (returns_handleRequest hDecode (returns_handleMessage hMalloc hRequest hHandler))]
    refine or_congr_right ⟨fun hStatus => ⟨m, r, hDecode, hRequest, hMalloc, fun resp' t' hHandler' => ?_⟩, ?_⟩
    · obtain ⟨hSame, -⟩ := hHandler'.unique hHandler
      rw [(Prod.mk.inj hSame).2]
      exact hStatus
    · rintro ⟨m', r', hDecode', hRequest', -, hEncoded⟩
      obtain rfl := Option.some.inj (Option.some.inj (hDecode.symm.trans hDecode'))
      obtain rfl := Option.some.inj (hRequest.symm.trans hRequest')
      exact hEncoded resp t hHandler
  · refine iff_of_true (fun buffer res out t hCall => ?_)
      (.inr ⟨m, r, hDecode, hRequest, hMalloc, fun resp t hHandler => absurd ⟨_, t, hHandler⟩ hReturns⟩)
    rw [Nanopb.wpcProtoHandleRequest, hDecode] at hCall
    obtain ⟨handled, u, hMessage, -⟩ := returns_bind.mp hCall
    rw [handleMessage, hRequest] at hMessage
    obtain ⟨allocated, v, hAsk, hRest⟩ := returns_bind.mp hMessage
    obtain ⟨rfl, rfl⟩ := returns_ask.mp hAsk
    rw [if_pos hMalloc] at hRest
    obtain ⟨answer, t', hHandler, -⟩ := returns_bind.mp hRest
    exact absurd ⟨answer, t', hHandler⟩ hReturns

theorem honours_handleRequest_iff :
    Honours (pb.wpcProtoHandleRequest env dsapDataTxRequest request memory) size w ↔
      size = 0 ∨ AnswersRequest env dsapDataTxRequest pb request memory size w := by
  have hUntouched : ∀ (res : AppProtoRes) (t : World Gateway ν), res ≠ .ok →
      (∀ output, Returns (pb.wpcProtoHandleRequest env dsapDataTxRequest request memory output) w (res, output) t) →
        ¬ AnswersRequest env dsapDataTxRequest pb request memory size w →
          (Honours (pb.wpcProtoHandleRequest env dsapDataTxRequest request memory) size w ↔
            size = 0 ∨ AnswersRequest env dsapDataTxRequest pb request memory size w) := by
    intro res t hRes hReturns hNot
    rw [honours_untouched hRes hReturns, or_iff_left hNot]
  by_cases hDecoded : ∃ m, pb.decode request = some (some m)
  · obtain ⟨m, hDecode⟩ := hDecoded
    cases hRequest : m.request with
    | none =>
      have hMessage : Returns (handleMessage env dsapDataTxRequest m memory) w (.invalidRequest, none) w := by
        rw [handleMessage, hRequest]
        rfl
      refine hUntouched .invalidRequest w nofun (returns_handleRequest hDecode hMessage) ?_
      rintro ⟨m', r, hDecode', hSome, -⟩
      obtain rfl := Option.some.inj (Option.some.inj (hDecode.symm.trans hDecode'))
      rw [hRequest] at hSome
      cases hSome
    | some r =>
      cases hMalloc : (env.malloc w.node).1 with
      | true => exact honours_handled_iff hDecode hRequest hMalloc
      | false =>
        have hMessage : Returns (handleMessage env dsapDataTxRequest m memory) w (.notEnoughMemory, none)
            { w with node := (env.malloc w.node).2 } := by
          rw [handleMessage, hRequest]
          refine returns_bind.mpr ⟨false, _, returns_ask.mpr ⟨hMalloc.symm, rfl⟩, ?_⟩
          exact returns_pure.mpr ⟨rfl, rfl⟩
        refine hUntouched .notEnoughMemory _ nofun (returns_handleRequest hDecode hMessage) ?_
        rintro ⟨m', r', -, -, hAllocated, -⟩
        rw [hMalloc] at hAllocated
        cases hAllocated
  · have hUndecoded : ∀ m, pb.decode request ≠ some (some m) := fun m hDecode => hDecoded ⟨m, hDecode⟩
    refine hUntouched .invalidRequest w nofun (returns_undecoded hUndecoded) ?_
    rintro ⟨m, r, hDecode, -⟩
    exact hUndecoded m hDecode

theorem returns_eventStatus {gwOnline sinkOnline : Bool} (hMalloc : (env.malloc w.node).1 = true)
    {event : Raw.StatusEvent} {t : World Gateway ν}
    (h : Returns (fillStatusEvent env (if gwOnline then .on else .off) (if sinkOnline then 1 else 0))
      { w with node := (env.malloc w.node).2 } event t) (buffer : Memory UInt8) :
    Returns (pb.protoConfigGetCurrentEventStatus env gwOnline sinkOnline ⟨buffer, size⟩) w
      (if (pb.encode (.statusEvent event) size).1 then
        (.ok, ⟨buffer.write 0 (pb.encode (.statusEvent event) size).2,
          (pb.encode (.statusEvent event) size).2.length⟩)
      else (.cannotGenerateResponse, ⟨buffer.write 0 (pb.encode (.statusEvent event) size).2, 0⟩)) t := by
  refine returns_bind.mpr ⟨true, _, returns_ask.mpr ⟨hMalloc.symm, rfl⟩, ?_⟩
  exact returns_bind.mpr ⟨event, t, h, returns_pure.mpr ⟨rfl, rfl⟩⟩

theorem honours_eventStatus_iff {gwOnline sinkOnline : Bool} :
    Honours (pb.protoConfigGetCurrentEventStatus env gwOnline sinkOnline) size w ↔
      AnswersStatus env pb gwOnline sinkOnline size w := by
  cases hMalloc : (env.malloc w.node).1 with
  | false =>
    have hReturns : ∀ output, Returns (pb.protoConfigGetCurrentEventStatus env gwOnline sinkOnline output) w
        (.notEnoughMemory, output) { w with node := (env.malloc w.node).2 } := by
      intro output
      refine returns_bind.mpr ⟨false, _, returns_ask.mpr ⟨hMalloc.symm, rfl⟩, ?_⟩
      exact returns_pure.mpr ⟨rfl, rfl⟩
    have hError : AppProtoRes.notEnoughMemory ≠ .ok := nofun
    rw [honours_untouched hError hReturns]
    constructor
    · exact fun hSize => ⟨fun _ => hSize, fun hAllocated => nomatch hMalloc.symm.trans hAllocated⟩
    · exact fun hAnswers => hAnswers.1 hMalloc
  | true =>
    constructor
    · refine fun hHonours => ⟨fun hNone => (nomatch hMalloc.symm.trans hNone), fun _ event t hEvent => ?_⟩
      cases hStatus : (pb.encode (.statusEvent event) size).1 with
      | true => exact .inl rfl
      | false =>
        right
        by_contra hSome
        refine Memory.not_unchanged id 0 (List.length_pos_of_ne_nil hSome) fun buffer => ?_
        have hReturns : Returns (pb.protoConfigGetCurrentEventStatus env gwOnline sinkOnline ⟨buffer, size⟩) w _ t :=
          returns_eventStatus hMalloc hEvent buffer
        rw [hStatus] at hReturns
        exact congrFun ((hHonours buffer _ _ t hReturns).1 nofun).2 0
    · intro hAnswers buffer res out t hReturns
      obtain ⟨allocated, u, hAsk, hRest⟩ := returns_bind.mp hReturns
      obtain ⟨rfl, rfl⟩ := returns_ask.mp hAsk
      rw [if_pos hMalloc] at hRest
      obtain ⟨event, v, hEvent, -⟩ := returns_bind.mp hRest
      obtain ⟨hSame, -⟩ := hReturns.unique (returns_eventStatus hMalloc hEvent buffer)
      cases hStatus : (pb.encode (.statusEvent event) size).1 with
      | true =>
        rw [hStatus] at hSame
        obtain ⟨rfl, rfl⟩ := Prod.mk.inj hSame
        exact ⟨fun hError => absurd rfl hError, fun _ => ⟨pb.bounded _ _, _, rfl, rfl⟩⟩
      | false =>
        have hNothing : (pb.encode (.statusEvent event) size).2 = [] :=
          (hAnswers.2 hMalloc event v hEvent).resolve_left (by rw [hStatus]; decide)
        rw [hStatus, hNothing, Memory.write_nil] at hSame
        obtain ⟨rfl, rfl⟩ := Prod.mk.inj hSame
        exact ⟨fun _ => ⟨rfl, rfl⟩, nofun⟩

end Contract

/-- Both calls keep what is promised just if they do not fail, or fail where the outputs are left as
they have to be. -/
theorem honours_iff {ν : Type} (env : Environment ν) (dsapDataTxRequest : UInt8 → Dsap.DataTx → ν → Int × ν)
    (pb : Nanopb) (request : List UInt8) (memory : ResponseMemory) (gwOnline sinkOnline : Bool) (size : Nat)
    (w : World Gateway ν) :
    (Honours (pb.wpcProtoHandleRequest env dsapDataTxRequest request memory) size w ↔
        size = 0 ∨ AnswersRequest env dsapDataTxRequest pb request memory size w) ∧
      (Honours (pb.protoConfigGetCurrentEventStatus env gwOnline sinkOnline) size w ↔
        AnswersStatus env pb gwOnline sinkOnline size w) :=
  ⟨honours_handleRequest_iff, honours_eventStatus_iff⟩

/-- Of requests it decodes the empty one, which has no `wp_WirepasMessage`, and it encodes into any
buffer that is large enough. -/
def emptyOnly : Nanopb where
  decode request := if request = [] then some none else none
  encode message size :=
    match pbEncode size (match message with
      | .response resp => genericMessage resp.number resp.fields
      | .statusEvent event => genericMessage 1 event.fields) with
    | some encoded => (true, encoded)
    | none => (false, [])
  bounded message size := by
    split
    · next hEncoded =>
      obtain ⟨fields, -, hFits⟩ := Option.bind_eq_some_iff.mp hEncoded
      obtain ⟨hLe, hSame⟩ := Option.ite_none_right_eq_some.mp hFits
      obtain rfl := Option.some.inj hSame
      exact hLe
    · exact Nat.zero_le size

/-- The empty request is refused, and the size stays that of the buffer. -/
theorem emptyRequest_keeps_size :
    ¬ ∀ (pb : Nanopb) (request : List UInt8) (size : Nat),
      Honours (pb.wpcProtoHandleRequest silentNode (fun _ _ n => (-1, n)) request (someMemory 0 false)) size
        ⟨⟨60, 102⟩, .initialized .zero, ()⟩ := by
  intro h
  obtain ⟨hFailed, -⟩ := h emptyOnly [] 1024 (fun _ => 0) .invalidRequest ⟨fun _ => 0, 1024⟩
    ⟨⟨60, 102⟩, .initialized .zero, ()⟩ rfl
  exact absurd (hFailed nofun).1 (by decide)

end CMeshApi.Proto
