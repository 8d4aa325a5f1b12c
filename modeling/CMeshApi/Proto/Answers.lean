import CMeshApi.Foundations.WireReading
import CMeshApi.Proto.Frames
import CMeshApi.Proto.Requests
import CMeshApi.Proto.Unfilled

/-!
# What the other side reads

The bytes that `WPC_Proto_handle_request` returns, read back as a `wp_GenericMessage`: which
request they answer, and what the header says.
-/

namespace CMeshApi.Proto

open Programs Wpc Wire

/-- The response of a message, by its tag in `wp_WirepasMessage`, with its header. -/
structure Answer where
  tag : Nat
  reqId : Nat
  gwId : List UInt8
  sinkId : Option (List UInt8)
  res : Nat
  timeMsEpoch : Option Nat
deriving DecidableEq, Repr

def readAnswer (input : List UInt8) : Option Answer := do
  let generic ← read input
  let wirepas ← message? 1 generic
  let field ← wirepas.head?
  let body ← message? field.number wirepas
  let header ← message? 1 body
  return {
    tag := field.number
    reqId := ← number? 1 header
    gwId := ← bytes? 2 header
    sinkId := bytes? 3 header
    res := ← number? 4 header
    timeMsEpoch := number? 5 header }

/-- The tag of the request in `wp_WirepasMessage`. -/
def ProtoRequest.tag : ProtoRequest → Nat
  | .getConfigs _ => 2
  | .setConfig _ => 4
  | .sendPacket _ => 6
  | .getScratchpadStatus _ => 9
  | .uploadScratchpad _ => 11
  | .processScratchpad _ => 13
  | .getGatewayInfo _ => 15
  | .setScratchpadTargetAndAction _ => 17

def ProtoRequest.header : ProtoRequest → RequestHeader
  | .getConfigs req => req.header
  | .setConfig req => req.header
  | .sendPacket req => req.header
  | .getScratchpadStatus req => req.header
  | .uploadScratchpad req => req.header
  | .processScratchpad req => req.header
  | .getGatewayInfo req => req.header
  | .setScratchpadTargetAndAction req => req.header

def ProtoResponse.header : ProtoResponse → Raw.ResponseHeader
  | .getConfigs resp => resp.header
  | .setConfig resp => resp.header
  | .sendPacket resp => resp.header
  | .getScratchpadStatus resp => resp.header
  | .uploadScratchpad resp => resp.header
  | .processScratchpad resp => resp.header
  | .getGatewayInfo resp => resp.header
  | .setScratchpadTargetAndAction resp => resp.header

/-- An enumeration as it is written. -/
def enumNumber (v : UInt32) : Nat := if v.toNat < 2 ^ 31 then v.toNat else 2 ^ 64 - 2 ^ 32 + v.toNat

/-- The answer to a request, with the result and the time that its header tells. -/
def answerTo (ids : Ids) (request : ProtoRequest) (res : ErrorCode) (timeMsEpoch : UInt64) : Answer where
  tag := request.tag + 1
  reqId := request.header.reqId.toNat
  gwId := ids.gatewayId.chars
  sinkId := if ids.sinkId.chars.isEmpty then none else some ids.sinkId.chars
  res := enumNumber res.value
  timeMsEpoch := some timeMsEpoch.toNat

theorem concat_cons {part : Encoding} {parts : List Encoding} {fields : List Field}
    (h : concat (part :: parts) = some fields) :
    ∃ first rest, part = some first ∧ concat parts = some rest ∧ fields = first ++ rest := by
  obtain ⟨first, hFirst, hRest⟩ := Option.bind_eq_some_iff.mp h
  obtain ⟨rest, hParts, rfl⟩ := Option.map_eq_some_iff.mp hRest
  exact ⟨first, rest, hFirst, hParts, rfl⟩

/-- All that the part writes are fields of the number. -/
def Numbered (number : Nat) (part : Encoding) : Prop := ∀ fields, part = some fields → ∀ f ∈ fields, f.number = number

theorem numbered_one {number : Nat} {f : Field} (h : f.number = number) : Numbered number (some [f]) := by
  rintro _ ⟨⟩ f' hf'
  rw [List.mem_singleton.mp hf']
  exact h

theorem numbered_optional {number : Nat} {present : Bool} {part : Encoding} (h : Numbered number part) :
    Numbered number (optional present part) := by
  cases present with
  | true => exact h
  | false => rintro _ ⟨⟩ _ ⟨⟩

theorem numbered_message (number : Nat) (part : Encoding) : Numbered number (message number part) := by
  intro fields hFields
  obtain ⟨inner, -, rfl⟩ := Option.map_eq_some_iff.mp hFields
  exact numbered_one rfl _ rfl

theorem numbered_concat {number : Nat} {parts : List Encoding} (h : ∀ part ∈ parts, Numbered number part) :
    Numbered number (concat parts) := by
  induction parts with
  | nil => rintro _ ⟨⟩ _ ⟨⟩
  | cons part parts ih =>
    intro fields hFields f hf
    obtain ⟨first, rest, hFirst, hRest, rfl⟩ := concat_cons hFields
    obtain hf | hf := List.mem_append.mp hf
    · exact h part List.mem_cons_self first hFirst f hf
    · exact ih (fun part' hPart => h part' (List.mem_cons_of_mem _ hPart)) rest hRest f hf

theorem numbered_repeatedMessage {α : Type} {n : Nat} (number : Nat) (count : UInt16) (items : CArray α n)
    (fields : α → Encoding) : Numbered number (repeatedMessage number count items fields) := by
  unfold repeatedMessage
  split
  · apply numbered_concat
    intro part hPart
    obtain ⟨item, -, rfl⟩ := List.mem_map.mp hPart
    exact numbered_message number _
  · rintro _ ⟨⟩

theorem lookup_none_of_numbered {number other : Nat} {part : Encoding} {fields : List Field}
    (hNumbered : Numbered other part) (hOther : other ≠ number) (hFields : part = some fields) :
    lookup number fields = none :=
  lookup_of_not_mem fun f hf => hNumbered fields hFields f hf ▸ hOther

/-- Parts that are all of other numbers. -/
theorem concat_avoids {number : Nat} {parts : List Encoding} {fields : List Field}
    (h : ∀ part ∈ parts, ∃ other, other ≠ number ∧ Numbered other part) (hFields : concat parts = some fields) :
    lookup number fields = none := by
  induction parts generalizing fields with
  | nil =>
    cases hFields
    rfl
  | cons part parts ih =>
    obtain ⟨first, rest, hFirst, hRest, rfl⟩ := concat_cons hFields
    obtain ⟨other, hOther, hNumbered⟩ := h part List.mem_cons_self
    rw [lookup_append, ih (fun part' hPart => h part' (List.mem_cons_of_mem _ hPart)) hRest,
      lookup_none_of_numbered hNumbered hOther hFirst]
    rfl

/-- The parts of a response after its header. -/
def ProtoResponse.parts : ProtoResponse → List Encoding
  | .getConfigs resp => [repeatedMessage 2 resp.configsCount resp.configs Raw.SinkReadConfig.fields]
  | .setConfig resp => [message 2 resp.config.fields]
  | .getScratchpadStatus resp =>
    [optional resp.hasStoredScratchpad (message 2 resp.storedScratchpad.fields),
      optional resp.hasStoredStatus (uint32 3 resp.storedStatus),
      optional resp.hasStoredType (uint32 4 resp.storedType),
      optional resp.hasProcessedScratchpad (message 5 resp.processedScratchpad.fields),
      optional resp.hasFirmwareAreaId (uint32 6 resp.firmwareAreaId),
      optional resp.hasTargetAndAction (message 7 resp.targetAndAction.fields)]
  | .getGatewayInfo resp => [message 2 resp.info.fields]
  | _ => []

theorem ProtoResponse.fields_eq (resp : ProtoResponse) :
    resp.fields = concat (message 1 resp.header.fields :: resp.parts) := by
  cases resp <;> rfl

theorem ProtoResponse.parts_numbered (resp : ProtoResponse) :
    ∀ part ∈ resp.parts, ∃ other, other ≠ 1 ∧ Numbered other part := by
  cases resp with
  | getConfigs resp =>
    simp only [ProtoResponse.parts, List.forall_mem_singleton]
    exact ⟨2, by decide, numbered_repeatedMessage _ _ _ _⟩
  | setConfig resp =>
    simp only [ProtoResponse.parts, List.forall_mem_singleton]
    exact ⟨2, by decide, numbered_message _ _⟩
  | getScratchpadStatus resp =>
    simp only [ProtoResponse.parts, List.forall_mem_cons]
    exact ⟨⟨2, by decide, numbered_optional (numbered_message _ _)⟩,
      ⟨3, by decide, numbered_optional (numbered_one rfl)⟩,
      ⟨4, by decide, numbered_optional (numbered_one rfl)⟩,
      ⟨5, by decide, numbered_optional (numbered_message _ _)⟩,
      ⟨6, by decide, numbered_optional (numbered_one rfl)⟩,
      ⟨7, by decide, numbered_optional (numbered_message _ _)⟩, by rintro _ ⟨⟩⟩
  | getGatewayInfo resp =>
    simp only [ProtoResponse.parts, List.forall_mem_singleton]
    exact ⟨2, by decide, numbered_message _ _⟩
  | _ => rintro _ ⟨⟩

/-- Each response has its header, and nothing else of its number. -/
theorem ProtoResponse.fields_header {resp : ProtoResponse} {fields : List Field}
    (h : resp.fields = some fields) :
    ∃ header, resp.header.fields = some header ∧
      lookup 1 fields = some (.lengthDelimited (encode header)) := by
  rw [resp.fields_eq] at h
  obtain ⟨first, rest, hFirst, hRest, rfl⟩ := concat_cons h
  obtain ⟨header, hHeader, rfl⟩ := Option.map_eq_some_iff.mp hFirst
  refine ⟨header, hHeader, ?_⟩
  rw [lookup_append, concat_avoids resp.parts_numbered hRest]
  rfl

def headerFields (ids : Ids) (reqId : UInt64) (res : ErrorCode) (timeMsEpoch : UInt64) : List Field :=
  [uint 1 reqId.toNat, bytes 2 ids.gatewayId.chars] ++
    Field.optional (!ids.sinkId.chars.isEmpty) (bytes 3 ids.sinkId.chars) ++
    [uint 4 (enumNumber res.value), uint 5 timeMsEpoch.toNat]

theorem commonFillResponseHeader_eq (ids : Ids) (reqId : UInt64) (res : ErrorCode) (timeMsEpoch : UInt64) :
    (commonFillResponseHeader ids timeMsEpoch reqId res).fields =
      some (headerFields ids reqId res timeMsEpoch) := by
  have hGateway : string 2 (strncpy (fun _ => 0) ids.gatewayId.chars gatewayIdMaxSize) =
      some [bytes 2 ids.gatewayId.chars] := string_strncpy 2 _ ids.gatewayId
  have hSink : string 3 (strncpy (fun _ => 0) ids.sinkId.chars sinkIdMaxSize) =
      some [bytes 3 ids.sinkId.chars] := string_strncpy 3 _ ids.sinkId
  unfold Raw.ResponseHeader.fields commonFillResponseHeader headerFields
  simp only [hGateway]
  cases ids.sinkId.chars.isEmpty with
  | true => rfl
  | false =>
    simp only [Bool.not_false, hSink]
    rfl

section Header

variable (ids : Ids) (reqId : UInt64) (res : ErrorCode) (timeMsEpoch : UInt64)

@[simp] theorem headerFields_reqId :
    number? 1 (headerFields ids reqId res timeMsEpoch) = some reqId.toNat := by
  simp [number?, headerFields, lookup, uint, bytes, Value.number]

@[simp] theorem headerFields_gwId :
    bytes? 2 (headerFields ids reqId res timeMsEpoch) = some ids.gatewayId.chars := by
  simp [bytes?, headerFields, lookup, uint, bytes, Value.content]

@[simp] theorem headerFields_sinkId : bytes? 3 (headerFields ids reqId res timeMsEpoch) =
    if ids.sinkId.chars.isEmpty then none else some ids.sinkId.chars := by
  cases hEmpty : ids.sinkId.chars.isEmpty <;>
    simp [bytes?, headerFields, lookup, uint, bytes, Value.content, hEmpty]

@[simp] theorem headerFields_res :
    number? 4 (headerFields ids reqId res timeMsEpoch) = some (enumNumber res.value) := by
  simp [number?, headerFields, lookup, uint, bytes, Value.number]

@[simp] theorem headerFields_timeMsEpoch :
    number? 5 (headerFields ids reqId res timeMsEpoch) = some timeMsEpoch.toNat := by
  simp [number?, headerFields, lookup, uint, bytes, Value.number]

end Header

theorem readAnswer_encode {resp : ProtoResponse} {fields : List Field} {ids : Ids} {request : ProtoRequest}
    {res : ErrorCode} {timeMsEpoch : UInt64} (hFields : resp.fields = some fields)
    (hTag : resp.number = request.tag + 1)
    (hHeader : resp.header = commonFillResponseHeader ids timeMsEpoch request.header.reqId res) :
    readAnswer (encode [submessage 1 [submessage resp.number fields]]) =
      some (answerTo ids request res timeMsEpoch) := by
  obtain ⟨header, hWritten, hLookup⟩ := resp.fields_header hFields
  rw [hHeader, commonFillResponseHeader_eq] at hWritten
  obtain rfl := Option.some.inj hWritten
  have hMember : message? 1 fields = some (headerFields ids request.header.reqId res timeMsEpoch) := by
    rw [message?, bytes?, hLookup]
    exact read_encode _
  have hNumber : (submessage resp.number fields).number = request.tag + 1 := hTag
  simp only [readAnswer, read_encode, message?_submessage, List.head?_cons, Option.bind_eq_bind,
    Option.bind_some]
  rw [show message? (submessage resp.number fields).number [submessage resp.number fields] = some fields from
    message?_submessage resp.number fields]
  simp only [Option.bind_some, hMember, headerFields_reqId, headerFields_gwId, headerFields_sinkId,
    headerFields_res, headerFields_timeMsEpoch, hNumber]
  rfl

section Handlers

variable {ν α β : Type} {env : Environment ν} {dsapDataTxRequest : UInt8 → Dsap.DataTx → ν → Int × ν}

def SameIds (w t : World Gateway ν) : Prop := t.gateway.ids = w.gateway.ids

theorem handles_sameIds (env : Environment ν) : Handles env SameIds where
  toRefreshes := refreshes_gateway (x := Gateway.ids) (fun _ _ => rfl) fun _ _ => rfl
  sends _ _ _ := rfl
  currentSeq _ _ := rfl
  restart _ _ := rfl

/-- Where the identifiers are these, what the program returns has a header for the request, with a time
that the clock has told. -/
def Heads (env : Environment ν) (ids : Ids) (req : RequestHeader) (header : α → Raw.ResponseHeader) (p : Call Gateway ν α) : Prop :=
  ∀ w a t, w.gateway.ids = ids → Returns p w a t →
    ∃ n res, header a = commonFillResponseHeader ids (.ofNat (env.timestampMsEpoch n).1) req.reqId res

theorem heads_bind {ids : Ids} {req : RequestHeader} {header : β → Raw.ResponseHeader} {p : Call Gateway ν α}
    {f : α → Call Gateway ν β} (hp : Moves SameIds p) (hf : ∀ a, Heads env ids req header (f a)) :
    Heads env ids req header (p >>= f) := by
  intro w b u hIds hReturns
  obtain ⟨a, t, hFirst, hRest⟩ := returns_bind.mp hReturns
  exact hf a t b u ((hp.returns hFirst).trans hIds) hRest

theorem heads_fill {ids : Ids} {req : RequestHeader} {header : β → Raw.ResponseHeader} {res : ErrorCode}
    {f : Raw.ResponseHeader → Call Gateway ν β} (hf : ∀ filled, Yields (f filled) fun b => header b = filled) :
    Heads env ids req header (fillResponseHeader env req res >>= f) := by
  intro w b u hIds hReturns
  obtain ⟨filled, t, hFill, hRest⟩ := returns_bind.mp hReturns
  obtain ⟨now, v, hNow, hFilled⟩ := returns_bind.mp hFill
  obtain ⟨rfl, rfl⟩ := returns_ask.mp hNow
  obtain ⟨g, v, hRead, hPure⟩ := returns_bind.mp hFilled
  obtain ⟨rfl, rfl⟩ := returns_read.mp hRead
  obtain ⟨rfl, -⟩ := returns_pure.mp hPure
  refine ⟨w.node, res, ?_⟩
  rw [hf _ _ _ _ hRest, ← hIds]

theorem heads_then {ids : Ids} {req : RequestHeader} (header : α → Raw.ResponseHeader)
    {header' : β → Raw.ResponseHeader} {p : Call Gateway ν α} {f : α → Call Gateway ν β}
    (h : Heads env ids req header p) (hf : ∀ a, Yields (f a) fun b => header' b = header a) :
    Heads env ids req header' (p >>= f) := by
  intro w b u hIds hReturns
  obtain ⟨a, t, hFirst, hRest⟩ := returns_bind.mp hReturns
  rw [hf a t b u hRest]
  exact h w a t hIds hFirst

theorem moves_applyConfig (cfg : SinkNewConfig) : Moves SameIds (applyConfig env cfg) := by
  have h := handles_sameIds env
  have hr := h.asks.composes
  apply Moves.bind hr
  · exact Reading.getValueFromNode h.asks (h.asks.readAttribute _ _ _ _) fun _ _ => rfl
  intro _
  apply Moves.bind hr (moves_gateway hr)
  intro g
  apply Moves.bind hr
  · exact Moves.ite (Reading.stopForConfig h.asks (fun _ => rfl) (fun _ => rfl) (fun _ => rfl) _) (.pure hr _)
  intro p
  apply Moves.bind hr
  · exact h.setFields (fun _ _ => rfl) (fun _ _ _ _ => rfl) (fun _ _ _ _ => rfl) _ p
  intro p
  apply Moves.bind hr
  · exact Moves.ite (h.restartForConfig (fun _ => rfl) (fun _ => rfl) p) (.pure hr _)
  intro p
  apply Moves.bind hr
  · exact Moves.ite (h.onStackStatusReceived _) (.pure hr _)
  · exact fun _ => .pure hr _

/-- Whatever a handler does before, it fills a header for its request. -/
theorem handle_heads (ids : Ids) (memory : ResponseMemory) (request : ProtoRequest) :
    Heads env ids request.header (fun answer => answer.2.header)
      (request.handle env dsapDataTxRequest memory) := by
  have h := handles_sameIds env
  have hr := h.asks.composes
  cases request with
  | getConfigs req =>
    refine heads_then (fun answer => answer.2.header) ?_ fun _ => .pure rfl
    apply heads_bind
    · exact Reading.getValueFromNode h.asks (h.asks.readAttribute _ _ _ _) fun _ _ => rfl
    · exact fun _ => heads_fill fun _ => .last fun _ => .pure rfl
  | setConfig req =>
    refine heads_then (fun answer => answer.2.header) ?_ fun _ => .pure rfl
    apply heads_bind (moves_gateway hr)
    intro g
    split
    · exact heads_fill fun _ => .pure rfl
    · apply heads_bind (moves_applyConfig _)
      exact fun _ => heads_fill fun _ => .last fun _ => .pure rfl
  | sendPacket req =>
    refine heads_then (fun answer => answer.2.header) ?_ fun _ => .pure rfl
    apply heads_bind
    · apply Moves.ite (.pure hr _)
      apply Moves.bind hr (.read hr _)
      intro mtu
      apply Moves.bind hr
      · exact fun _ => rfl
      · exact fun _ => .pure hr _
    · exact fun _ => heads_fill fun _ => .pure rfl
  | getScratchpadStatus req =>
    refine heads_then (fun answer => answer.2.header) ?_ fun _ => .pure rfl
    apply heads_bind (moves_gateway hr)
    exact fun _ => heads_fill fun _ => .pure rfl
  | uploadScratchpad req =>
    refine heads_then (fun answer => answer.2.header) ?_ fun _ => .pure rfl
    apply heads_bind
    · apply Moves.ite (.pure hr _)
      apply Moves.bind hr (h.stopIfRunning (fun _ => rfl) fun _ => rfl)
      exact fun stopped => h.uploadStopped req stopped
    · exact fun _ => heads_fill fun _ => .pure rfl
  | processScratchpad req =>
    refine heads_then (fun answer => answer.2.header) ?_ fun _ => .pure rfl
    apply heads_bind
    · apply Moves.bind hr (h.stopIfRunning (fun _ => rfl) fun _ => rfl)
      exact fun restart => h.processStopped restart
    · exact fun _ => heads_fill fun _ => .pure rfl
  | getGatewayInfo req =>
    refine heads_then (fun answer => answer.2.header) ?_ fun _ => .pure rfl
    exact heads_fill fun _ => .last fun _ => .last fun _ => .pure rfl
  | setScratchpadTargetAndAction req =>
    refine heads_then (fun answer => answer.2.header) ?_ fun _ => .pure rfl
    apply heads_bind (moves_gateway hr)
    intro g
    apply heads_bind
    · unfold writeTarget
      split
      · exact h.asks.converted (fun _ => rfl) _
      · exact .pure hr _
    intro res
    apply heads_bind (h.onStackStatusReceived _)
    exact fun _ => heads_fill fun _ => .pure rfl

theorem handle_number (memory : ResponseMemory) (request : ProtoRequest) :
    Yields (request.handle env dsapDataTxRequest memory) fun answer =>
      answer.2.number = request.tag + 1 := by
  cases request <;> exact .last fun _ => .pure rfl

/-- What the calls do that return a message. -/
theorem returns_message {m : WirepasMessage} {memory : ResponseMemory} {size : Nat} {w t : World Gateway ν}
    {encoded : List UInt8}
    (h : Returns (wpcProtoHandleRequest env dsapDataTxRequest m memory size) w (.ok, encoded) t) :
    ∃ request resp fields, m.request = some request ∧
      Returns (request.handle env dsapDataTxRequest memory) { w with node := (env.malloc w.node).2 }
        (.ok, resp) t ∧ resp.fields = some fields ∧
        encoded = encode [submessage 1 [submessage resp.number fields]] ∧ encoded.length ≤ size := by
  obtain ⟨⟨res, resp⟩, u, hHandled, hPure⟩ := returns_bind.mp h
  obtain ⟨hEncoded, rfl⟩ := returns_pure.mp hPure
  unfold handleMessage at hHandled
  cases hRequest : m.request with
  | none =>
    rw [hRequest] at hHandled
    obtain ⟨hSame, -⟩ := returns_pure.mp hHandled
    cases hSame
    cases hEncoded
  | some request =>
    rw [hRequest] at hHandled
    obtain ⟨allocated, v, hAsk, hRest⟩ := returns_bind.mp hHandled
    obtain ⟨-, rfl⟩ := returns_ask.mp hAsk
    obtain ⟨-, hRest⟩ | ⟨-, hNone⟩ := returns_ite.mp hRest
    · obtain ⟨⟨res', resp'⟩, v, hHandler, hPure⟩ := returns_bind.mp hRest
      obtain ⟨hSame, rfl⟩ := returns_pure.mp hPure
      cases hSame
      cases res with
      | ok =>
        rw [encodeResponse] at hEncoded
        split at hEncoded
        · next bytes hBytes =>
          cases hEncoded
          obtain ⟨generic, hGeneric, hFits⟩ := Option.bind_eq_some_iff.mp hBytes
          obtain ⟨hLength, hSame⟩ := Option.ite_none_right_eq_some.mp hFits
          cases hSame
          obtain ⟨wirepas, hWirepas, rfl⟩ := Option.map_eq_some_iff.mp hGeneric
          obtain ⟨fields, hFields, rfl⟩ := Option.map_eq_some_iff.mp hWirepas
          exact ⟨request, resp', fields, rfl, hHandler, hFields, rfl, hLength⟩
        · cases hEncoded
      | _ => cases hEncoded
    · obtain ⟨hSame, -⟩ := returns_pure.mp hNone
      cases hSame
      cases hEncoded

/-- Whatever request is handled in whatever state, a message that is returned fits the buffer and is
read as the response to this request, with its identifier, those of the gateway, a result and a time
that the clock has told. -/
theorem answer_matches_request {m : WirepasMessage} {memory : ResponseMemory} {size : Nat}
    {w t : World Gateway ν} {encoded : List UInt8}
    (h : Returns (wpcProtoHandleRequest env dsapDataTxRequest m memory size) w (.ok, encoded) t) :
    encoded.length ≤ size ∧ ∃ request res n, m.request = some request ∧
      readAnswer encoded =
        some (answerTo w.gateway.ids request res (.ofNat (env.timestampMsEpoch n).1)) := by
  obtain ⟨request, resp, fields, hRequest, hHandler, hFields, rfl, hLength⟩ := returns_message h
  have hIds : ({ w with node := (env.malloc w.node).2 } : World Gateway ν).gateway.ids = w.gateway.ids := rfl
  obtain ⟨n, res, hHeader⟩ := handle_heads w.gateway.ids memory request _ _ t hIds hHandler
  have hTag : resp.number = request.tag + 1 := handle_number memory request _ _ t hHandler
  exact ⟨hLength, request, res, n, hRequest, readAnswer_encode hFields hTag hHeader⟩

end Handlers

theorem encodeResponse_of_fits {resp : ProtoResponse} {fields : List Field} {size : Nat}
    (hFields : resp.fields = some fields)
    (hLength : (encode [submessage 1 [submessage resp.number fields]]).length ≤ size) :
    encodeResponse size (.ok, some resp) = (.ok, encode [submessage 1 [submessage resp.number fields]]) := by
  have hEncoded : pbEncode size (genericMessage resp.number resp.fields) =
      some (encode [submessage 1 [submessage resp.number fields]]) := by
    rw [hFields]
    exact if_pos hLength
  rw [encodeResponse, hEncoded]

/-- A request for an address to which nothing can be sent. -/
def sendMessage : WirepasMessage :=
  ⟨none, none, some ⟨⟨5⟩, 1, 2, 3, 0, [0xAA]⟩, none, none, none, none, none⟩

theorem answer_matches_request_sendMessage :
    ∃ encoded t, Returns (wpcProtoHandleRequest silentNode (fun _ _ n => (5, n)) sendMessage
        (someMemory 0 false) 100) ⟨⟨60, 102⟩, .initialized .zero, ()⟩ (.ok, encoded) t ∧
      encoded.length ≤ 100 ∧ ∃ request res n, sendMessage.request = some request ∧
        readAnswer encoded = some (answerTo (commonInit [0x67] [] [] [0x73]) request res
          (.ofNat (silentNode.timestampMsEpoch n).1)) := by
  let w : World Gateway Unit := ⟨⟨60, 102⟩, .initialized .zero, ()⟩
  let ids := commonInit [0x67] [] [] [0x73]
  let resp := ProtoResponse.sendPacket ⟨commonFillResponseHeader ids 0 5 .invalidDestAddress⟩
  let fields := [submessage 1 (headerFields ids 5 .invalidDestAddress 0)]
  have hFields : resp.fields = some fields := by
    rw [ProtoResponse.fields_eq]
    change concat [message 1 (commonFillResponseHeader ids 0 5 .invalidDestAddress).fields] = _
    rw [commonFillResponseHeader_eq]
    rfl
  have hLength : (encode [submessage 1 [submessage 7 fields]]).length ≤ 100 := by
    have hIds : ids.gatewayId.chars.length = 1 ∧ ids.sinkId.chars.length = 1 ∧
        ids.sinkId.chars.isEmpty = false := by decide
    have hHeader : (encode (headerFields ids 5 .invalidDestAddress 0)).length = 12 := by
      simp [headerFields, length_encode_uint, length_encode_bytes, Field.optional, hIds, width_small,
        show enumNumber ErrorCode.invalidDestAddress.value = 10 from rfl]
    have hBody : (encode fields).length = 14 := by
      simp [fields, length_encode_submessage, hHeader, width_small]
    simp [length_encode_submessage, hBody, width_small]
  have hHandled : Returns (handleMessage silentNode (fun _ _ n => (5, n)) sendMessage (someMemory 0 false))
      w (.ok, some resp) w := rfl
  have hReturns : Returns (wpcProtoHandleRequest silentNode (fun _ _ n => (5, n)) sendMessage
      (someMemory 0 false) 100) w (.ok, encode [submessage 1 [submessage 7 fields]]) w := by
    refine returns_bind.mpr ⟨_, _, hHandled, returns_pure.mpr ⟨?_, rfl⟩⟩
    exact (encodeResponse_of_fits hFields hLength).symm
  exact ⟨_, _, hReturns, answer_matches_request hReturns⟩

end CMeshApi.Proto
