import CMeshApi.Foundations.Registers
import CMeshApi.Wpc.Confirms

/-!
# Config data items

The functions of `wpc.c` that set, get and list config data items, with their requests in
`msap.c`. The items are registers of the node, one for each endpoint.
-/

namespace CMeshApi.Wpc

open Programs Machine Memory Registers

inductive ItemPayload where
  | set (endpoint : UInt16) (payloadLength : UInt8) (payload : List UInt8)
  | get (endpoint : UInt16)
  | listItems (command : UInt8)
deriving DecidableEq, Repr

structure ItemRequest where
  primitiveId : UInt8
  payloadLength : UInt8
  payload : ItemPayload
deriving DecidableEq, Repr

def maximumCdcItemListByteCount : Nat := 32

/-- The payload of the frame is cut behind the bytes of the item. -/
def itemSet (endpoint : UInt16) (payload : Memory UInt8) (payloadSize : UInt8) : ItemRequest :=
  ⟨0x29, 3 + payloadSize, .set endpoint payloadSize (payload.read 0 payloadSize.toNat)⟩

def itemGet (endpoint : UInt16) : ItemRequest := ⟨0x30, 2, .get endpoint⟩

def itemListItems (command : UInt8) : ItemRequest := ⟨0x32, 1, .listItems command⟩

/-- What is behind `WPC_Int_send_request`: its result with the bytes of the confirm, and what the
frame of the caller, to which these are copied, holds before. -/
structure ItemNode (ν : Type) where
  send : ItemRequest → ν → (Int × List UInt8) × ν
  frame : ν → Memory UInt8

section Functions

variable {γ ν : Type} (node : ItemNode ν)

def ItemNode.wpcIntSendRequest (request : ItemRequest) : Call γ ν (Int × Memory UInt8) :=
  ask fun n =>
    (((node.send request n).1.1, Confirm.copyConfirm (node.frame n) (node.send request n).1.2),
      (node.send request n).2)

def msapConfigDataItemSetRequest (endpoint : UInt16) (payload : Memory UInt8) (payloadSize : UInt8) :
    Call γ ν Int := do
  if Confirm.maximumCdcItemPayloadSize < payloadSize.toNat then return wpcIntWrongParamError
  let (res, confirm) ← node.wpcIntSendRequest (itemSet endpoint payload payloadSize)
  if res < 0 then return res
  return ((confirm 3).toNat : Int)

/-- The result, and the bytes that are stored through the pointer. -/
def msapConfigDataItemGetRequest (endpoint : UInt16) (payloadCapacity : Nat) :
    Call γ ν (Int × List UInt8) := do
  let (res, confirm) ← node.wpcIntSendRequest (itemGet endpoint)
  if res < 0 then return (res, [])
  match Confirm.msapConfigDataItemGetRequest payloadCapacity confirm with
  | some answer => return answer
  | none => .unfinished

/-- The response is zero where the confirm is not copied to it. -/
def msapConfigDataItemListItemsRequest (command : UInt8) : Call γ ν (Int × Memory UInt8) := do
  let (res, confirm) ← node.wpcIntSendRequest (itemListItems command)
  if res < 0 then return (res, fun _ => 0)
  if confirm 3 = 0 then
    return ((confirm 3).toNat, Memory.write (fun _ => 0) 0 (confirm.read 3 (2 + maximumCdcItemListByteCount)))
  return ((confirm 3).toNat, fun _ => 0)

def cdcItemSetErrorCodeLut : List AppRes :=
  [.ok, .nodeNotASink, .invalidValue, .outOfMemory, .dataError, .operationNotSupported]

def cdcItemGetErrorCodeLut : List AppRes := [.ok, .invalidValue, .operationNotSupported]

def cdcGetItemListErrorCodeLut : List AppRes := [.ok, .operationNotSupported]

def wpcSetConfigDataItem (endpoint : UInt16) (payload : Memory UInt8) (size : UInt8) : Call γ ν AppRes := do
  let res ← msapConfigDataItemSetRequest node endpoint payload size
  return convertErrorCode cdcItemSetErrorCodeLut res

def wpcGetConfigDataItem (endpoint : UInt16) (payloadCapacity : Nat) :
    Call γ ν (Except AppRes (List UInt8)) := do
  let (res, payload) ← msapConfigDataItemGetRequest node endpoint payloadCapacity
  match convertErrorCode cdcItemGetErrorCodeLut res with
  | .ok => return .ok payload
  | error => return .error error

/-- The capacity is compared with the bytes of the list. -/
def wpcGetConfigDataItemList (endpointsCapacity : Nat) : Call γ ν (Except AppRes (List UInt16)) := do
  let (res, response) ← msapConfigDataItemListItemsRequest node 0
  if res < 0 then return .error .internalError
  match convertErrorCode cdcGetItemListErrorCodeLut res with
  | .ok =>
    let amountEndpoints := (response 1).toNat
    if endpointsCapacity < amountEndpoints * 2 then return .error .internalError
    if maximumCdcItemListByteCount < amountEndpoints * 2 then return .error .internalError
    return .ok ((List.range amountEndpoints).map fun i => uint16DecodeLe (response.read (2 + 2 * i : Nat) 2))
  | error => return .error error

end Functions

abbrev ItemCells := Cells UInt16 UInt8

def items : Layout UInt16 UInt16 UInt8 fun _ => List UInt8 := ⟨id, fun _ => some⟩

theorem view_items (cells : ItemCells) (endpoint : UInt16) : items.view cells endpoint = cells endpoint :=
  Option.bind_fun_some (cells endpoint)

inductive ItemCall where
  | set (endpoint : UInt16) (payload : Memory UInt8) (size : UInt8)
  | get (endpoint : UInt16) (payloadCapacity : Nat)
  | list (endpointsCapacity : Nat)

namespace ItemCall

variable {γ ν : Type} (node : ItemNode ν)

/-- An internal error may stand for an answer that was lost. -/
def entryOf (endpoint : UInt16) (payload : List UInt8) : AppRes → Entry fun _ : UInt16 => List UInt8
  | .ok => .stored endpoint payload
  | .internalError => .unsure endpoint
  | _ => .nothing

def perform : ItemCall → Call γ ν (Entry fun _ : UInt16 => List UInt8)
  | set endpoint payload size => do
    let res ← wpcSetConfigDataItem node endpoint payload size
    return entryOf endpoint (payload.read 0 size.toNat) res
  | get endpoint payloadCapacity => do
    match ← wpcGetConfigDataItem node endpoint payloadCapacity with
    | .ok payload => return .told endpoint payload
    | .error _ => return .nothing
  | list endpointsCapacity => do
    let _ ← wpcGetConfigDataItemList node endpointsCapacity
    return .nothing

def step : Step (World γ ν) ItemCall := fun w call => finish (call.perform node) w

def log (w : World γ ν) (calls : List ItemCall) : List (Entry fun _ : UInt16 => List UInt8) :=
  journal (step node) (fun w call => (call.perform node w).1.toList) w calls

end ItemCall

/-- The bytes of a confirm that tells an item. -/
structure TellsItem (confirm item : List UInt8) : Prop where
  length : confirm.length = 5 + item.length
  size : (confirm.getD 4 0).toNat = item.length
  payload : confirm.drop 5 = item

/-- The node keeps items in cells; one that was removed is kept as no bytes. Every confirm that comes has
its result. A setting that is confirmed is done, one that is refused is not, and one whose confirm was
lost may be either. The owned cells change by settings only. -/
structure KeepsItems {ν : Type} (node : ItemNode ν) (cells : ν → ItemCells) (owned : UInt16 → Prop) : Prop where
  confirms : ∀ n request, 0 ≤ (node.send request n).1.1 → 4 ≤ (node.send request n).1.2.length
  got : ∀ n endpoint, SameOn owned (cells n) (cells (node.send (itemGet endpoint) n).2)
  listed : ∀ n command, SameOn owned (cells n) (cells (node.send (itemListItems command) n).2)
  tells : ∀ n endpoint, 0 ≤ (node.send (itemGet endpoint) n).1.1 →
    (node.send (itemGet endpoint) n).1.2.getD 3 0 = 0 →
    ∃ item, TellsItem (node.send (itemGet endpoint) n).1.2 item ∧ cells n endpoint = some item
  written : ∀ n endpoint payload size, 0 ≤ (node.send (itemSet endpoint payload size) n).1.1 →
    (node.send (itemSet endpoint payload size) n).1.2.getD 3 0 = 0 →
    SameOn owned (Function.update (cells n) endpoint (some (payload.read 0 size.toNat)))
      (cells (node.send (itemSet endpoint payload size) n).2)
  refused : ∀ n endpoint payload size, 0 ≤ (node.send (itemSet endpoint payload size) n).1.1 →
    (node.send (itemSet endpoint payload size) n).1.2.getD 3 0 ≠ 0 →
    SameOn owned (cells n) (cells (node.send (itemSet endpoint payload size) n).2)
  lost : ∀ n endpoint payload size, (node.send (itemSet endpoint payload size) n).1.1 < 0 → ∀ k, owned k →
    k ≠ endpoint → cells (node.send (itemSet endpoint payload size) n).2 k = cells n k

section Keeping

variable {γ ν : Type} {node : ItemNode ν} {cells : ν → ItemCells} {owned : UInt16 → Prop}
  {endpoint : UInt16} {payload : Memory UInt8} {size : UInt8} {capacity : Nat} {w t : World γ ν}

theorem returns_wpcIntSendRequest {request : ItemRequest} {answer : Int × Memory UInt8} :
    Returns (node.wpcIntSendRequest request) w answer t ↔
      answer = ((node.send request w.node).1.1,
        Confirm.copyConfirm (node.frame w.node) (node.send request w.node).1.2) ∧
      t = { w with node := (node.send request w.node).2 } := returns_ask

/-- The result is that of the confirm, whatever the frame held. -/
theorem confirm_result (hNode : KeepsItems node cells owned) {n : ν} {request : ItemRequest}
    (h : 0 ≤ (node.send request n).1.1) :
    Confirm.copyConfirm (node.frame n) (node.send request n).1.2 3 = (node.send request n).1.2.getD 3 0 :=
  Confirm.copyConfirm_received (node.frame n) (hNode.confirms n request h)

theorem returns_msapConfigDataItemSetRequest {res : Int}
    (h : Returns (msapConfigDataItemSetRequest node endpoint payload size) w res t) :
    (res < 0 ∧ t = w) ∨
      ∃ answer, answer = (node.send (itemSet endpoint payload size) w.node).1 ∧
        t = { w with node := (node.send (itemSet endpoint payload size) w.node).2 } ∧
        res = if answer.1 < 0 then answer.1 else
          ((Confirm.copyConfirm (node.frame w.node) answer.2 3).toNat : Int) := by
  rcases returns_ite.mp h with ⟨-, hPure⟩ | ⟨-, hSend⟩
  · obtain ⟨rfl, rfl⟩ := returns_pure.mp hPure
    exact .inl ⟨by decide, rfl⟩
  · obtain ⟨answer, u, hAsk, hRest⟩ := returns_bind.mp hSend
    obtain ⟨rfl, rfl⟩ := returns_wpcIntSendRequest.mp hAsk
    refine .inr ⟨_, rfl, ?_⟩
    rcases returns_ite.mp hRest with ⟨hNeg, hPure⟩ | ⟨hPos, hPure⟩
    · obtain ⟨rfl, rfl⟩ := returns_pure.mp hPure
      exact ⟨rfl, (if_pos hNeg).symm⟩
    · obtain ⟨rfl, rfl⟩ := returns_pure.mp hPure
      exact ⟨rfl, (if_neg hPos).symm⟩

theorem logs_itemSet {res : AppRes} (hNode : KeepsItems node cells owned)
    (h : Returns (wpcSetConfigDataItem node endpoint payload size) w res t) :
    Logs items owned (cells w.node) (ItemCall.entryOf endpoint (payload.read 0 size.toNat) res)
      (cells t.node) := by
  obtain ⟨res, u, hSet, hPure⟩ := returns_bind.mp h
  obtain ⟨rfl, rfl⟩ := returns_pure.mp hPure
  obtain ⟨hNeg, rfl⟩ | ⟨answer, rfl, rfl, rfl⟩ := returns_msapConfigDataItemSetRequest hSet
  · rw [convertErrorCode_internalError _ hNeg]
    exact .unsure fun _ _ _ => rfl
  · by_cases hNeg : (node.send (itemSet endpoint payload size) w.node).1.1 < 0
    · rw [if_pos hNeg, convertErrorCode_internalError _ hNeg]
      exact .unsure (hNode.lost w.node endpoint payload size hNeg)
    · have hCame : 0 ≤ (node.send (itemSet endpoint payload size) w.node).1.1 := by omega
      rw [if_neg hNeg, confirm_result hNode hCame]
      by_cases hZero : (node.send (itemSet endpoint payload size) w.node).1.2.getD 3 0 = 0
      · rw [hZero]
        exact .stored rfl (hNode.written w.node endpoint payload size hCame hZero)
      · have hSame := hNode.refused w.node endpoint payload size hCame hZero
        have hTable : OkOnlyAtZero cdcItemSetErrorCodeLut := by decide
        cases hRes : convertErrorCode cdcItemSetErrorCodeLut
            ((node.send (itemSet endpoint payload size) w.node).1.2.getD 3 0).toNat with
        | ok =>
          have hResult := (convertErrorCode_eq_ok hTable).mp hRes
          exact absurd (UInt8.toNat_inj.mp (Int.ofNat.inj hResult)) hZero
        | internalError => exact .unsure fun k hk _ => hSame k hk
        | _ => exact .nothing hSame

theorem getRequest_isSome (capacity : Nat) (confirm : Memory UInt8) :
    ∃ answer, Confirm.msapConfigDataItemGetRequest capacity confirm = some answer := by
  unfold Confirm.msapConfigDataItemGetRequest
  dsimp only
  split
  · split
    · exact ⟨_, rfl⟩
    · split
      · exact ⟨_, rfl⟩
      · exact ⟨_, rfl⟩
  · exact ⟨_, rfl⟩

theorem returns_msapConfigDataItemGetRequest (node : ItemNode ν) (endpoint : UInt16) (capacity : Nat)
    (w : World γ ν) :
    ∃ answer, Returns (msapConfigDataItemGetRequest node endpoint capacity) w answer
        { w with node := (node.send (itemGet endpoint) w.node).2 } ∧
      ((answer.1 < 0 ∧ answer.2 = []) ∨ 0 ≤ (node.send (itemGet endpoint) w.node).1.1 ∧
        Confirm.msapConfigDataItemGetRequest capacity (Confirm.copyConfirm (node.frame w.node)
          (node.send (itemGet endpoint) w.node).1.2) = some answer) := by
  by_cases hNeg : (node.send (itemGet endpoint) w.node).1.1 < 0
  · refine ⟨((node.send (itemGet endpoint) w.node).1.1, []),
      returns_bind.mpr ⟨_, _, returns_wpcIntSendRequest.mpr ⟨rfl, rfl⟩, ?_⟩, .inl ⟨hNeg, rfl⟩⟩
    exact returns_ite.mpr (.inl ⟨hNeg, returns_pure.mpr ⟨rfl, rfl⟩⟩)
  · obtain ⟨answer, hAnswer⟩ := getRequest_isSome capacity
      (Confirm.copyConfirm (node.frame w.node) (node.send (itemGet endpoint) w.node).1.2)
    refine ⟨answer, returns_bind.mpr ⟨_, _, returns_wpcIntSendRequest.mpr ⟨rfl, rfl⟩, ?_⟩,
      .inr ⟨by omega, hAnswer⟩⟩
    refine returns_ite.mpr (.inr ⟨hNeg, ?_⟩)
    rw [hAnswer]
    exact returns_pure.mpr ⟨rfl, rfl⟩

/-- The bytes of the confirm that the code reads are those of the item. -/
theorem read_confirm {confirm item : List UInt8} (m : Memory UInt8) (h : TellsItem confirm item) :
    (Confirm.copyConfirm m confirm 4).toNat = item.length ∧
      (Confirm.copyConfirm m confirm).read 5 item.length = item := by
  have hLength := h.length
  constructor
  · have hCell : Confirm.copyConfirm m confirm 4 = confirm.getD 4 0 :=
      Confirm.copyConfirm_received m (show 4 < confirm.length by omega)
    rw [hCell, h.size]
  · have hPart : (Confirm.copyConfirm m confirm).read 5 item.length = (confirm.drop 5).take item.length :=
      read_write_part m 0 (show 5 + item.length ≤ confirm.length by omega)
    rw [h.payload, List.take_length] at hPart
    exact hPart

/-- What is got is the item that the node keeps, and fits the buffer of the caller. -/
theorem told_of_getRequest {bytes : List UInt8} (hNode : KeepsItems node cells owned)
    (h : Returns (msapConfigDataItemGetRequest node endpoint capacity) w (0, bytes) t) :
    cells w.node endpoint = some bytes ∧ bytes.length ≤ capacity ∧
      bytes.length ≤ Confirm.maximumCdcItemPayloadSize := by
  obtain ⟨answer, hReturns, hAnswer⟩ := returns_msapConfigDataItemGetRequest node endpoint capacity w
  obtain ⟨rfl, -⟩ := h.unique hReturns
  obtain ⟨hNeg, -⟩ | ⟨hCame, hRead⟩ := hAnswer
  · cases hNeg
  · have hResult := confirm_result hNode hCame
    by_cases hZero : (node.send (itemGet endpoint) w.node).1.2.getD 3 0 = 0
    · obtain ⟨item, hTells, hCell⟩ := hNode.tells w.node endpoint hCame hZero
      obtain ⟨hSize, hBytes⟩ := read_confirm (node.frame w.node) hTells
      rw [hZero] at hResult
      by_cases hFits : Confirm.ItemFits capacity
          (Confirm.copyConfirm (node.frame w.node) (node.send (itemGet endpoint) w.node).1.2 4)
      · rw [Confirm.msapConfigDataItemGetRequest_value hResult hFits, hSize, hBytes] at hRead
        cases hRead
        exact ⟨hCell, hSize ▸ hFits.1, hSize ▸ hFits.2⟩
      · rw [Confirm.msapConfigDataItemGetRequest_refused hResult hFits] at hRead
        exact absurd (Prod.mk.inj (Option.some.inj hRead)).1 (Confirm.refusal_ne_zero _)
    · rw [← hResult] at hZero
      rw [Confirm.msapConfigDataItemGetRequest_error _ hZero] at hRead
      exact absurd (UInt8.toNat_inj.mp (Int.ofNat.inj (Prod.mk.inj (Option.some.inj hRead)).1)) hZero

theorem told_of_itemGet {item : List UInt8} (hNode : KeepsItems node cells owned)
    (h : Returns (wpcGetConfigDataItem node endpoint capacity) w (.ok item) t) :
    cells w.node endpoint = some item ∧ item.length ≤ capacity ∧
      item.length ≤ Confirm.maximumCdcItemPayloadSize := by
  have hTable : OkOnlyAtZero cdcItemGetErrorCodeLut := by decide
  obtain ⟨⟨res, bytes⟩, u, hGet, hConverted⟩ := returns_bind.mp h
  dsimp only at hConverted
  split at hConverted
  · next hOk =>
    cases (returns_pure.mp hConverted).1
    obtain rfl : res = 0 := (convertErrorCode_eq_ok hTable).mp hOk
    exact told_of_getRequest hNode hGet
  · cases (returns_pure.mp hConverted).1

def SameItems (cells : ν → ItemCells) (owned : UInt16 → Prop) (w t : World γ ν) : Prop :=
  SameOn owned (cells w.node) (cells t.node)

theorem composes_sameItems : Composes (SameItems (γ := γ) cells owned) :=
  composes_sameOn owned fun w : World γ ν => cells w.node

theorem moves_itemGet (hNode : KeepsItems node cells owned) :
    Moves (SameItems cells owned) (wpcGetConfigDataItem node endpoint capacity : Call γ ν _) := by
  have hPure {α : Type} (a : α) : Moves (SameItems cells owned) (pure a : Call γ ν α) :=
    Moves.pure composes_sameItems a
  apply Moves.bind composes_sameItems
  · apply Moves.bind composes_sameItems
    · exact moves_ask fun w => hNode.got w.node endpoint
    · rintro ⟨res, confirm⟩
      refine Moves.ite (hPure _) ?_
      split
      · exact hPure _
      · exact Moves.unfinished composes_sameItems
  · rintro ⟨res, bytes⟩
    dsimp only
    split
    · exact hPure _
    · exact hPure _

theorem moves_itemList (hNode : KeepsItems node cells owned) :
    Moves (SameItems cells owned) (wpcGetConfigDataItemList node capacity : Call γ ν _) := by
  have hPure {α : Type} (a : α) : Moves (SameItems cells owned) (pure a : Call γ ν α) :=
    Moves.pure composes_sameItems a
  apply Moves.bind composes_sameItems
  · apply Moves.bind composes_sameItems
    · exact moves_ask fun w => hNode.listed w.node 0
    · rintro ⟨res, confirm⟩
      exact Moves.ite (hPure _) (Moves.ite (hPure _) (hPure _))
  · rintro ⟨res, response⟩
    refine Moves.ite (hPure _) ?_
    dsimp only
    split
    · exact Moves.ite (hPure _) (Moves.ite (hPure _) (hPure _))
    · exact hPure _

theorem completes_wpcIntSendRequest (request : ItemRequest) :
    Completes (node.wpcIntSendRequest request : Call γ ν _) :=
  fun _ => ⟨_, _, returns_wpcIntSendRequest.mpr ⟨rfl, rfl⟩⟩

theorem completes_perform (node : ItemNode ν) (call : ItemCall) : Completes (call.perform node : Call γ ν _) := by
  cases call with
  | set endpoint payload size =>
    refine .bind (.bind ?_ fun _ => .pure _) fun _ => .pure _
    refine .ite (.pure _) (.bind (completes_wpcIntSendRequest _) fun answer => ?_)
    exact .ite (.pure _) (.pure _)
  | get endpoint capacity =>
    refine .bind (.bind ?_ fun answer => ?_) fun answer => ?_
    · intro w
      obtain ⟨answer, hReturns, -⟩ := returns_msapConfigDataItemGetRequest node endpoint capacity w
      exact ⟨answer, _, hReturns⟩
    · dsimp only
      split
      · exact .pure _
      · exact .pure _
    · split
      · exact .pure _
      · exact .pure _
  | list capacity =>
    refine .bind (.bind (.bind (completes_wpcIntSendRequest _) fun answer => ?_) fun answer => ?_)
      fun _ => .pure _
    · exact .ite (.pure _) (.ite (.pure _) (.pure _))
    · refine .ite (.pure _) ?_
      split
      · exact .ite (.pure _) (.ite (.pure _) (.pure _))
      · exact .pure _

theorem run_itemCalls (node : ItemNode ν) (w : World γ ν) (calls : List ItemCall) :
    ∃ t, run (ItemCall.step node) w calls = some t := by
  induction calls generalizing w with
  | nil => exact ⟨w, rfl⟩
  | cons call calls ih =>
    obtain ⟨e, u, hReturns⟩ := completes_perform node call w
    obtain ⟨t, hRest⟩ := ih u
    exact ⟨t, run_cons_eq_some.mpr ⟨u, finish_eq_some.mpr ⟨e, hReturns⟩, hRest⟩⟩

theorem logs_itemCall {call : ItemCall} {e : Entry fun _ : UInt16 => List UInt8}
    (hNode : KeepsItems node cells owned) (h : Returns (call.perform node) w e t) :
    Logs items owned (cells w.node) e (cells t.node) := by
  cases call with
  | set endpoint payload size =>
    obtain ⟨res, u, hSet, hEntry⟩ := returns_bind.mp h
    obtain ⟨rfl, rfl⟩ := returns_pure.mp hEntry
    exact logs_itemSet hNode hSet
  | get endpoint capacity =>
    obtain ⟨answer, u, hGet, hEntry⟩ := returns_bind.mp h
    have hSame : SameItems cells owned w u := (moves_itemGet hNode).returns hGet
    cases answer with
    | ok item =>
      obtain ⟨rfl, rfl⟩ := returns_pure.mp hEntry
      exact .told ((view_items _ _).trans (told_of_itemGet hNode hGet).1) hSame
    | error error =>
      obtain ⟨rfl, rfl⟩ := returns_pure.mp hEntry
      exact .nothing hSame
  | list capacity =>
    obtain ⟨_, u, hList, hEntry⟩ := returns_bind.mp h
    obtain ⟨rfl, rfl⟩ := returns_pure.mp hEntry
    exact .nothing ((moves_itemList hNode).returns hList)

/-- Every run of the calls comes to its end, whatever the node answers. If the node keeps its items, an
item that a call gets is the one last set for its endpoint, as long as no setting of it since then is
unsure; and what the node holds at the start, if it was not set before. -/
theorem config_data_items_read_back (node : ItemNode ν) (w : World γ ν) (calls : List ItemCall) :
    (∃ t, run (ItemCall.step node) w calls = some t) ∧
    ∀ cells owned endpoint, KeepsItems node cells owned → owned endpoint →
      (∀ before mid after v v', ItemCall.log node w calls =
          before ++ .stored endpoint v :: (mid ++ .told endpoint v' :: after) →
        (∀ e ∈ mid, ¬ e.Touches items endpoint) → v' = v) ∧
      (∀ before after v, ItemCall.log node w calls = before ++ .told endpoint v :: after →
        (∀ e ∈ before, ¬ e.Touches items endpoint) → cells w.node endpoint = some v) := by
  obtain ⟨t, hRun⟩ := run_itemCalls node w calls
  refine ⟨⟨t, hRun⟩, ?_⟩
  intro cells owned endpoint hNode hOwned
  have hTrace := trace_journal (fun _ _ _ _ => logs_itemCall hNode) hRun
  obtain ⟨hLast, hFirst⟩ := hTrace.read_back (r := endpoint) hOwned
  exact ⟨hLast, fun before after v hLog hNone =>
    (view_items _ _).symm.trans (hFirst before after v hLog hNone)⟩

end Keeping

/-- An item of no bytes is one that was removed. -/
def storeItem (request : ItemRequest) (cells : ItemCells) : (Int × List UInt8) × ItemCells :=
  match request.payload with
  | .set endpoint _ payload => ((0, [0xA9, 0, 1, 0]), Function.update cells endpoint (some payload))
  | .get endpoint =>
    match cells endpoint with
    | some (first :: rest) =>
      if rest.length < 255 then
        ((0, [0xB0, 0, .ofNat (3 + rest.length), 0, .ofNat (rest.length + 1)] ++ first :: rest), cells)
      else ((0, [0xB0, 0, 2, 1, 0]), cells)
    | _ => ((0, [0xB0, 0, 2, 1, 0]), cells)
  | .listItems _ => ((0, [0xB2, 0, 2, 1, 0]), cells)

def itemStore : ItemNode ItemCells := ⟨storeItem, fun _ _ => 0xEE⟩

theorem keepsItems_itemStore : KeepsItems itemStore id fun _ => True where
  confirms n request _ := by
    change 4 ≤ (storeItem request n).1.2.length
    unfold storeItem
    repeat' split
    all_goals simp
  got n endpoint := by
    change SameOn _ n (storeItem (itemGet endpoint) n).2
    simp only [storeItem, itemGet]
    repeat' split
    all_goals exact SameOn.refl _ _
  listed n command := SameOn.refl _ _
  tells n endpoint _ h := by
    change (storeItem (itemGet endpoint) n).1.2.getD 3 0 = 0 at h
    change ∃ item, TellsItem (storeItem (itemGet endpoint) n).1.2 item ∧ n endpoint = some item
    simp only [storeItem, itemGet] at h ⊢
    split at h
    · next first rest hCell =>
      split at h
      · next hShort =>
        rw [if_pos hShort]
        refine ⟨first :: rest, ⟨?_, ?_, rfl⟩, hCell⟩
        · simp
          omega
        · simp
          omega
      · cases h
    · cases h
  written n endpoint payload size _ _ := SameOn.refl _ _
  refused n endpoint payload size _ h := absurd rfl h
  lost n endpoint payload size h := absurd h (Int.lt_irrefl 0)

/-- The item that is too long is refused, and the buffer that is too small gets nothing. -/
def itemCalls : List ItemCall :=
  [.set 7 (Memory.write (fun _ => 0) 0 [1, 2, 3]) 3, .set 9 (fun _ => 5) 81, .get 7 2, .list 16, .get 7 10]

def noItems : World Unit ItemCells := ⟨⟨0, 0⟩, (), fun _ => none⟩

theorem config_data_items_read_back_short :
    (∀ before mid after v v', ItemCall.log itemStore noItems itemCalls =
        before ++ .stored (7 : UInt16) v :: (mid ++ .told (7 : UInt16) v' :: after) →
      (∀ e ∈ mid, ¬ e.Touches items 7) → v' = v) ∧
    ItemCall.log itemStore noItems itemCalls =
      [.stored 7 [1, 2, 3], .unsure 9, .nothing, .nothing, .told 7 [1, 2, 3]] :=
  ⟨((config_data_items_read_back itemStore noItems itemCalls).2 id _ 7 keepsItems_itemStore trivial).1, rfl⟩

end CMeshApi.Wpc
