import CMeshApi.Wpc.Frames

/-!
# What a call asks of the node

The node is given its requests and reads as before, and a record of them with their
answers is kept beside its state. What a call wrote, and what it was told, is read off
the record that the call itself leaves.
-/

namespace CMeshApi.Wpc

open Programs

variable {γ ν α : Type}

/-- A request of the node, or a read of an attribute, with its answer. -/
inductive Transaction where
  | request (q : Request) (res : Int)
  | attributeRead (sap : Sap) (attributeId : UInt16) (answer : Int × List UInt8)
deriving DecidableEq, Repr

/-- The environment with a record of what it was asked. -/
def Environment.traced (env : Environment ν) : Environment (List Transaction × ν) where
  request q s :=
    ((env.request q s.2).1, s.1 ++ [.request q (env.request q s.2).1], (env.request q s.2).2)
  attributeRead sap id s :=
    ((env.attributeRead sap id s.2).1, s.1 ++ [.attributeRead sap id (env.attributeRead sap id s.2).1],
      (env.attributeRead sap id s.2).2)
  appConfigDataRead s := ((env.appConfigDataRead s.2).1, s.1, (env.appConfigDataRead s.2).2)
  scratchpadStatus s := ((env.scratchpadStatus s.2).1, s.1, (env.scratchpadStatus s.2).2)
  scratchpadTargetRead s := ((env.scratchpadTargetRead s.2).1, s.1, (env.scratchpadTargetRead s.2).2)
  timestampMsMonotonic s := ((env.timestampMsMonotonic s.2).1, s.1, (env.timestampMsMonotonic s.2).2)
  timestampMsEpoch s := ((env.timestampMsEpoch s.2).1, s.1, (env.timestampMsEpoch s.2).2)
  malloc s := ((env.malloc s.2).1, s.1, (env.malloc s.2).2)
  rand s := ((env.rand s.2).1, s.1, (env.rand s.2).2)
  rounds := env.rounds

/-- The record starts empty. -/
def World.tracing (w : World γ ν) : World γ (List Transaction × ν) :=
  ⟨w.statics, w.gateway, [], w.node⟩

def World.trace (w : World γ (List Transaction × ν)) : List Transaction := w.node.1

namespace Transaction

/-- The request, if it is of the kind. -/
def requested (kind : Request → Bool) : Transaction → Option Request
  | request q _ => if kind q then some q else none
  | attributeRead _ _ _ => none

/-- The answer, if it is a read of this attribute. -/
def told (sap : Sap) (attributeId : UInt16) : Transaction → Option (Int × List UInt8)
  | request _ _ => none
  | attributeRead sap' id answer => if sap' = sap ∧ id = attributeId then some answer else none

end Transaction

/-- The requests of a kind, in their order. -/
def requestsIn (kind : Request → Bool) (trace : List Transaction) : List Request :=
  trace.filterMap (Transaction.requested kind)

/-- What the node told when the attribute was first read. -/
def firstRead (sap : Sap) (attributeId : UInt16) (trace : List Transaction) : Option (Int × List UInt8) :=
  trace.findSome? (Transaction.told sap attributeId)

section Trace

variable {kind : Request → Bool} {trace : List Transaction} {q : Request}

theorem requestsIn_snoc_of_kind (h : kind q) (res : Int) :
    requestsIn kind (trace ++ [.request q res]) = requestsIn kind trace ++ [q] := by
  simp only [requestsIn, List.filterMap_append, List.filterMap_cons, List.filterMap_nil,
    Transaction.requested, h, if_true]

theorem requestsIn_snoc_of_other (h : kind q = false) (res : Int) :
    requestsIn kind (trace ++ [.request q res]) = requestsIn kind trace := by
  simp only [requestsIn, List.filterMap_append, List.filterMap_cons, List.filterMap_nil,
    Transaction.requested, h, Bool.false_eq_true, if_false, List.append_nil]

theorem requestsIn_snoc_read (sap : Sap) (id : UInt16) (answer : Int × List UInt8) :
    requestsIn kind (trace ++ [.attributeRead sap id answer]) = requestsIn kind trace := by
  unfold requestsIn
  rw [List.filterMap_append]
  exact List.append_nil _

theorem mem_requestsIn {res : Int} (hMem : .request q res ∈ trace) (h : kind q) :
    q ∈ requestsIn kind trace := List.mem_filterMap.mpr ⟨.request q res, hMem, if_pos h⟩

variable {sap sap' : Sap} {id id' : UInt16} {answer : Int × List UInt8}

theorem firstRead_snoc_request (res : Int) :
    firstRead sap id (trace ++ [.request q res]) = firstRead sap id trace := by
  unfold firstRead
  rw [List.findSome?_append]
  exact Option.or_none

theorem firstRead_snoc_of_ne (h : id' ≠ id) :
    firstRead sap id (trace ++ [.attributeRead sap' id' answer]) = firstRead sap id trace := by
  have hOther : ¬ (sap' = sap ∧ id' = id) := fun hSame => h hSame.2
  simp only [firstRead, List.findSome?_append, List.findSome?_cons, List.findSome?_nil,
    Transaction.told, if_neg hOther, Option.or_none]

theorem firstRead_snoc (hNone : firstRead sap id trace = none) :
    firstRead sap id (trace ++ [.attributeRead sap id answer]) = some answer := by
  unfold firstRead at hNone ⊢
  rw [List.findSome?_append, hNone, List.findSome?_cons, Transaction.told, if_pos ⟨rfl, rfl⟩]
  rfl

/-- What was told first stays told. -/
theorem firstRead_mono {trace' : List Transaction} (h : trace <+: trace')
    (hTold : firstRead sap id trace = some answer) : firstRead sap id trace' = some answer := by
  obtain ⟨rest, rfl⟩ := h
  unfold firstRead at hTold ⊢
  rw [List.findSome?_append, hTold]
  rfl

end Trace

variable (env : Environment ν)

/-- What is read is no request. -/
theorem asks_requestsIn (kind : Request → Bool) :
    Asks env.traced fun w t : World γ (List Transaction × ν) =>
      requestsIn kind t.trace = requestsIn kind w.trace := by
  apply Keeps.asks (x := fun n : List Transaction × ν => requestsIn kind n.1)
  · exact {
      attributeRead := fun _ _ _ => requestsIn_snoc_read _ _ _
      appConfigDataRead := fun _ => rfl
      scratchpadStatus := fun _ => rfl
      scratchpadTargetRead := fun _ => rfl
      timestampMsMonotonic := fun _ => rfl
      timestampMsEpoch := fun _ => rfl
      malloc := fun _ => rfl
      rand := fun _ => rfl }
  · exact composes_eq fun w : World γ (List Transaction × ν) => requestsIn kind w.trace
  · exact fun _ _ h => h

theorem sends_requestsIn {kind : Request → Bool} {q : Request} (h : kind q = false) :
    Sends env.traced (fun w t : World γ (List Transaction × ν) =>
      requestsIn kind t.trace = requestsIn kind w.trace) q := fun _ => requestsIn_snoc_of_other h _

theorem composes_prefix : Composes fun w t : World γ (List Transaction × ν) => w.trace <+: t.trace where
  refl w := List.prefix_refl w.trace
  trans := List.IsPrefix.trans

/-- The record only grows. -/
theorem asks_grows : Asks env.traced fun w t : World γ (List Transaction × ν) => w.trace <+: t.trace where
  composes := composes_prefix
  attributeRead _ _ _ := List.prefix_append _ _
  appConfigDataRead w := List.prefix_refl w.trace
  scratchpadStatus w := List.prefix_refl w.trace
  scratchpadTargetRead w := List.prefix_refl w.trace
  timestampMsMonotonic w := List.prefix_refl w.trace
  timestampMsEpoch w := List.prefix_refl w.trace
  malloc w := List.prefix_refl w.trace
  rand w := List.prefix_refl w.trace

theorem sends_grows (q : Request) :
    Sends env.traced (fun w t : World γ (List Transaction × ν) => w.trace <+: t.trace) q :=
  fun _ => List.prefix_append _ _

end CMeshApi.Wpc
