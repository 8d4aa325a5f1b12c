import CMeshApi.Dsap.Reception

/-!
# Fragments that arrive in any order

A receiver that gets the pieces of one message, each once and in any order, calls
back once, with the last of them and with the whole message; what arrives for
other keys in between makes no difference.

The invariant is carried by the packet that the fragments received so far make
up: it holds exactly these, it knows the full size as soon as the last fragment
is among them, and it is not full while one is missing.
-/

namespace CMeshApi.Dsap

open Reassembly Machine Segment

/-- The fragments are the pieces of one message that is not empty, each piece once. -/
structure Splits (m : List UInt8) (fs : List ReassemblyFragment) : Prop where
  offsets : fs.Pairwise fun f g => f.offset ≠ g.offset
  nonempty : ∀ f ∈ fs, 0 < f.size
  pieces : ∀ f ∈ fs, PieceOf m f.piece
  covered : ∀ i < m.length, ∃ f ∈ fs, f.piece.Covers i
  total_eq : total (fs.map (·.piece)) = m.length
  last_end : ∀ f ∈ fs, f.lastFragment = true → f.offset + f.size = m.length
  has_last : ∃ f ∈ fs, f.lastFragment = true

variable {m : List UInt8} {fs gs : List ReassemblyFragment}

theorem Splits.perm (h : Splits m fs) (hPerm : fs.Perm gs) : Splits m gs where
  offsets := hPerm.pairwise h.offsets fun hNe => hNe.symm
  nonempty f hf := h.nonempty f (hPerm.mem_iff.mpr hf)
  pieces f hf := h.pieces f (hPerm.mem_iff.mpr hf)
  covered i hi := by
    obtain ⟨f, hf, hCovers⟩ := h.covered i hi
    exact ⟨f, hPerm.mem_iff.mp hf, hCovers⟩
  total_eq := by rw [← h.total_eq, total_perm (hPerm.map _)]
  last_end f hf := h.last_end f (hPerm.mem_iff.mpr hf)
  has_last := by
    obtain ⟨f, hf, hLast⟩ := h.has_last
    exact ⟨f, hPerm.mem_iff.mp hf, hLast⟩

/-- The packet holds the fragments received so far, with a fragment still missing. -/
structure Holds (m : List UInt8) (fs : List ReassemblyFragment) (p : FullPacket) : Prop where
  head : p.head = (fs.map (·.piece)).reverse
  fullSize : p.fullSize = if fs.any (·.lastFragment) then m.length else 0
  incomplete : p.isFull = false

theorem holds_nil (key : PacketKey) : Holds m [] (freshPacket key) := ⟨rfl, rfl, rfl⟩

section Arrival

variable {f : ReassemblyFragment} {rest : List ReassemblyFragment} {p : FullPacket}

theorem Holds.accepts (h : Holds m fs p) (hSplits : Splits m (fs ++ f :: rest)) :
    Accepts p f .all := by
  refine ⟨fun g hg => ?_, rfl, rfl⟩
  rw [h.head, List.mem_reverse, List.mem_map] at hg
  obtain ⟨e, he, rfl⟩ := hg
  exact (List.pairwise_append.mp hSplits.offsets).2.2 e he f List.mem_cons_self

theorem Holds.extended_head (h : Holds m fs p) (now : Nat) :
    (extended p f now).head = ((fs ++ [f]).map (·.piece)).reverse := by
  rw [List.map_append, List.reverse_append, ← h.head]
  rfl

theorem Holds.extended_fullSize (h : Holds m fs p) (hSplits : Splits m (fs ++ f :: rest))
    (now : Nat) :
    (extended p f now).fullSize =
      if (fs ++ [f]).any (·.lastFragment) then m.length else 0 := by
  rw [List.any_append, List.any_cons, List.any_nil, Bool.or_false]
  change (if f.lastFragment then f.offset + f.size else p.fullSize) = _
  cases hLast : f.lastFragment with
  | true =>
    rw [if_pos rfl, Bool.or_true, if_pos rfl]
    exact hSplits.last_end f (List.mem_append_right _ List.mem_cons_self) hLast
  | false =>
    rw [if_neg Bool.false_ne_true, Bool.or_false]
    exact h.fullSize

theorem Holds.extended_total (h : Holds m fs p) (hSplits : Splits m (fs ++ f :: rest))
    (now : Nat) : total (extended p f now).head + total (rest.map (·.piece)) = m.length := by
  rw [h.extended_head, total_perm (List.reverse_perm _), ← total_append, ← List.map_append,
    List.append_assoc, List.singleton_append]
  exact hSplits.total_eq

theorem Holds.next (h : Holds m fs p) (hSplits : Splits m (fs ++ f :: rest)) (hRest : rest ≠ [])
    (now : Nat) : Holds m (fs ++ [f]) (settled (extended p f now)) := by
  refine ⟨h.extended_head now, h.extended_fullSize hSplits now, ?_⟩
  have hTotal := h.extended_total hSplits now
  have hMissing : 0 < total (rest.map (·.piece)) := by
    obtain ⟨g, gs, rfl⟩ := List.exists_cons_of_ne_nil hRest
    have hg : 0 < g.size := hSplits.nonempty g (by simp)
    rw [List.map_cons, total_cons]
    exact Nat.lt_of_lt_of_le hg (Nat.le_add_right _ _)
  have hSize := h.extended_fullSize hSplits now
  have hShort : (extended p f now).fullSize ≠ 0 →
      total (extended p f now).head ≠ (extended p f now).fullSize := by
    intro hKnown hEq
    rw [hSize] at hKnown hEq
    split at hKnown
    · next hLast =>
      rw [if_pos hLast] at hEq
      omega
    · exact hKnown rfl
  change (p.isFull || _) = false
  rw [h.incomplete, Bool.false_or]
  simpa using hShort

theorem Holds.last (h : Holds m fs p) (hSplits : Splits m (fs ++ [f])) (hm : m ≠ []) (now : Nat) :
    (settled (extended p f now)).isFull = true ∧
      (settled (extended p f now)).fullSize = m.length := by
  have hTotal := h.extended_total hSplits now
  have hSize := h.extended_fullSize hSplits now
  obtain ⟨g, hg, hLast⟩ := hSplits.has_last
  rw [if_pos (List.any_eq_true.mpr ⟨g, hg, hLast⟩)] at hSize
  have hKnown : (extended p f now).fullSize ≠ 0 := by
    rw [hSize]
    exact fun hNil => hm (List.eq_nil_of_length_eq_zero hNil)
  refine ⟨?_, hSize⟩
  change (_ || _) = true
  rw [Bool.or_eq_true]
  refine Or.inr ?_
  simpa [hm, hSize] using hTotal

theorem Holds.assembled (h : Holds m fs p) (hSplits : Splits m (fs ++ [f])) (now : Nat)
    (buffer : Memory UInt8) :
    (assemble buffer (settled (extended p f now)).head).read 0 m.length = m := by
  have hHead : (settled (extended p f now)).head = ((fs ++ [f]).map (·.piece)).reverse :=
    h.extended_head now
  rw [hHead]
  apply read_assemble_pieces
  · intro g hg
    rw [List.mem_reverse, List.mem_map] at hg
    obtain ⟨e, he, rfl⟩ := hg
    exact hSplits.pieces e he
  · intro i hi
    obtain ⟨e, he, hCovers⟩ := hSplits.covered i hi
    exact ⟨e.piece, List.mem_reverse.mpr (List.mem_map_of_mem he), hCovers⟩

end Arrival

section Receiving

variable {s : Receiver} {payload : DsapDataRxFragIndPl} {timestampMsEpoch : Nat} {env : Env}
  {rest : List ReassemblyFragment}

def Awaits (s : Receiver) (key : PacketKey) (m : List UInt8) (fs : List ReassemblyFragment) : Prop :=
  Holds m fs (target s.reassembly.packets key)

theorem stores_next (h : Awaits s payload.key m fs) (hAllocs : env.allocs = .all)
    (hSplits : Splits m (fs ++ payload.frag :: rest)) :
    Stores s.reassembly payload.frag env.allocs := by
  rw [hAllocs]
  exact ⟨Or.inr rfl, Holds.accepts h hSplits⟩

theorem next_fragment (h : Awaits s payload.key m fs) (hAllocs : env.allocs = .all)
    (hSplits : Splits m (fs ++ payload.frag :: rest)) (hRest : rest ≠ [])
    (hKeeps : KeepsPacket payload.key s (.fragIndication payload timestampMsEpoch env)) :
    (dsapDataRxFragIndicationHandler s payload timestampMsEpoch env).2 = none ∧
      Awaits (dsapDataRxFragIndicationHandler s payload timestampMsEpoch env).1 payload.key m
        (fs ++ [payload.frag]) := by
  have hNext := Holds.next h hSplits hRest env.addedAt
  have hIncomplete : ¬ Completes s payload env := by
    rintro ⟨-, hFull, -⟩
    exact absurd hFull (by rw [grown, Bool.not_eq_true]; exact hNext.incomplete)
  obtain ⟨packets, hAdded, hTake⟩ := takeFragment_of_not_completes timestampMsEpoch hIncomplete
  refine ⟨by rw [handler_call, hTake], ?_⟩
  have hGet : getPacketFromHash
      (dsapDataRxFragIndicationHandler s payload timestampMsEpoch env).1.reassembly.packets
        payload.key = some (grown s.reassembly payload.frag env.addedAt) := by
    rw [handler_get hKeeps, hTake]
    exact hAdded.same (stores_next h hAllocs hSplits)
  rw [Awaits, target, hGet]
  exact hNext

theorem last_fragment {cb : OnDataReceivedCb} (h : Awaits s payload.key m fs)
    (hAllocs : env.allocs = .all) (hSplits : Splits m (fs ++ [payload.frag])) (hm : m ≠ [])
    (hSize : m.length ≤ maxFullPacketSize) (hCb : s.dataCb = some cb) :
    (dsapDataRxFragIndicationHandler s payload timestampMsEpoch env).2 =
      some (received cb payload timestampMsEpoch m) := by
  obtain ⟨hFull, hFullSize⟩ := Holds.last h hSplits hm env.addedAt
  have hLength : m.length ≠ 0 := fun hNil => hm (List.eq_nil_of_length_eq_zero hNil)
  have hCompletes : Completes s payload env :=
    ⟨stores_next h hAllocs hSplits, hFull, by rw [grown]; exact hFullSize ▸ hLength⟩
  obtain ⟨packets, -, -, hTake⟩ := takeFragment_of_completes timestampMsEpoch hCompletes
  have hGrown : (grown s.reassembly payload.frag env.addedAt).fullSize = m.length := hFullSize
  rw [hGrown, if_neg (Nat.not_lt.mpr hSize)] at hTake
  have hRead : (assemble s.reassemblyBuffer
      (grown s.reassembly payload.frag env.addedAt).head).read 0 m.length = m :=
    Holds.assembled h hSplits env.addedAt s.reassemblyBuffer
  rw [handler_call, hTake, handOver_call, hCb, Option.map_some, hRead]

def fragsFor (key : PacketKey) : List RxEvent → List ReassemblyFragment
  | [] => []
  | .fragIndication payload _ _ :: es =>
    if payload.key = key then payload.frag :: fragsFor key es else fragsFor key es
  | _ :: es => fragsFor key es

/-- The application leaves its callback registered, and no allocation fails. -/
def Ordinary : RxEvent → Prop
  | .fragIndication _ _ env => env.allocs = .all
  | .collect _ => True
  | .register _ => False
  | .unregister => False
  | .setMaxFragmentDuration _ => True

instance : (e : RxEvent) → Decidable (Ordinary e)
  | .fragIndication _ _ env => inferInstanceAs (Decidable (env.allocs = .all))
  | .collect _ | .setMaxFragmentDuration _ => .isTrue trivial
  | .register _ | .unregister => .isFalse id

theorem respond_dataCb {e : RxEvent} (h : Ordinary e) : (respond s e).1.dataCb = s.dataCb := by
  cases e with
  | fragIndication payload timestampMsEpoch env =>
    exact handler_dataCb s payload timestampMsEpoch env
  | collect now => rfl
  | register cb => exact absurd h id
  | unregister => exact absurd h id
  | setMaxFragmentDuration d => rfl

theorem answersTo_of_none {key : PacketKey} {events : List RxEvent}
    (h : fragsFor key events = []) : answersTo respond (IsFor key) s events = [] := by
  induction events generalizing s with
  | nil => rfl
  | cons e events ih =>
    cases e with
    | fragIndication payload timestampMsEpoch env =>
      by_cases hKey : payload.key = key
      · simp [fragsFor, hKey] at h
      · rw [fragsFor, if_neg hKey] at h
        simpa [answersTo, IsFor, hKey] using ih h
    | _ => exact ih h

theorem run_delivers {key : PacketKey} {events : List RxEvent} {cb : OnDataReceivedCb}
    (hOrdinary : ∀ e ∈ events, Ordinary e) (hKeeps : Meets step (KeepsPacket key) s events)
    (hCb : s.dataCb = some cb) (hm : m ≠ []) (hSize : m.length ≤ maxFullPacketSize)
    (hAwaits : Awaits s key m fs) (hSplits : Splits m (fs ++ fragsFor key events))
    (hSome : fragsFor key events ≠ []) :
    ∃ call, answersTo respond (IsFor key) s events =
        List.replicate ((fragsFor key events).length - 1) none ++ [some call] ∧
      call.cb = cb ∧ call.srcAdd = key.srcAdd ∧ call.bytes = m := by
  induction events generalizing s fs with
  | nil => exact absurd rfl hSome
  | cons e events ih =>
    have hOrdinaryTail := fun f hf => hOrdinary f (List.mem_cons_of_mem _ hf)
    have hCbNext := (respond_dataCb (s := s) (hOrdinary e List.mem_cons_self)).trans hCb
    obtain ⟨hKeepsHead, hKeepsTail⟩ := (meets_cons rfl).mp hKeeps
    cases hFor : IsFor key e with
    | false =>
      have hSkip : fragsFor key (e :: events) = fragsFor key events := by
        cases e with
        | fragIndication payload timestampMsEpoch env =>
          rw [fragsFor, if_neg (of_decide_eq_false hFor)]
        | _ => rfl
      rw [hSkip] at hSplits hSome ⊢
      rw [answersTo, hFor, if_neg Bool.false_ne_true]
      refine ih hOrdinaryTail hKeepsTail hCbNext ?_ hSplits hSome
      rw [Awaits, target, respond_get hFor hKeepsHead]
      exact hAwaits
    | true =>
      cases e with
      | fragIndication payload timestampMsEpoch env =>
        obtain rfl : payload.key = key := of_decide_eq_true hFor
        have hTake : fragsFor payload.key
            (.fragIndication payload timestampMsEpoch env :: events) =
              payload.frag :: fragsFor payload.key events := if_pos rfl
        have hAllocs : env.allocs = .all := hOrdinary _ List.mem_cons_self
        rw [hTake] at hSplits ⊢
        rw [answersTo, hFor, if_pos rfl]
        by_cases hRest : fragsFor payload.key events = []
        · rw [hRest] at hSplits ⊢
          rw [answersTo_of_none hRest]
          refine ⟨received cb payload timestampMsEpoch m, ?_, rfl, rfl, rfl⟩
          exact congrArg (· :: [])
            (last_fragment hAwaits hAllocs hSplits hm hSize hCb)
        · obtain ⟨hQuiet, hNext⟩ := next_fragment hAwaits hAllocs hSplits hRest hKeepsHead
          rw [← List.singleton_append, ← List.append_assoc] at hSplits
          obtain ⟨call, hCalls, hCall⟩ := ih hOrdinaryTail hKeepsTail hCbNext hNext hSplits hRest
          refine ⟨call, ?_, hCall⟩
          have hLength : (fragsFor payload.key events).length ≠ 0 :=
            fun hNil => hRest (List.eq_nil_of_length_eq_zero hNil)
          have hCount : (fragsFor payload.key events).length =
              (fragsFor payload.key events).length - 1 + 1 := by omega
          have hHead : (respond s (.fragIndication payload timestampMsEpoch env)).2 = none := hQuiet
          rw [hCalls, hHead, List.length_cons, Nat.add_sub_cancel, hCount, List.replicate_succ,
            List.cons_append, Nat.add_sub_cancel]
      | collect now => cases hFor
      | register cb => cases hFor
      | unregister => cases hFor
      | setMaxFragmentDuration d => cases hFor

end Receiving

end CMeshApi.Dsap
