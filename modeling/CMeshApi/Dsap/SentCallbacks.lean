import CMeshApi.Dsap.Transmission
import CMeshApi.Foundations.Machine
import Mathlib.Data.List.Perm.Subperm

/-!
# Callbacks of sent packets, one operation at a time

A run of calls of `dsap_data_tx_request` and of indications that do not overlap.
The node gives one indication for each packet that it accepted, in any order.
-/

namespace CMeshApi.Dsap

open Machine

structure SentRun where
  sender : Sender
  calls : Nat
  accepted : List Packet
  /-- The accepted packets whose indication is still to come. -/
  outstanding : List Packet
  /-- The callbacks that were called, each with the pdu id it got. -/
  invoked : List Packet

namespace SentRun

def init : SentRun := ⟨⟨0, .init⟩, 0, [], [], []⟩

inductive Event where
  | send (mtu : UInt8) (tx : DataTx) (answer : Nat → Answer)
  | indicate (packet : Packet) (payload : DsapDataTxIndPl)

def tracked (s : SentRun) (tx : DataTx) : DataTx := { tx with onDataSentCb := some s.calls }

def step (s : SentRun) : Event → Option SentRun
  | .send mtu tx answer =>
    match dsapDataTxRequest mtu s.sender (s.tracked tx) answer with
    | none => none
    | some (sender, _, result) =>
      if result = 0 then
        some { s with
          sender
          calls := s.calls + 1
          accepted := s.accepted ++ [⟨s.calls, tx.pduId⟩]
          outstanding := s.outstanding ++ [⟨s.calls, tx.pduId⟩] }
      else some { s with sender, calls := s.calls + 1 }
  | .indicate packet payload =>
    if packet ∈ s.outstanding ∧ payload.pduId = packet.pduId then
      match dsapDataTxIndicationHandler s.sender.table payload with
      | (table, call) =>
        some { s with
          sender := { s.sender with table }
          outstanding := s.outstanding.erase packet
          invoked := s.invoked ++ (call.map fun c => ⟨c.cb, c.pduId⟩).toList }
    else none

/-- The callback of a packet whose indication was handled has been called once, with the pdu
id of the packet, and the callback of one that is outstanding not yet. -/
def InvokedOnce (s : SentRun) : Prop :=
  ∀ x ∈ s.accepted,
    s.invoked.filter (fun y => y.call = x.call) = if x ∈ s.outstanding then [] else [x]

instance (s : SentRun) : Decidable s.InvokedOnce :=
  inferInstanceAs (Decidable (∀ x ∈ s.accepted, _))

/-- The stack accepts every request of the call. -/
def Taken (s : SentRun) (mtu : UInt8) (tx : DataTx) (answer : Nat → Answer) : Prop :=
  (transmit mtu s.sender.packetId (s.tracked tx) answer).any (·.accepted) = true

/-- A packet is accepted only while fewer packets are outstanding than the table has slots,
and none of them with the same pdu id. -/
def HasRoom (s : SentRun) : Event → Prop
  | .send mtu tx answer => s.Taken mtu tx answer →
    s.outstanding.length < maxSentPacketWithIndication ∧
      ∀ x ∈ s.outstanding, x.pduId ≠ tx.pduId
  | .indicate _ _ => True

instance (s : SentRun) (e : Event) : Decidable (s.HasRoom e) := by
  cases e <;> unfold HasRoom Taken <;> infer_instance

end SentRun

theorem sendFragments_returned {request : Nat → TxRequest} {answer : Nat → Answer} {n i : Nat}
    {returned : Int} (h : (sendFragments request answer n i).2 = some returned) :
    returned ≠ 0 := by
  induction n generalizing i with
  | zero => cases h
  | succ n ih =>
    rw [sendFragments] at h
    split at h
    · next hFailed =>
      cases h
      exact Int.ne_of_lt hFailed
    · split at h
      · next hRefused =>
        cases h
        have hToNat : (answer i).confirmResult.toNat ≠ 0 := fun hZero =>
          hRefused (UInt8.toNat_inj.mp hZero)
        omega
      · exact ih h

theorem transmit_result {mtu : UInt8} {packetId : UInt16} {tx : DataTx} {answer : Nat → Answer}
    {t : Transmission} (h : transmit mtu packetId tx answer = some t) :
    t.result = 0 ↔ t.accepted = true := by
  simp only [transmit] at h
  split at h
  · cases h
    simp
  · split at h
    · split at h
      · next hFailed =>
        cases h
        simp only [Bool.false_eq_true, iff_false]
        exact Int.ne_of_lt hFailed
      · cases h
        simp only [Int.natCast_eq_zero, beq_iff_eq, ← UInt8.toNat_inj]
        rfl
    · split at h
      · cases h
      · split at h
        · next sent returned hSent =>
          cases h
          simp only [Bool.false_eq_true, iff_false]
          exact sendFragments_returned (congrArg Prod.snd hSent)
        · cases h
          simp

theorem dsapDataTxRequest_cases {mtu : UInt8} {s sender : Sender} {tx : DataTx}
    {answer : Nat → Answer} (cb : OnDataSentCb) {sent : List TxRequest} {result : Int}
    (hCb : tx.onDataSentCb = some cb)
    (h : dsapDataTxRequest mtu s tx answer = some (sender, sent, result)) :
    (result = 0 ∧ (transmit mtu s.packetId tx answer).any (·.accepted) = true ∧
        sender.table = (s.table.setIndicationCb cb tx.pduId).1) ∨
      (result ≠ 0 ∧ sender.table = s.table) := by
  obtain ⟨t, hTransmit, hResult⟩ := Option.map_eq_some_iff.mp h
  rw [hTransmit, Option.any_some]
  rw [hCb] at hResult
  cases hAccepted : t.accepted with
  | true =>
    simp only [hAccepted, Prod.mk.injEq] at hResult
    obtain ⟨rfl, rfl, rfl⟩ := hResult
    exact Or.inl ⟨(transmit_result hTransmit).mpr hAccepted, rfl, rfl⟩
  | false =>
    simp only [hAccepted, Prod.mk.injEq] at hResult
    obtain ⟨rfl, rfl, rfl⟩ := hResult
    refine Or.inr ⟨fun hZero => ?_, rfl⟩
    rw [transmit_result hTransmit, hAccepted] at hZero
    cases hZero

namespace SentRun

def WaitsFor (t : IndicationTable) (i : Slot) (x : Packet) : Prop :=
  (t i).busy = true ∧ (t i).cb = some x.call ∧ (t i).pduId = x.pduId

theorem WaitsFor.release {t : IndicationTable} {i j : Slot} {x : Packet} (h : WaitsFor t j x)
    (hj : j ≠ i) : WaitsFor (t.release i) j x := by
  rw [WaitsFor, IndicationTable.release_other hj]
  exact h

/-- The busy slots of the table are those of the outstanding packets, one for each. -/
structure Tabled (t : IndicationTable) (outstanding : List Packet) : Prop where
  busy : ∀ i, (t i).busy = true → ∃ x ∈ outstanding, WaitsFor t i x
  entered : ∀ x ∈ outstanding, ∃ i, WaitsFor t i x
  unique : ∀ i j, (t i).busy = true → (t j).busy = true → (t i).pduId = (t j).pduId → i = j
  distinct : (outstanding.map (·.pduId)).Nodup

section Table

variable {t : IndicationTable} {outstanding : List Packet}

theorem Tabled.eq_of_pduId (h : Tabled t outstanding) {x y : Packet} (hx : x ∈ outstanding)
    (hy : y ∈ outstanding) (hPdu : x.pduId = y.pduId) : x = y :=
  List.inj_on_of_nodup_map h.distinct hx hy hPdu

theorem Tabled.exists_free (h : Tabled t outstanding)
    (hRoom : outstanding.length < maxSentPacketWithIndication) : ∃ i, t.firstFree = some i := by
  by_contra hNone
  have hBusy : ∀ i, (t i).busy = true := by
    apply IndicationTable.firstFree_eq_none.mp
    exact Option.eq_none_iff_forall_ne_some.mpr fun i hi => hNone ⟨i, hi⟩
  have hNodup : ((List.finRange maxSentPacketWithIndication).map fun i => (t i).pduId).Nodup :=
    (List.nodup_finRange _).map fun i j hPdu => h.unique i j (hBusy i) (hBusy j) hPdu
  have hSubset : (List.finRange maxSentPacketWithIndication).map (fun i => (t i).pduId) ⊆
      outstanding.map (·.pduId) := by
    intro pduId hPdu
    obtain ⟨i, -, rfl⟩ := List.mem_map.mp hPdu
    obtain ⟨x, hx, -, -, hEq⟩ := h.busy i (hBusy i)
    exact List.mem_map.mpr ⟨x, hx, hEq.symm⟩
  have hLength := (hNodup.subperm hSubset).length_le
  rw [List.length_map, List.length_map, List.length_finRange] at hLength
  omega

theorem Tabled.enter (h : Tabled t outstanding) (x : Packet)
    (hRoom : outstanding.length < maxSentPacketWithIndication)
    (hFresh : ∀ y ∈ outstanding, y.pduId ≠ x.pduId) :
    Tabled (t.setIndicationCb x.call x.pduId).1 (outstanding ++ [x]) := by
  obtain ⟨i, hFree⟩ := h.exists_free hRoom
  have hIdle := IndicationTable.firstFree_eq_some hFree
  have hTable := congrArg Prod.fst (IndicationTable.setIndicationCb_of_free hFree x.call x.pduId)
  generalize (t.setIndicationCb x.call x.pduId).1 = t' at hTable ⊢
  have hSame : t' i = ⟨some x.call, x.pduId, true⟩ := by
    rw [hTable]
    exact Function.update_self i _ _
  have hOther : ∀ j, j ≠ i → t' j = t j := fun j hj => by
    rw [hTable]
    exact Function.update_of_ne hj _ _
  have hNew : WaitsFor t' i x := by
    rw [WaitsFor, hSame]
    exact ⟨rfl, rfl, rfl⟩
  have hKeep : ∀ j y, WaitsFor t j y → WaitsFor t' j y := by
    intro j y hWaits
    have hj : j ≠ i := by
      rintro rfl
      rw [WaitsFor, hIdle] at hWaits
      cases hWaits.1
    rw [WaitsFor, hOther j hj]
    exact hWaits
  have hApart : ∀ j, j ≠ i → (t' j).busy = true → (t' j).pduId ≠ x.pduId := by
    intro j hj hBusy
    rw [hOther j hj] at hBusy ⊢
    obtain ⟨y, hy, -, -, hPdu⟩ := h.busy j hBusy
    rw [hPdu]
    exact hFresh y hy
  constructor
  case busy =>
    intro j hBusy
    rcases eq_or_ne j i with rfl | hj
    · exact ⟨x, List.mem_append_right _ List.mem_cons_self, hNew⟩
    · rw [hOther j hj] at hBusy
      obtain ⟨y, hy, hWaits⟩ := h.busy j hBusy
      exact ⟨y, List.mem_append_left _ hy, hKeep j y hWaits⟩
  case entered =>
    intro y hy
    rcases List.mem_append.mp hy with hy | hy
    · obtain ⟨j, hWaits⟩ := h.entered y hy
      exact ⟨j, hKeep j y hWaits⟩
    · rw [List.mem_singleton.mp hy]
      exact ⟨i, hNew⟩
  case unique =>
    intro j k hj hk hPdu
    rcases eq_or_ne j i with rfl | hji
    · rcases eq_or_ne k j with rfl | hkj
      · rfl
      · exact absurd (hPdu.symm.trans (congrArg (·.pduId) hSame)) (hApart k hkj hk)
    · rcases eq_or_ne k i with rfl | hki
      · exact absurd (hPdu.trans (congrArg (·.pduId) hSame)) (hApart j hji hj)
      · rw [hOther j hji] at hj hPdu
        rw [hOther k hki] at hk hPdu
        exact h.unique j k hj hk hPdu
  case distinct =>
    rw [List.map_append, List.nodup_append]
    refine ⟨h.distinct, List.nodup_singleton _, ?_⟩
    intro a ha b hb hEq
    obtain ⟨y, hy, rfl⟩ := List.mem_map.mp ha
    rw [List.map_singleton, List.mem_singleton] at hb
    exact hFresh y hy (hEq.trans hb)

theorem Tabled.release (h : Tabled t outstanding) {x : Packet} {i : Slot} (hx : x ∈ outstanding)
    (hWaits : WaitsFor t i x) : Tabled (t.release i) (outstanding.erase x) := by
  obtain ⟨hBusy, -, hPdu⟩ := hWaits
  have hNodup : outstanding.Nodup := h.distinct.of_map
  have hApart : ∀ j, (t.release i j).busy = true → j ≠ i := by
    rintro j hBusyJ rfl
    rw [IndicationTable.release, Function.update_self] at hBusyJ
    cases hBusyJ
  constructor
  case busy =>
    intro j hBusyJ
    have hj := hApart j hBusyJ
    rw [IndicationTable.release_other hj] at hBusyJ
    obtain ⟨y, hy, hWaits⟩ := h.busy j hBusyJ
    refine ⟨y, (hNodup.mem_erase_iff).mpr ⟨?_, hy⟩, hWaits.release hj⟩
    rintro rfl
    exact hj (h.unique j i hBusyJ hBusy (hWaits.2.2.trans hPdu.symm))
  case entered =>
    intro y hy
    obtain ⟨hNe, hIn⟩ := (hNodup.mem_erase_iff).mp hy
    obtain ⟨j, hWaits⟩ := h.entered y hIn
    have hj : j ≠ i := by
      rintro rfl
      exact hNe (h.eq_of_pduId hIn hx (hWaits.2.2.symm.trans hPdu))
    exact ⟨j, hWaits.release hj⟩
  case unique =>
    intro j k hj hk hEq
    have hji := hApart j hj
    have hki := hApart k hk
    rw [IndicationTable.release_other hji] at hj hEq
    rw [IndicationTable.release_other hki] at hk hEq
    exact h.unique j k hj hk hEq
  case distinct => exact h.distinct.sublist (List.erase_sublist.map _)

end Table

structure Inv (s : SentRun) : Prop where
  busy : ∀ i, (s.sender.table i).busy = true → ∃ x ∈ s.outstanding, WaitsFor s.sender.table i x
  entered : ∀ x ∈ s.outstanding, ∃ i, WaitsFor s.sender.table i x
  unique : ∀ i j, (s.sender.table i).busy = true → (s.sender.table j).busy = true →
    (s.sender.table i).pduId = (s.sender.table j).pduId → i = j
  distinct : (s.outstanding.map (·.pduId)).Nodup
  known : ∀ x ∈ s.outstanding, x ∈ s.accepted
  numbered : ∀ x ∈ s.accepted, x.call < s.calls
  single : ∀ x ∈ s.accepted, ∀ y ∈ s.accepted, x.call = y.call → x = y
  past : ∀ x ∈ s.invoked, x.call < s.calls
  once : s.InvokedOnce

theorem inv_init : Inv init where
  busy _ h := by cases h
  entered _ h := by cases h
  unique _ _ h := by cases h
  distinct := List.nodup_nil
  known _ h := by cases h
  numbered _ h := by cases h
  single _ h := by cases h
  past _ h := by cases h
  once _ h := by cases h

variable {s t : SentRun}

theorem Inv.tabled (h : Inv s) : Tabled s.sender.table s.outstanding :=
  ⟨h.busy, h.entered, h.unique, h.distinct⟩

theorem Inv.send_refused (h : Inv s) (sender : Sender) (hTable : sender.table = s.sender.table) :
    Inv { s with sender, calls := s.calls + 1 } where
  busy := by rw [hTable]; exact h.busy
  entered := by rw [hTable]; exact h.entered
  unique := by rw [hTable]; exact h.unique
  distinct := h.distinct
  known := h.known
  numbered x hx := Nat.lt_succ_of_lt (h.numbered x hx)
  single := h.single
  past x hx := Nat.lt_succ_of_lt (h.past x hx)
  once := h.once

theorem Inv.send_accepted (h : Inv s) {pduId : UInt16} (sender : Sender)
    (hTable : sender.table = (s.sender.table.setIndicationCb s.calls pduId).1)
    (hRoom : s.outstanding.length < maxSentPacketWithIndication)
    (hFresh : ∀ x ∈ s.outstanding, x.pduId ≠ pduId) :
    Inv { s with
      sender
      calls := s.calls + 1
      accepted := s.accepted ++ [⟨s.calls, pduId⟩]
      outstanding := s.outstanding ++ [⟨s.calls, pduId⟩] } := by
  have hTabled : Tabled sender.table (s.outstanding ++ [⟨s.calls, pduId⟩]) := by
    rw [hTable]
    exact h.tabled.enter ⟨s.calls, pduId⟩ hRoom hFresh
  have hUnknown : (⟨s.calls, pduId⟩ : Packet) ∉ s.accepted := fun hOld =>
    absurd (h.numbered _ hOld) (Nat.lt_irrefl _)
  constructor
  case busy => exact hTabled.busy
  case entered => exact hTabled.entered
  case unique => exact hTabled.unique
  case distinct => exact hTabled.distinct
  case known =>
    intro x hx
    rcases List.mem_append.mp hx with hx | hx
    · exact List.mem_append_left _ (h.known x hx)
    · exact List.mem_append_right _ hx
  case numbered =>
    intro x hx
    rcases List.mem_append.mp hx with hx | hx
    · exact Nat.lt_succ_of_lt (h.numbered x hx)
    · rw [List.mem_singleton.mp hx]
      exact Nat.lt_succ_self _
  case single =>
    intro x hx y hy hCall
    rcases List.mem_append.mp hx with hx | hx <;> rcases List.mem_append.mp hy with hy | hy
    · exact h.single x hx y hy hCall
    · rw [List.mem_singleton.mp hy] at hCall
      exact absurd (h.numbered x hx) (by rw [hCall]; exact Nat.lt_irrefl _)
    · rw [List.mem_singleton.mp hx] at hCall
      exact absurd (h.numbered y hy) (by rw [← hCall]; exact Nat.lt_irrefl _)
    · rw [List.mem_singleton.mp hx, List.mem_singleton.mp hy]
  case past => exact fun x hx => Nat.lt_succ_of_lt (h.past x hx)
  case once =>
    intro x hx
    rcases List.mem_append.mp hx with hx | hx
    · have hNe : x ≠ ⟨s.calls, pduId⟩ := fun hEq => hUnknown (hEq ▸ hx)
      simp only [h.once x hx, List.mem_append, List.mem_singleton, hNe, or_false]
    · obtain rfl := List.mem_singleton.mp hx
      rw [if_pos (List.mem_append_right _ List.mem_cons_self), List.filter_eq_nil_iff]
      intro y hy
      have := h.past y hy
      simp only [decide_eq_true_eq]
      omega

theorem Inv.indicate (h : Inv s) {x : Packet} (hx : x ∈ s.outstanding) :
    ∃ i, s.sender.table.getIndicationCb x.pduId = (s.sender.table.release i, some x.call) ∧
      Inv { s with
        sender := { s.sender with table := s.sender.table.release i }
        outstanding := s.outstanding.erase x
        invoked := s.invoked ++ [x] } := by
  obtain ⟨i, hBusy, hCb, hPdu⟩ := h.entered x hx
  have hTabled := h.tabled.release hx ⟨hBusy, hCb, hPdu⟩
  have hHolds : s.sender.table.Holds x.pduId i := ⟨hBusy, hPdu⟩
  have hLookup := IndicationTable.getIndicationCb_of_unique hHolds fun j hj =>
    h.unique j i hj.1 hBusy (hj.2.trans hPdu.symm)
  rw [hCb] at hLookup
  have hNodup : s.outstanding.Nodup := h.distinct.of_map
  refine ⟨i, hLookup, ?_⟩
  constructor
  case busy => exact hTabled.busy
  case entered => exact hTabled.entered
  case unique => exact hTabled.unique
  case distinct => exact hTabled.distinct
  case known => exact fun y hy => h.known y (List.mem_of_mem_erase hy)
  case numbered => exact h.numbered
  case single => exact h.single
  case past =>
    intro y hy
    rcases List.mem_append.mp hy with hy | hy
    · exact h.past y hy
    · rw [List.mem_singleton.mp hy]
      exact h.numbered x (h.known x hx)
  case once =>
    intro y hy
    rw [List.filter_append, h.once y hy]
    rcases eq_or_ne y x with rfl | hNe
    · have hGone : y ∉ s.outstanding.erase y := fun hIn =>
        ((hNodup.mem_erase_iff).mp hIn).1 rfl
      simp [hx, hGone]
    · have hCall : x.call ≠ y.call := fun hEq =>
        hNe (h.single y hy x (h.known x hx) hEq.symm)
      simp [hNodup.mem_erase_iff, hNe, hCall]

theorem Inv.step (h : Inv s) {e : Event} (hRoom : s.HasRoom e) (hStep : s.step e = some t) :
    Inv t := by
  cases e with
  | send mtu tx answer =>
    simp only [SentRun.step] at hStep
    split at hStep
    · cases hStep
    · next sender sent result hCall =>
      rcases dsapDataTxRequest_cases s.calls rfl hCall with
        ⟨hZero, hTaken, hTable⟩ | ⟨hNonzero, hTable⟩
      · rw [if_pos hZero] at hStep
        cases hStep
        obtain ⟨hLess, hFresh⟩ := hRoom hTaken
        exact h.send_accepted sender hTable hLess hFresh
      · rw [if_neg hNonzero] at hStep
        cases hStep
        exact h.send_refused sender hTable
  | indicate packet payload =>
    simp only [SentRun.step] at hStep
    split at hStep
    · next hKnown =>
      obtain ⟨hx, hPdu⟩ := hKnown
      obtain ⟨i, hLookup, hInv⟩ := h.indicate hx
      rw [dsapDataTxIndicationHandler, hPdu, hLookup] at hStep
      cases hStep
      exact hInv
    · cases hStep

end SentRun

/-- In every run in which packets are accepted only while the table has room for them and
their pdu ids are distinct, every callback is called once, by the indication of its packet;
a call that returns non-zero never enters anything. -/
theorem sent_callbacks_once (events : List SentRun.Event) (t : SentRun)
    (hRoom : Meets SentRun.step SentRun.HasRoom .init events)
    (hRun : run SentRun.step .init events = some t) :
    t.InvokedOnce ∧ ∀ mtu answer sender sent result tx,
      dsapDataTxRequest mtu t.sender (t.tracked tx) answer = some (sender, sent, result) →
        result ≠ 0 → sender.table = t.sender.table := by
  constructor
  · have hInv : SentRun.Inv t :=
      run_invariant (fun _ _ _ h hCond hStep => h.step hCond hStep) SentRun.inv_init hRoom hRun
    exact hInv.once
  · intro mtu answer sender sent result tx hCall hNonzero
    rcases dsapDataTxRequest_cases t.calls rfl hCall with ⟨hZero, -⟩ | ⟨-, hTable⟩
    · exact absurd hZero hNonzero
    · exact hTable

def sendByte (pduId : UInt16) : SentRun.Event :=
  .send 102 ⟨[1], pduId, 9, 0, 1, 1, none, 0, false, 0⟩ fun _ => ⟨0, 0⟩

def indicateSent (call : Nat) (pduId : UInt16) : SentRun.Event :=
  .indicate ⟨call, pduId⟩ ⟨0, pduId, 1, 9, 1, 0, 0⟩

def twoPackets : List SentRun.Event :=
  [sendByte 5, sendByte 6, indicateSent 1 6, indicateSent 0 5]

theorem sent_callbacks_once_two :
    ∃ t, run SentRun.step .init twoPackets = some t ∧ t.InvokedOnce :=
  ⟨_, rfl, (sent_callbacks_once twoPackets _ (by decide) rfl).1⟩

def seventeenPackets : List SentRun.Event :=
  (List.range 17).map (fun k => sendByte (.ofNat k)) ++
    (List.range 17).map fun k => indicateSent k (.ofNat k)

/-- The seventeenth packet finds no slot, and its callback is never called. -/
theorem seventeenth_callback_lost :
    ¬ ∀ (events : List SentRun.Event) (t : SentRun),
      run SentRun.step .init events = some t → t.InvokedOnce := by
  intro h
  have hLost : (run SentRun.step .init seventeenPackets).any (fun t => ¬ t.InvokedOnce) = true := by
    decide +kernel
  obtain ⟨t, hRun, hNot⟩ := (Option.any_eq_true _ _).mp hLost
  exact of_decide_eq_true hNot (h _ t hRun)

end CMeshApi.Dsap
