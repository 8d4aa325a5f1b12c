import CMeshApi.Dsap.IndicationTable
import CMeshApi.Foundations.Machine
import Mathlib.Data.List.Perm.Subperm
import Mathlib.Order.WellFounded

/-!
# Callbacks of sent packets, with the threads interleaved

An application thread sends one packet after the other, the polling thread fetches
the indications from the node, and the dispatch thread handles them. A request and
a fetch are atomic under their locks; the table of callbacks is read and written
without a lock, one field at a time.

Three races lose a callback: a lookup that passes the slot of its packet before the
entry there is complete, a slot that is given away between its release and the
reading of its callback, and a slot that is being filled and still shows the pdu
id of an earlier packet. Without these, every callback is called once.
-/

namespace CMeshApi.Dsap

open Machine

/-- Where the application thread is in `set_indication_cb`. -/
inductive AppPc where
  | idle
  | scan (p : Packet) (k : Nat)
  | setBusy (p : Packet) (i : Slot)
  | setCb (p : Packet) (i : Slot)
  | setPdu (p : Packet) (i : Slot)
deriving DecidableEq, Repr

/-- Where the dispatch thread is in `get_indication_cb`, for the indication of a packet. -/
inductive DispatchPc where
  | idle
  | testBusy (p : Packet) (k : Nat) (cb : Option OnDataSentCb)
  | testPdu (p : Packet) (i : Slot) (cb : Option OnDataSentCb)
  | release (p : Packet) (i : Slot)
  | readCb (p : Packet) (i : Slot)
deriving DecidableEq, Repr

structure Handled where
  packet : Packet
  invoked : Option OnDataSentCb
deriving DecidableEq, Repr

structure Race where
  table : IndicationTable
  app : AppPc
  dispatcher : DispatchPc
  /-- The indications that the node holds. -/
  pending : List Packet
  queue : List Packet
  /-- The accepted packets whose indication is not handled yet. -/
  outstanding : List Packet
  calls : Nat
  owner : Slot → Option Packet
  handled : List Handled

namespace Race

def init : Race := ⟨.init, .idle, .idle, [], [], [], 0, fun _ => none, []⟩

inductive Event where
  /-- A packet is sent, and the stack accepts it; one that it refuses leaves no trace here. -/
  | send (pduId : UInt16)
  | app
  | fetch (p : Packet)
  | pick
  | dispatch

def appStep (s : Race) : Option Race :=
  match s.app with
  | .idle => none
  | .scan p k =>
    if h : k < maxSentPacketWithIndication then
      if (s.table ⟨k, h⟩).busy then some { s with app := .scan p (k + 1) }
      else some { s with app := .setBusy p ⟨k, h⟩ }
    else some { s with app := .idle }
  | .setBusy p i => some { s with
      table := Function.update s.table i { s.table i with busy := true }
      owner := Function.update s.owner i (some p)
      app := .setCb p i }
  | .setCb p i => some { s with
      table := Function.update s.table i { s.table i with cb := some p.call }
      app := .setPdu p i }
  | .setPdu p i => some { s with
      table := Function.update s.table i { s.table i with pduId := p.pduId }
      app := .idle }

/-- The loop ends at the first index beyond the table, with the call of the callback found. -/
def dispatchStep (s : Race) : Option Race :=
  match s.dispatcher with
  | .idle => none
  | .testBusy p k cb =>
    if h : k < maxSentPacketWithIndication then
      if (s.table ⟨k, h⟩).busy then some { s with dispatcher := .testPdu p ⟨k, h⟩ cb }
      else some { s with dispatcher := .testBusy p (k + 1) cb }
    else some { s with
      dispatcher := .idle
      outstanding := s.outstanding.erase p
      handled := s.handled ++ [⟨p, cb⟩] }
  | .testPdu p i cb =>
    if (s.table i).pduId = p.pduId then some { s with dispatcher := .release p i }
    else some { s with dispatcher := .testBusy p (i + 1) cb }
  | .release p i => some { s with
      table := s.table.release i
      owner := Function.update s.owner i none
      dispatcher := .readCb p i }
  | .readCb p i => some { s with dispatcher := .testBusy p (i + 1) (s.table i).cb }

/-- The application keeps to the size of the table, and to distinct pdu ids. -/
def step (s : Race) : Event → Option Race
  | .send pduId =>
    if s.app = .idle ∧ s.outstanding.length < maxSentPacketWithIndication ∧
        ∀ x ∈ s.outstanding, x.pduId ≠ pduId then
      some { s with
        app := .scan ⟨s.calls, pduId⟩ 0
        pending := s.pending ++ [⟨s.calls, pduId⟩]
        outstanding := s.outstanding ++ [⟨s.calls, pduId⟩]
        calls := s.calls + 1 }
    else none
  | .app => s.appStep
  | .fetch p =>
    if p ∈ s.pending then
      some { s with pending := s.pending.erase p, queue := s.queue ++ [p] }
    else none
  | .pick =>
    match s.dispatcher, s.queue with
    | .idle, p :: rest => some { s with queue := rest, dispatcher := .testBusy p 0 none }
    | _, _ => none
  | .dispatch => s.dispatchStep

end Race

def AppPc.packet : AppPc → Option Packet
  | .idle => none
  | .scan p _ => some p
  | .setBusy p _ => some p
  | .setCb p _ => some p
  | .setPdu p _ => some p

/-- The slot is marked busy, and does not show the pdu id of its packet yet. -/
def AppPc.Fills : AppPc → Slot → Prop
  | .setCb _ i, j => i = j
  | .setPdu _ i, j => i = j
  | _, _ => False

/-- The packet is being registered, and this is its slot: the first free one ahead, as long as no
other is released. -/
def AppPc.Enters (table : IndicationTable) : AppPc → Packet → Slot → Prop
  | .idle, _, _ => False
  | .scan p k, q, j => p = q ∧ k ≤ j.val ∧ (table j).busy = false ∧
      ∀ i : Slot, k ≤ i.val → i < j → (table i).busy = true
  | .setBusy p i, q, j => p = q ∧ i = j
  | .setCb p i, q, j => p = q ∧ i = j
  | .setPdu p i, q, j => p = q ∧ i = j

def AppPc.writes : AppPc → Option Slot
  | .setCb _ i => some i
  | _ => none

def DispatchPc.packet : DispatchPc → Option Packet
  | .idle => none
  | .testBusy p _ _ => some p
  | .testPdu p _ _ => some p
  | .release p _ => some p
  | .readCb p _ => some p

/-- The slot that is released, and whose callback is not read yet. -/
def DispatchPc.reads : DispatchPc → Option Slot
  | .readCb _ i => some i
  | _ => none

/-- The slot whose pdu id is compared next, and the packet it is compared for. -/
def DispatchPc.compares : DispatchPc → Option (Packet × Slot)
  | .testPdu p i _ => some (p, i)
  | _ => none

/-- The slot that the lookup leaves behind with its next step, and the packet it looks for. -/
def DispatchPc.passes (table : IndicationTable) : DispatchPc → Option (Packet × Slot)
  | .testBusy p k _ =>
    if h : k < maxSentPacketWithIndication then
      if (table ⟨k, h⟩).busy then none else some (p, ⟨k, h⟩)
    else none
  | .testPdu p i _ => if (table i).pduId = p.pduId then none else some (p, i)
  | _ => none

instance (a : AppPc) (i : Slot) : Decidable (a.Fills i) := by
  cases a <;> unfold AppPc.Fills <;> infer_instance

instance (table : IndicationTable) (a : AppPc) (p : Packet) (i : Slot) :
    Decidable (a.Enters table p i) := by
  cases a <;> unfold AppPc.Enters <;> infer_instance

theorem AppPc.Enters.packet {table : IndicationTable} {a : AppPc} {p : Packet} {j : Slot}
    (h : a.Enters table p j) : a.packet = some p := by
  cases a with
  | idle => exact h.elim
  | scan q k | setBusy q k | setCb q k | setPdu q k => exact congrArg some h.1

theorem AppPc.enters_of_fills {table : IndicationTable} {a : AppPc} {p : Packet} {i : Slot}
    (hPacket : a.packet = some p) (hFills : a.Fills i) : a.Enters table p i := by
  cases a with
  | setCb q j | setPdu q j => exact ⟨Option.some.inj hPacket, hFills⟩
  | _ => exact absurd hFills id

theorem AppPc.Enters.eq_of_fills {table : IndicationTable} {a : AppPc} {p : Packet} {i j : Slot}
    (h : a.Enters table p j) (hFills : a.Fills i) : i = j := by
  cases a with
  | setCb q k | setPdu q k =>
    obtain rfl : k = i := hFills
    exact h.2
  | _ => exact absurd hFills id

namespace Race

/-- The step takes part in none of the three races. -/
def Orderly (s : Race) : Event → Prop
  | .app => ∀ i ∈ s.app.writes, s.dispatcher.reads ≠ some i
  | .dispatch =>
    (∀ q ∈ s.dispatcher.passes s.table, ¬ s.app.Enters s.table q.1 q.2) ∧
      ∀ q ∈ s.dispatcher.compares, s.app.Fills q.2 → (s.table q.2).pduId ≠ q.1.pduId
  | _ => True

instance (s : Race) (e : Event) : Decidable (s.Orderly e) := by
  cases e <;> unfold Orderly <;> infer_instance

/-- The indication of every handled packet called the callback of the packet, which was called
for no other indication, and left no busy slot for it. -/
def CallbackOnce (s : Race) : Prop :=
  ∀ h ∈ s.handled,
    s.handled.filter (fun g => g.invoked = some h.packet.call) = [h] ∧
      ∀ i, (s.table i).busy = true → s.owner i ≠ some h.packet

instance (s : Race) : Decidable s.CallbackOnce := inferInstanceAs (Decidable (∀ h ∈ s.handled, _))

abbrev Owners := Slot → Option Packet

def Unentered (owner : Owners) (p : Packet) : Prop := ∀ i, owner i ≠ some p

/-- The application finds a free slot ahead, and the slot it fills is its own. -/
def Registering (table : IndicationTable) (owner : Owners) : AppPc → Prop
  | .idle => True
  | .scan p k => Unentered owner p ∧ ∃ j : Slot, k ≤ j.val ∧ (table j).busy = false
  | .setBusy p i => Unentered owner p ∧ (table i).busy = false
  | .setCb p i => owner i = some p
  | .setPdu p i => owner i = some p ∧ (table i).cb = some p.call

/-- The entry of the packet is in the slot, or is to be made there. -/
def Expected (table : IndicationTable) (owner : Owners) (a : AppPc) (p : Packet) (j : Slot) : Prop :=
  owner j = some p ∨ a.Enters table p j

/-- The entry of the packet was made, and is gone. -/
def Taken (owner : Owners) (a : AppPc) (p : Packet) : Prop := Unentered owner p ∧ a.packet ≠ some p

/-- The slot of the packet is still ahead, or its callback is found and the slot released. -/
def Seeks (table : IndicationTable) (owner : Owners) (a : AppPc) (p : Packet) (k : Nat)
    (cb : Option OnDataSentCb) : Prop :=
  (cb = none ∧ ∃ j : Slot, k ≤ j.val ∧ Expected table owner a p j) ∨ (cb = some p.call ∧ Taken owner a p)

def Looking (table : IndicationTable) (owner : Owners) (a : AppPc) : DispatchPc → Prop
  | .idle => True
  | .testBusy p k cb => Seeks table owner a p k cb
  | .testPdu p i cb => owner i ≠ none ∧ Seeks table owner a p i cb
  | .release p i => owner i = some p ∧ a.packet ≠ some p
  | .readCb p i => Taken owner a p ∧ (table i).cb = some p.call

def indications (s : Race) : List Packet := s.dispatcher.packet.toList ++ s.queue ++ s.pending

structure Books (s : Race) : Prop where
  distinct : (s.outstanding.map (·.pduId)).Nodup
  numbered : ∀ x ∈ s.outstanding, x.call < s.calls
  single : ∀ x ∈ s.outstanding, ∀ y ∈ s.outstanding, x.call = y.call → x = y
  nodup : s.indications.Nodup
  indicated : ∀ x ∈ s.indications, x ∈ s.outstanding
  registering : ∀ p, s.app.packet = some p → p ∈ s.outstanding
  past : ∀ h ∈ s.handled, h.packet.call < s.calls ∧ ∀ x ∈ s.outstanding, x.call ≠ h.packet.call
  once : ∀ h ∈ s.handled, s.handled.filter (fun g => g.invoked = some h.packet.call) = [h]

structure Entries (s : Race) : Prop where
  busy_iff : ∀ i, (s.table i).busy = true ↔ s.owner i ≠ none
  owned : ∀ i p, s.owner i = some p → p ∈ s.outstanding
  inj : ∀ i j p, s.owner i = some p → s.owner j = some p → i = j
  complete : ∀ i p, s.owner i = some p → ¬ s.app.Fills i →
    (s.table i).cb = some p.call ∧ (s.table i).pduId = p.pduId
  entered : ∀ p ∈ s.outstanding, s.app.packet ≠ some p → s.dispatcher.packet ≠ some p →
    ∃ i, s.owner i = some p

structure Inv (s : Race) : Prop where
  books : Books s
  entries : Entries s
  app : Registering s.table s.owner s.app
  dispatch : Looking s.table s.owner s.app s.dispatcher

theorem inv_init : Inv init where
  books :=
    { distinct := List.nodup_nil
      numbered := fun _ h => by cases h
      single := fun _ h => by cases h
      nodup := List.nodup_nil
      indicated := fun _ h => by cases h
      registering := fun _ h => by cases h
      past := fun _ h => by cases h
      once := fun _ h => by cases h }
  entries :=
    { busy_iff := fun _ => by simp [init, IndicationTable.init]
      owned := fun _ _ h => by cases h
      inj := fun _ _ _ h => by cases h
      complete := fun _ _ h => by cases h
      entered := fun _ h => by cases h }
  app := trivial
  dispatch := trivial

variable {s t : Race}

theorem Entries.busy_of_owner (h : Entries s) {i : Slot} {p : Packet} (hOwner : s.owner i = some p) :
    (s.table i).busy = true := by
  rw [h.busy_iff, hOwner]
  exact Option.some_ne_none p

theorem Entries.owner_of_free (h : Entries s) {i : Slot} (hFree : (s.table i).busy = false) :
    s.owner i = none := by
  by_contra hOwner
  have hBusy := (h.busy_iff i).mpr hOwner
  rw [hFree] at hBusy
  cases hBusy

theorem owner_of_fills {table : IndicationTable} {owner : Owners} {a : AppPc} {i : Slot}
    (h : Registering table owner a) (hFills : a.Fills i) :
    ∃ p, a.packet = some p ∧ owner i = some p := by
  cases a with
  | setCb p j =>
    obtain rfl : j = i := hFills
    exact ⟨p, rfl, h⟩
  | setPdu p j =>
    obtain rfl : j = i := hFills
    exact ⟨p, rfl, h.1⟩
  | _ => exact absurd hFills id

theorem Inv.eq_of_pduId (h : Inv s) {p q : Packet} (hp : p ∈ s.outstanding)
    (hq : q ∈ s.outstanding) (hPdu : p.pduId = q.pduId) : p = q :=
  List.inj_on_of_nodup_map h.books.distinct hp hq hPdu

theorem Inv.handled_known (h : Inv s) {p : Packet} (hp : s.dispatcher.packet = some p) :
    p ∈ s.outstanding := by
  apply h.books.indicated
  simp [indications, hp]

theorem Inv.complete_of_registered (h : Inv s) {p : Packet} {i : Slot}
    (hp : s.app.packet ≠ some p) (hOwner : s.owner i = some p) :
    (s.table i).cb = some p.call ∧ (s.table i).pduId = p.pduId := by
  refine h.entries.complete i p hOwner fun hFills => ?_
  obtain ⟨q, hq, hOwned⟩ := owner_of_fills h.app hFills
  obtain rfl : q = p := Option.some.inj (hOwned.symm.trans hOwner)
  exact hp hq

/-- The slot that a packet is in, while it is being registered, is the one being filled. -/
theorem fills_of_owner (hApp : Registering s.table s.owner s.app) (h : Entries s) {p : Packet} {i : Slot}
    (hPacket : s.app.packet = some p) (hOwner : s.owner i = some p) : s.app.Fills i := by
  cases hPc : s.app with
  | idle =>
    rw [hPc] at hPacket
    cases hPacket
  | scan q k | setBusy q k =>
    rw [hPc] at hPacket hApp
    obtain rfl := Option.some.inj hPacket
    exact absurd hOwner (hApp.1 i)
  | setCb q j =>
    rw [hPc] at hPacket hApp
    obtain rfl := Option.some.inj hPacket
    exact h.inj j i q hApp hOwner
  | setPdu q j =>
    rw [hPc] at hPacket hApp
    obtain rfl := Option.some.inj hPacket
    exact h.inj j i q hApp.1 hOwner

/-- Every packet that is not handled yet is in a slot, or on the way to one. -/
theorem Inv.expected (h : Inv s) {p : Packet} (hp : p ∈ s.outstanding)
    (hDispatch : s.dispatcher.packet ≠ some p) : ∃ j, Expected s.table s.owner s.app p j := by
  by_cases hPacket : s.app.packet = some p
  · have hApp := h.app
    cases hPc : s.app with
    | idle =>
      rw [hPc] at hPacket
      cases hPacket
    | scan q k =>
      rw [hPc] at hPacket hApp
      obtain rfl := Option.some.inj hPacket
      obtain ⟨-, j, hj⟩ := hApp
      obtain ⟨i, ⟨hAhead, hFree⟩, hFirst⟩ :=
        WellFounded.has_min (wellFounded_lt (α := Slot)) {j | k ≤ j.val ∧ (s.table j).busy = false} ⟨j, hj⟩
      refine ⟨i, Or.inr ⟨rfl, hAhead, hFree, fun m hm hLess => ?_⟩⟩
      exact Bool.of_not_eq_false fun hIdle => hFirst m ⟨hm, hIdle⟩ hLess
    | setBusy q i | setCb q i | setPdu q i =>
      rw [hPc] at hPacket
      exact ⟨i, Or.inr ⟨Option.some.inj hPacket, rfl⟩⟩
  · obtain ⟨i, hOwner⟩ := h.entries.entered p hp hPacket hDispatch
    exact ⟨i, Or.inl hOwner⟩

/-- What a lookup relies on: the slot of its packet, and a callback it is about to read. -/
theorem Looking.mono {table table' : IndicationTable} {owner owner' : Owners} {a a' : AppPc}
    {d : DispatchPc} (h : Looking table owner a d)
    (hOwner : ∀ p j, owner j = some p → owner' j = some p)
    (hTaken : ∀ p, d.packet = some p → Taken owner a p → Taken owner' a' p)
    (hPacket : ∀ p, d.packet = some p → a'.packet = some p → a.packet = some p)
    (hExpected : ∀ p j, a.Enters table p j → Expected table' owner' a' p j)
    (hCb : ∀ j, d.reads = some j → (table' j).cb = (table j).cb) : Looking table' owner' a' d := by
  have hSeeks : ∀ p k cb, d.packet = some p → Seeks table owner a p k cb → Seeks table' owner' a' p k cb := by
    rintro p k cb hp (⟨hCbNone, j, hj, hOwned | hEnters⟩ | ⟨hFound, hGone⟩)
    · exact Or.inl ⟨hCbNone, j, hj, Or.inl (hOwner p j hOwned)⟩
    · exact Or.inl ⟨hCbNone, j, hj, hExpected p j hEnters⟩
    · exact Or.inr ⟨hFound, hTaken p hp hGone⟩
  cases d with
  | idle => trivial
  | testBusy p k cb => exact hSeeks p k cb rfl h
  | testPdu p i cb =>
    obtain ⟨q, hq⟩ := Option.ne_none_iff_exists'.mp h.1
    exact ⟨Option.ne_none_iff_exists'.mpr ⟨q, hOwner q i hq⟩, hSeeks p i cb rfl h.2⟩
  | release p i => exact ⟨hOwner p i h.1, fun hApp => h.2 (hPacket p rfl hApp)⟩
  | readCb p i => exact ⟨hTaken p rfl h.1, (hCb i rfl).trans h.2⟩

theorem Entries.exists_free (h : Entries s)
    (hRoom : s.outstanding.length < maxSentPacketWithIndication) :
    ∃ j, (s.table j).busy = false := by
  by_contra hNone
  have hOwner : ∀ i, ∃ p, s.owner i = some p := fun i => by
    refine Option.ne_none_iff_exists'.mp ((h.busy_iff i).mp ?_)
    exact Bool.of_not_eq_false fun hFree => hNone ⟨i, hFree⟩
  choose packet hPacket using hOwner
  have hNodup : ((List.finRange maxSentPacketWithIndication).map packet).Nodup := by
    refine (List.nodup_finRange _).map fun i j hEq => ?_
    exact h.inj i j (packet i) (hPacket i) (by rw [hPacket j, hEq])
  have hSubset : (List.finRange maxSentPacketWithIndication).map packet ⊆ s.outstanding := by
    intro p hp
    obtain ⟨i, -, rfl⟩ := List.mem_map.mp hp
    exact h.owned i _ (hPacket i)
  have hLength := (hNodup.subperm hSubset).length_le
  rw [List.length_map, List.length_finRange] at hLength
  omega

theorem Books.send (h : Books s) {pduId : UInt16} (a : AppPc)
    (hPacket : a.packet = some ⟨s.calls, pduId⟩)
    (hFresh : ∀ x ∈ s.outstanding, x.pduId ≠ pduId) :
    Books { s with
      app := a
      pending := s.pending ++ [⟨s.calls, pduId⟩]
      calls := s.calls + 1
      outstanding := s.outstanding ++ [⟨s.calls, pduId⟩] } := by
  constructor
  case distinct =>
    rw [List.map_append, List.nodup_append]
    refine ⟨h.distinct, List.nodup_singleton _, ?_⟩
    intro a ha b hb hEq
    obtain ⟨x, hx, rfl⟩ := List.mem_map.mp ha
    rw [List.map_singleton, List.mem_singleton] at hb
    exact hFresh x hx (hEq.trans hb)
  case numbered =>
    intro x hx
    rcases List.mem_append.mp hx with hx | hx
    · exact Nat.lt_succ_of_lt (h.numbered x hx)
    · rw [List.mem_singleton.mp hx]
      exact Nat.lt_succ_self _
  case single =>
    intro x hx y hy hCall
    rcases List.mem_append.mp hx with hx | hx <;> rcases List.mem_append.mp hy with hy | hy
    · exact h.single x hx y hy hCall
    · rw [List.mem_singleton.mp hy] at hCall
      exact absurd (h.numbered x hx) (by rw [hCall]; exact Nat.lt_irrefl _)
    · rw [List.mem_singleton.mp hx] at hCall
      exact absurd (h.numbered y hy) (by rw [← hCall]; exact Nat.lt_irrefl _)
    · rw [List.mem_singleton.mp hx, List.mem_singleton.mp hy]
  case nodup =>
    change (s.dispatcher.packet.toList ++ s.queue ++ (s.pending ++ [_])).Nodup
    rw [← List.append_assoc, List.nodup_append]
    refine ⟨h.nodup, List.nodup_singleton _, ?_⟩
    intro x hx y hy
    rw [List.mem_singleton.mp hy]
    rintro rfl
    exact absurd (h.numbered _ (h.indicated _ hx)) (Nat.lt_irrefl _)
  case indicated =>
    intro x hx
    change x ∈ s.dispatcher.packet.toList ++ s.queue ++ (s.pending ++ [_]) at hx
    rw [← List.append_assoc] at hx
    rcases List.mem_append.mp hx with hx | hx
    · exact List.mem_append_left _ (h.indicated x hx)
    · exact List.mem_append_right _ hx
  case registering =>
    intro p hp
    obtain rfl := Option.some.inj (hPacket.symm.trans hp)
    exact List.mem_append_right _ List.mem_cons_self
  case past =>
    intro g hg
    obtain ⟨hLess, hApart⟩ := h.past g hg
    refine ⟨Nat.lt_succ_of_lt hLess, fun x hx => ?_⟩
    rcases List.mem_append.mp hx with hx | hx
    · exact hApart x hx
    · rw [List.mem_singleton.mp hx]
      exact Nat.ne_of_gt hLess
  case once => exact h.once

theorem Inv.send (h : Inv s) {pduId : UInt16} (hStep : s.step (.send pduId) = some t) : Inv t := by
  simp only [Race.step] at hStep
  split at hStep
  · next hGuard =>
    obtain ⟨hIdle, hRoom, hFresh⟩ := hGuard
    cases hStep
    have hNew : ∀ x ∈ s.outstanding, x ≠ ⟨s.calls, pduId⟩ := by
      rintro x hx rfl
      exact absurd (h.books.numbered _ hx) (Nat.lt_irrefl _)
    have hUnentered : Unentered s.owner ⟨s.calls, pduId⟩ := fun i hi =>
      hNew _ (h.entries.owned i _ hi) rfl
    obtain ⟨j, hFree⟩ := h.entries.exists_free hRoom
    constructor
    case books => exact h.books.send _ rfl hFresh
    case entries =>
      constructor
      case busy_iff => exact h.entries.busy_iff
      case owned => exact fun i p hp => List.mem_append_left _ (h.entries.owned i p hp)
      case inj => exact h.entries.inj
      case complete =>
        intro i p hp _
        exact h.entries.complete i p hp (by rw [hIdle]; exact id)
      case entered =>
        intro p hp hApp hDispatch
        rcases List.mem_append.mp hp with hp | hp
        · exact h.entries.entered p hp (by rw [hIdle]; exact (Option.some_ne_none p).symm) hDispatch
        · rw [List.mem_singleton.mp hp] at hApp
          exact absurd rfl hApp
    case app => exact ⟨hUnentered, j, Nat.zero_le _, hFree⟩
    case dispatch =>
      refine h.dispatch.mono (fun _ _ => id) (fun _ hp hTaken => ⟨hTaken.1, fun hApp => ?_⟩)
        (fun _ hp hApp => ?_) (fun _ _ hEnters => ?_) fun _ _ => rfl
      · obtain rfl := Option.some.inj hApp
        exact hNew _ (h.handled_known hp) rfl
      · obtain rfl := Option.some.inj hApp
        exact absurd rfl (hNew _ (h.handled_known hp))
      · rw [hIdle] at hEnters
        exact hEnters.elim
  · cases hStep

theorem Books.register (h : Books s) (table : IndicationTable) (owner : Owners) {a : AppPc}
    (hApp : ∀ p, a.packet = some p → s.app.packet = some p) :
    Books { s with table, owner, app := a } :=
  { h with registering := fun p hp => h.registering p (hApp p hp) }

theorem Inv.move (h : Inv s) {a : AppPc} (hPacket : a.packet = s.app.packet)
    (hFills : ∀ i, ¬ s.app.Fills i) (hApp : Registering s.table s.owner a)
    (hEnters : ∀ p j, s.app.Enters s.table p j → a.Enters s.table p j) :
    Inv { s with app := a } where
  books := h.books.register s.table s.owner fun _ hp => hPacket ▸ hp
  entries :=
    { h.entries with
      complete := fun i p hp _ => h.entries.complete i p hp (hFills i)
      entered := fun p hp hNot => h.entries.entered p hp (hPacket ▸ hNot) }
  app := hApp
  dispatch := h.dispatch.mono (fun _ _ => id)
    (fun _ _ hTaken => ⟨hTaken.1, fun hSame => hTaken.2 (hPacket.symm.trans hSame)⟩)
    (fun _ _ hSame => hPacket.symm.trans hSame) (fun p j h => Or.inr (hEnters p j h)) fun _ _ => rfl

theorem Inv.scan (h : Inv s) {p : Packet} {k : Nat} (hApp : s.app = .scan p k)
    (hStep : s.appStep = some t) : Inv t := by
  have hRegistering := h.app
  rw [hApp] at hRegistering
  obtain ⟨hUnentered, j, hj, hFree⟩ := hRegistering
  have hFills : ∀ i, ¬ s.app.Fills i := fun i => by
    rw [hApp]
    exact id
  simp only [appStep, hApp] at hStep
  split at hStep
  · next hk =>
    split at hStep
    · next hBusy =>
      cases hStep
      have hBehind : ∀ i : Slot, k ≤ i.val → (s.table i).busy = false → k + 1 ≤ i.val := by
        intro i hi hIdle
        refine Nat.lt_of_le_of_ne hi fun hEq => ?_
        obtain rfl : (⟨k, hk⟩ : Slot) = i := Fin.ext hEq
        rw [hIdle] at hBusy
        cases hBusy
      refine h.move (by rw [hApp]; rfl) hFills ⟨hUnentered, j, hBehind j hj hFree, hFree⟩ ?_
      rw [hApp]
      rintro q i ⟨rfl, hi, hIdle, hFirst⟩
      exact ⟨rfl, hBehind i hi hIdle, hIdle, fun m hm => hFirst m (Nat.le_of_succ_le hm)⟩
    · next hIdle =>
      cases hStep
      refine h.move (by rw [hApp]; rfl) hFills ⟨hUnentered, Bool.of_not_eq_true hIdle⟩ ?_
      rw [hApp]
      rintro q i ⟨rfl, hi, -, hFirst⟩
      refine ⟨rfl, Fin.ext (Nat.le_antisymm hi (Nat.le_of_not_lt fun hLess => hIdle ?_))⟩
      exact hFirst ⟨k, hk⟩ (Nat.le_refl k) hLess
  · next hk => exact absurd (Nat.lt_of_le_of_lt hj j.isLt) hk

theorem Inv.setBusy (h : Inv s) {p : Packet} {i : Slot} (hApp : s.app = .setBusy p i) :
    Inv { s with
      table := Function.update s.table i { s.table i with busy := true }
      owner := Function.update s.owner i (some p)
      app := .setCb p i } := by
  have hRegistering := h.app
  rw [hApp] at hRegistering
  obtain ⟨hUnentered, hFree⟩ := hRegistering
  have hNone := h.entries.owner_of_free hFree
  have hPacket : s.app.packet = some p := by rw [hApp]; rfl
  have hOwner : ∀ q, q ≠ p → ∀ j,
      Function.update s.owner i (some p) j = some q ↔ s.owner j = some q := by
    intro q hq j
    rcases eq_or_ne j i with rfl | hj
    · rw [Function.update_self, hNone]
      simp [hq.symm]
    · rw [Function.update_of_ne hj]
  constructor
  case books =>
    refine h.books.register _ _ fun q hq => ?_
    rw [hPacket]
    exact hq
  case entries =>
    constructor
    case busy_iff =>
      intro j
      rcases eq_or_ne j i with rfl | hj
      · simp
      · simp only [Function.update_of_ne hj]
        exact h.entries.busy_iff j
    case owned =>
      intro j q hq
      rcases eq_or_ne q p with rfl | hqp
      · exact h.books.registering q hPacket
      · exact h.entries.owned j q ((hOwner q hqp j).mp hq)
    case inj =>
      intro j k q hj hk
      rcases eq_or_ne q p with rfl | hqp
      · have hAt : ∀ m, Function.update s.owner i (some q) m = some q → m = i := by
          intro m hm
          by_contra hmi
          rw [Function.update_of_ne hmi] at hm
          exact hUnentered m hm
        rw [hAt j hj, hAt k hk]
      · exact h.entries.inj j k q ((hOwner q hqp j).mp hj) ((hOwner q hqp k).mp hk)
    case complete =>
      intro j q hq hFills
      have hj : j ≠ i := fun hEq => hFills hEq.symm
      simp only [Function.update_of_ne hj] at hq ⊢
      exact h.entries.complete j q hq (by rw [hApp]; exact id)
    case entered =>
      intro q hq hNot hDispatch
      obtain ⟨j, hj⟩ := h.entries.entered q hq (by rw [hPacket]; exact hNot) hDispatch
      exact ⟨j, (hOwner q (fun hEq => hNot (congrArg some hEq.symm)) j).mpr hj⟩
  case app => exact Function.update_self i _ _
  case dispatch =>
    refine h.dispatch.mono (fun q j hj => ?_) (fun q hq hTaken => ?_) (fun q _ hq => hPacket.trans hq)
      (fun q j hEnters => ?_) (fun j _ => ?_)
    · rcases eq_or_ne j i with rfl | hji
      · rw [hNone] at hj
        cases hj
      · exact (Function.update_of_ne hji _ _).trans hj
    · have hqp : q ≠ p := by
        rintro rfl
        exact hTaken.2 hPacket
      exact ⟨fun j hj => hTaken.1 j ((hOwner q hqp j).mp hj), fun hSame => hTaken.2 (hPacket.trans hSame)⟩
    · rw [hApp] at hEnters
      obtain ⟨rfl, rfl⟩ := hEnters
      exact Or.inl (Function.update_self _ _ _)
    · rcases eq_or_ne j i with rfl | hji
      · simp only [Function.update_self]
      · simp only [Function.update_of_ne hji]

theorem Inv.fill (h : Inv s) {p : Packet} {i : Slot} {e : PacketWithIndication} {a : AppPc}
    (hPacket : s.app.packet = some p) (hFills : ∀ j, s.app.Fills j ↔ i = j)
    (hBusy : e.busy = true) (hOwner : s.owner i = some p)
    (hReads : e.cb = (s.table i).cb ∨ s.dispatcher.reads ≠ some i)
    (hApp : Registering (Function.update s.table i e) s.owner a)
    (hNext : a.packet = some p ∧ (∀ j, a.Fills j ↔ i = j) ∨
      a = .idle ∧ e.cb = some p.call ∧ e.pduId = p.pduId) :
    Inv { s with table := Function.update s.table i e, app := a } := by
  have hNextPacket : ∀ q, a.packet = some q → s.app.packet = some q := by
    intro q hq
    rcases hNext with ⟨hSame, -⟩ | ⟨rfl, -⟩
    · rw [hPacket, ← hSame, hq]
    · cases hq
  constructor
  case books => exact h.books.register _ _ hNextPacket
  case entries =>
    constructor
    case busy_iff =>
      intro j
      rcases eq_or_ne j i with rfl | hj
      · simp [hBusy, hOwner]
      · simp only [Function.update_of_ne hj]
        exact h.entries.busy_iff j
    case owned => exact h.entries.owned
    case inj => exact h.entries.inj
    case complete =>
      intro j q hq hNot
      rcases eq_or_ne j i with rfl | hj
      · rcases hNext with ⟨-, hStill⟩ | ⟨-, hCb, hPdu⟩
        · exact absurd ((hStill j).mpr rfl) hNot
        · obtain rfl : p = q := Option.some.inj (hOwner.symm.trans hq)
          simp only [Function.update_self]
          exact ⟨hCb, hPdu⟩
      · simp only [Function.update_of_ne hj]
        exact h.entries.complete j q hq fun hOld => hj ((hFills j).mp hOld).symm
    case entered =>
      intro q hq hNot hDispatch
      rcases eq_or_ne q p with rfl | hqp
      · exact ⟨i, hOwner⟩
      · refine h.entries.entered q hq (fun hApp => hqp ?_) hDispatch
        exact Option.some.inj (hApp.symm.trans hPacket)
  case app => exact hApp
  case dispatch =>
    refine h.dispatch.mono (fun _ _ => id)
      (fun q _ hTaken => ⟨hTaken.1, fun hSame => hTaken.2 (hNextPacket q hSame)⟩)
      (fun q _ hSame => hNextPacket q hSame) (fun q j hEnters => ?_) (fun j hj => ?_)
    · obtain rfl : p = q := Option.some.inj (hPacket.symm.trans hEnters.packet)
      have hHere : i = j := hEnters.eq_of_fills ((hFills i).mpr rfl)
      exact Or.inl (hHere ▸ hOwner)
    rcases eq_or_ne j i with rfl | hji
    · simp only [Function.update_self]
      rcases hReads with hSame | hApart
      · exact hSame
      · exact absurd hj hApart
    · simp only [Function.update_of_ne hji]

theorem Inv.app_step (h : Inv s) (hOrderly : s.Orderly .app) (hStep : s.step .app = some t) :
    Inv t := by
  change s.appStep = some t at hStep
  have hRegistering := h.app
  cases hApp : s.app with
  | idle =>
    simp only [appStep, hApp] at hStep
    cases hStep
  | scan p k => exact h.scan hApp hStep
  | setBusy p i =>
    simp only [appStep, hApp] at hStep
    cases hStep
    exact h.setBusy hApp
  | setCb p i =>
    simp only [appStep, hApp] at hStep
    cases hStep
    rw [hApp] at hRegistering
    have hOwner : s.owner i = some p := hRegistering
    have hApart : s.dispatcher.reads ≠ some i := hOrderly i (by rw [hApp]; rfl)
    refine h.fill (p := p) (by rw [hApp]; rfl) (fun j => by rw [hApp]; exact Iff.rfl)
      (h.entries.busy_of_owner hOwner) hOwner (Or.inr hApart) ⟨hOwner, ?_⟩
      (Or.inl ⟨rfl, fun _ => Iff.rfl⟩)
    rw [Function.update_self]
  | setPdu p i =>
    simp only [appStep, hApp] at hStep
    cases hStep
    rw [hApp] at hRegistering
    obtain ⟨hOwner, hCb⟩ := hRegistering
    exact h.fill (p := p) (by rw [hApp]; rfl) (fun j => by rw [hApp]; exact Iff.rfl)
      (h.entries.busy_of_owner hOwner) hOwner (Or.inl rfl) trivial (Or.inr ⟨rfl, hCb, rfl⟩)

theorem Inv.fetch (h : Inv s) {p : Packet} (hStep : s.step (.fetch p) = some t) : Inv t := by
  simp only [Race.step] at hStep
  split at hStep
  · next hp =>
    cases hStep
    have hPerm : (s.dispatcher.packet.toList ++ (s.queue ++ [p]) ++ s.pending.erase p).Perm
        s.indications := by
      rw [indications, List.append_assoc, List.append_assoc, List.append_assoc]
      refine List.Perm.append_left _ (List.Perm.append_left _ ?_)
      exact (List.perm_cons_erase hp).symm
    exact {
      books := { h.books with
        nodup := hPerm.nodup_iff.mpr h.books.nodup
        indicated := fun x hx => h.books.indicated x (hPerm.mem_iff.mp hx) }
      entries := { h.entries with }
      app := h.app
      dispatch := h.dispatch }
  · cases hStep

theorem Inv.pick (h : Inv s) (hStep : s.step .pick = some t) : Inv t := by
  simp only [Race.step] at hStep
  split at hStep
  · next p rest hIdle hQueue =>
    cases hStep
    have hSame : (some p).toList ++ rest ++ s.pending = s.indications := by
      rw [indications, hIdle, hQueue]
      rfl
    have hNone : ∀ q, s.dispatcher.packet ≠ some q := fun q => by
      rw [hIdle]
      exact (Option.some_ne_none q).symm
    have hKnown : p ∈ s.outstanding := by
      apply h.books.indicated
      rw [← hSame]
      simp
    exact {
      books := { h.books with
        nodup := by
          change ((some p).toList ++ rest ++ s.pending).Nodup
          rw [hSame]
          exact h.books.nodup
        indicated := fun x hx => by
          change x ∈ (some p).toList ++ rest ++ s.pending at hx
          rw [hSame] at hx
          exact h.books.indicated x hx }
      entries := { h.entries with
        entered := fun q hq hNot _ => h.entries.entered q hq hNot (hNone q) }
      app := h.app
      dispatch := by
        obtain ⟨j, hj⟩ := h.expected hKnown (hNone p)
        exact Or.inl ⟨rfl, j, Nat.zero_le _, hj⟩ }
  · cases hStep

theorem Books.look (h : Books s) (table : IndicationTable) (owner : Owners) {d : DispatchPc}
    (hPacket : d.packet = s.dispatcher.packet) :
    Books { s with table, owner, dispatcher := d } :=
  { h with
    nodup := by
      change (d.packet.toList ++ s.queue ++ s.pending).Nodup
      rw [hPacket]
      exact h.nodup
    indicated := fun x hx => by
      change x ∈ d.packet.toList ++ s.queue ++ s.pending at hx
      rw [hPacket] at hx
      exact h.indicated x hx }

theorem Inv.look (h : Inv s) {d : DispatchPc} (hPacket : d.packet = s.dispatcher.packet)
    (hLooking : Looking s.table s.owner s.app d) : Inv { s with dispatcher := d } where
  books := h.books.look s.table s.owner hPacket
  entries := { h.entries with
    entered := fun p hp hNot hDispatch => h.entries.entered p hp hNot (hPacket ▸ hDispatch) }
  app := h.app
  dispatch := hLooking

theorem Books.invoked_own (h : Books s) {g : Handled} (hg : g ∈ s.handled) :
    g.invoked = some g.packet.call := by
  have hMem : g ∈ s.handled.filter fun g' => g'.invoked = some g.packet.call := by
    rw [h.once g hg]
    exact List.mem_cons_self
  simpa using (List.mem_filter.mp hMem).2

theorem Books.invoke (h : Books s) {p : Packet} (hPacket : s.dispatcher.packet = some p)
    (hApart : s.app.packet ≠ some p) :
    Books { s with
      dispatcher := .idle
      outstanding := s.outstanding.erase p
      handled := s.handled ++ [⟨p, some p.call⟩] } := by
  have hIndications : s.indications = p :: (s.queue ++ s.pending) := by
    rw [indications, hPacket]
    rfl
  have hKnown : p ∈ s.outstanding := h.indicated p (by rw [hIndications]; exact List.mem_cons_self)
  have hNodup : s.outstanding.Nodup := h.distinct.of_map
  have hOther : ∀ {x}, x ∈ s.outstanding.erase p ↔ x ≠ p ∧ x ∈ s.outstanding :=
    hNodup.mem_erase_iff
  obtain ⟨hFirst, hRest⟩ := List.nodup_cons.mp (hIndications ▸ h.nodup)
  constructor
  case distinct => exact h.distinct.sublist (List.erase_sublist.map _)
  case numbered => exact fun x hx => h.numbered x (hOther.mp hx).2
  case single => exact fun x hx y hy => h.single x (hOther.mp hx).2 y (hOther.mp hy).2
  case nodup => exact hRest
  case indicated =>
    intro x hx
    refine hOther.mpr ⟨?_, h.indicated x ?_⟩
    · rintro rfl
      exact hFirst hx
    · rw [hIndications]
      exact List.mem_cons_of_mem _ hx
  case registering =>
    intro q hq
    refine hOther.mpr ⟨?_, h.registering q hq⟩
    rintro rfl
    exact hApart hq
  case past =>
    intro g hg
    rcases List.mem_append.mp hg with hg | hg
    · obtain ⟨hLess, hNot⟩ := h.past g hg
      exact ⟨hLess, fun x hx => hNot x (hOther.mp hx).2⟩
    · rw [List.mem_singleton.mp hg]
      refine ⟨h.numbered p hKnown, fun x hx hEq => ?_⟩
      exact (hOther.mp hx).1 (h.single x (hOther.mp hx).2 p hKnown hEq)
  case once =>
    intro g hg
    rw [List.filter_append]
    rcases List.mem_append.mp hg with hg | hg
    · have hNe : p.call ≠ g.packet.call := (h.past g hg).2 p hKnown
      rw [h.once g hg, List.filter_cons_of_neg (by simpa using hNe), List.filter_nil,
        List.append_nil]
    · obtain rfl := List.mem_singleton.mp hg
      have hNone : s.handled.filter (fun g' => g'.invoked = some p.call) = [] := by
        refine List.filter_eq_nil_iff.mpr fun g' hg' => ?_
        have hNe : p.call ≠ g'.packet.call := (h.past g' hg').2 p hKnown
        rw [h.invoked_own hg']
        simpa using hNe.symm
      rw [hNone, List.filter_cons_of_pos (by simp)]
      rfl

theorem Inv.invoke (h : Inv s) {p : Packet} (hPacket : s.dispatcher.packet = some p)
    (hTaken : Taken s.owner s.app p) :
    Inv { s with
      dispatcher := .idle
      outstanding := s.outstanding.erase p
      handled := s.handled ++ [⟨p, some p.call⟩] } := by
  have hNodup : s.outstanding.Nodup := h.books.distinct.of_map
  have hOther : ∀ {x}, x ∈ s.outstanding.erase p ↔ x ≠ p ∧ x ∈ s.outstanding :=
    hNodup.mem_erase_iff
  constructor
  case books => exact h.books.invoke hPacket hTaken.2
  case entries =>
    constructor
    case busy_iff => exact h.entries.busy_iff
    case owned =>
      intro i q hq
      refine hOther.mpr ⟨?_, h.entries.owned i q hq⟩
      rintro rfl
      exact hTaken.1 i hq
    case inj => exact h.entries.inj
    case complete => exact h.entries.complete
    case entered =>
      intro q hq hNot _
      obtain ⟨hNe, hq⟩ := hOther.mp hq
      refine h.entries.entered q hq hNot fun hEq => hNe ?_
      exact Option.some.inj (hEq.symm.trans hPacket)
  case app => exact h.app
  case dispatch => trivial

theorem Registering.release {table : IndicationTable} {owner : Owners} {a : AppPc} {p : Packet}
    {i : Slot} (h : Registering table owner a) (hOwner : owner i = some p)
    (hNotApp : a.packet ≠ some p) :
    Registering (table.release i) (Function.update owner i none) a := by
  have hKept : ∀ q j, a.packet = some q → owner j = some q →
      j ≠ i ∧ Function.update owner i none j = some q := by
    intro q j hq hj
    have hji : j ≠ i := by
      rintro rfl
      obtain rfl : p = q := Option.some.inj (hOwner.symm.trans hj)
      exact hNotApp hq
    exact ⟨hji, by rw [Function.update_of_ne hji, hj]⟩
  have hUnentered : ∀ q, Unentered owner q → Unentered (Function.update owner i none) q := by
    intro q hNone j hj
    rcases eq_or_ne j i with rfl | hji
    · rw [Function.update_self] at hj
      cases hj
    · rw [Function.update_of_ne hji] at hj
      exact hNone j hj
  have hFree : ∀ j, (table j).busy = false → (table.release i j).busy = false := by
    intro j hj
    rcases eq_or_ne j i with rfl | hji
    · simp [IndicationTable.release]
    · rw [IndicationTable.release_other hji]
      exact hj
  cases a with
  | idle => trivial
  | scan q k =>
    obtain ⟨hNone, j, hj, hIdle⟩ := h
    exact ⟨hUnentered q hNone, j, hj, hFree j hIdle⟩
  | setBusy q j => exact ⟨hUnentered q h.1, hFree j h.2⟩
  | setCb q j => exact (hKept q j rfl h).2
  | setPdu q j =>
    obtain ⟨hj, hOwned⟩ := hKept q j rfl h.1
    refine ⟨hOwned, ?_⟩
    simpa only [IndicationTable.release_other hj] using h.2

theorem Inv.release (h : Inv s) {p : Packet} {i : Slot} (hDispatch : s.dispatcher = .release p i) :
    Inv { s with
      table := s.table.release i
      owner := Function.update s.owner i none
      dispatcher := .readCb p i } := by
  have hPacket : s.dispatcher.packet = some p := by rw [hDispatch]; rfl
  have hLooking := h.dispatch
  rw [hDispatch] at hLooking
  obtain ⟨hOwner, hNotApp⟩ : s.owner i = some p ∧ s.app.packet ≠ some p := hLooking
  have hOther : ∀ q, q ≠ p → ∀ j,
      Function.update s.owner i none j = some q ↔ s.owner j = some q := by
    intro q hq j
    rcases eq_or_ne j i with rfl | hj
    · rw [Function.update_self, hOwner]
      simp [hq.symm]
    · rw [Function.update_of_ne hj]
  have hGone : Unentered (Function.update s.owner i none) p := by
    intro j hj
    rcases eq_or_ne j i with rfl | hji
    · rw [Function.update_self] at hj
      cases hj
    · rw [Function.update_of_ne hji] at hj
      exact hji (h.entries.inj j i p hj hOwner)
  have hSub : ∀ q j, Function.update s.owner i none j = some q → s.owner j = some q := by
    intro q j hq
    rcases eq_or_ne q p with rfl | hqp
    · exact absurd hq (hGone j)
    · exact (hOther q hqp j).mp hq
  constructor
  case books => exact h.books.look _ _ (by rw [hDispatch]; rfl)
  case entries =>
    constructor
    case busy_iff =>
      intro j
      rcases eq_or_ne j i with rfl | hj
      · simp [IndicationTable.release]
      · simp only [IndicationTable.release_other hj, Function.update_of_ne hj]
        exact h.entries.busy_iff j
    case owned => exact fun j q hq => h.entries.owned j q (hSub q j hq)
    case inj => exact fun j k q hj hk => h.entries.inj j k q (hSub q j hj) (hSub q k hk)
    case complete =>
      intro j q hq hFills
      have hj : j ≠ i := by
        rintro rfl
        simp only [Function.update_self] at hq
        cases hq
      simp only [IndicationTable.release_other hj]
      exact h.entries.complete j q (hSub q j hq) hFills
    case entered =>
      intro q hq hNot hRead
      have hqp : q ≠ p := fun hEq => hRead (congrArg some hEq.symm)
      obtain ⟨j, hj⟩ := h.entries.entered q hq hNot (by rw [hPacket]; exact hRead)
      exact ⟨j, (hOther q hqp j).mpr hj⟩
  case app => exact h.app.release hOwner hNotApp
  case dispatch =>
    refine ⟨⟨hGone, hNotApp⟩, ?_⟩
    simp only [IndicationTable.release, Function.update_self]
    exact (h.complete_of_registered hNotApp hOwner).1

theorem Inv.dispatch_step (h : Inv s) (hOrderly : s.Orderly .dispatch)
    (hStep : s.step .dispatch = some t) : Inv t := by
  change s.dispatchStep = some t at hStep
  obtain ⟨hBehind, hRaces⟩ := hOrderly
  have hLooking := h.dispatch
  cases hDispatch : s.dispatcher with
  | idle =>
    simp only [dispatchStep, hDispatch] at hStep
    cases hStep
  | testBusy p k cb =>
    have hPacket : s.dispatcher.packet = some p := by rw [hDispatch]; rfl
    rw [hDispatch] at hLooking hBehind
    have hSeeks : Seeks s.table s.owner s.app p k cb := hLooking
    simp only [dispatchStep, hDispatch] at hStep
    split at hStep
    · next hk =>
      split at hStep
      · next hBusy =>
        cases hStep
        exact h.look hPacket.symm ⟨(h.entries.busy_iff _).mp hBusy, hSeeks⟩
      · next hIdle =>
        cases hStep
        refine h.look hPacket.symm ?_
        have hNotHere : ¬ s.app.Enters s.table p ⟨k, hk⟩ :=
          hBehind (p, ⟨k, hk⟩) (by rw [DispatchPc.passes, dif_pos hk, if_neg hIdle]; rfl)
        rcases hSeeks with ⟨hCb, j, hj, hExpected⟩ | hFound
        · refine Or.inl ⟨hCb, j, Nat.lt_of_le_of_ne hj fun hEq => ?_, hExpected⟩
          obtain rfl : (⟨k, hk⟩ : Slot) = j := Fin.ext hEq
          rcases hExpected with hOwner | hEnters
          · exact hIdle (h.entries.busy_of_owner hOwner)
          · exact hNotHere hEnters
        · exact Or.inr hFound
    · next hk =>
      cases hStep
      rcases hSeeks with ⟨-, j, hj, -⟩ | ⟨hCb, hTaken⟩
      · exact absurd (Nat.lt_of_le_of_lt hj j.isLt) hk
      · rw [hCb]
        exact h.invoke hPacket hTaken
  | testPdu p i cb =>
    have hPacket : s.dispatcher.packet = some p := by rw [hDispatch]; rfl
    rw [hDispatch] at hLooking hBehind
    obtain ⟨hOwned, hSeeks⟩ := hLooking
    have hRace : s.app.Fills i → (s.table i).pduId ≠ p.pduId :=
      hRaces (p, i) (by rw [hDispatch]; rfl)
    simp only [dispatchStep, hDispatch] at hStep
    split at hStep
    · next hPdu =>
      cases hStep
      refine h.look hPacket.symm ?_
      have hNotFills : ¬ s.app.Fills i := fun hFills => hRace hFills hPdu
      obtain ⟨q, hq⟩ := Option.ne_none_iff_exists'.mp hOwned
      obtain ⟨-, hOwn⟩ := h.entries.complete i q hq hNotFills
      obtain rfl : q = p := h.eq_of_pduId (h.entries.owned i q hq) (h.handled_known hPacket)
        (hOwn.symm.trans hPdu)
      exact ⟨hq, fun hApp => hNotFills (fills_of_owner h.app h.entries hApp hq)⟩
    · next hPdu =>
      cases hStep
      refine h.look hPacket.symm ?_
      have hNotHere : ¬ s.app.Enters s.table p i :=
        hBehind (p, i) (by rw [DispatchPc.passes, if_neg hPdu]; rfl)
      rcases hSeeks with ⟨hCb, j, hj, hExpected⟩ | hFound
      · refine Or.inl ⟨hCb, j, Nat.lt_of_le_of_ne hj fun hEq => ?_, hExpected⟩
        obtain rfl : i = j := Fin.ext hEq
        rcases hExpected with hOwner | hEnters
        · have hNotApp : s.app.packet ≠ some p := fun hApp =>
            hNotHere (AppPc.enters_of_fills hApp (fills_of_owner h.app h.entries hApp hOwner))
          exact hPdu (h.complete_of_registered hNotApp hOwner).2
        · exact hNotHere hEnters
      · exact Or.inr hFound
  | release p i =>
    simp only [dispatchStep, hDispatch] at hStep
    cases hStep
    exact h.release hDispatch
  | readCb p i =>
    have hPacket : s.dispatcher.packet = some p := by rw [hDispatch]; rfl
    rw [hDispatch] at hLooking
    obtain ⟨hTaken, hCb⟩ := hLooking
    simp only [dispatchStep, hDispatch] at hStep
    cases hStep
    exact h.look hPacket.symm (Or.inr ⟨hCb, hTaken⟩)

theorem Inv.step (h : Inv s) {e : Event} (hOrderly : s.Orderly e) (hStep : s.step e = some t) :
    Inv t := by
  cases e with
  | send pduId => exact h.send hStep
  | app => exact h.app_step hOrderly hStep
  | fetch p => exact h.fetch hStep
  | pick => exact h.pick hStep
  | dispatch => exact h.dispatch_step hOrderly hStep

theorem Inv.callbackOnce (h : Inv s) : s.CallbackOnce := by
  intro g hg
  refine ⟨h.books.once g hg, fun i _ hOwner => ?_⟩
  exact (h.books.past g hg).2 g.packet (h.entries.owned i _ hOwner) rfl

end Race

/-- In every interleaving in which no step takes part in one of the races, every indication
calls the callback of its packet, once, and leaves no entry for it. -/
theorem raced_callbacks_once (events : List Race.Event) (t : Race)
    (hOrderly : Meets Race.step Race.Orderly .init events)
    (hRun : run Race.step .init events = some t) : t.CallbackOnce := by
  have hInv : Race.Inv t :=
    run_invariant (fun _ _ _ h hCond hStep => h.step hCond hStep) Race.inv_init hOrderly hRun
  exact hInv.callbackOnce

/-- The lookup has begun when the callback is registered, and has not come to its slot. -/
def registeredInTime : List Race.Event :=
  [.send 5, .fetch ⟨0, 5⟩, .pick] ++ List.replicate 4 .app ++ List.replicate 20 .dispatch

theorem raced_callbacks_once_in_time :
    ∃ t, run Race.step .init registeredInTime = some t ∧
      t.handled = [⟨⟨0, 5⟩, some 0⟩] ∧ t.CallbackOnce :=
  ⟨_, rfl, rfl, raced_callbacks_once registeredInTime _ (by decide +kernel) rfl⟩

/-- The indication is handled before the application thread registers the callback, which is
then never called and stays in its slot. -/
def overtaken : List Race.Event :=
  [.send 5, .fetch ⟨0, 5⟩, .pick] ++ List.replicate 17 .dispatch ++ List.replicate 4 .app

theorem overtaken_callback_lost :
    ¬ ∀ (events : List Race.Event) (t : Race),
      run Race.step .init events = some t → t.CallbackOnce := by
  intro h
  have hLost : (run Race.step .init overtaken).any (fun t => ¬ t.CallbackOnce) = true := by
    decide +kernel
  obtain ⟨t, hRun, hNot⟩ := (Option.any_eq_true _ _).mp hLost
  exact of_decide_eq_true hNot (h _ t hRun)

end CMeshApi.Dsap
