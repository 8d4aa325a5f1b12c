import CMeshApi.WpcConstants
import Mathlib.Data.List.FinRange
import Mathlib.Logic.Function.Basic

/-!
# The table of packets that wait for their indication

`indication_sent_cb_table` of `dsap.c` with its two functions. A packet is entered
in the first slot that is not busy, if there is one; a lookup releases every busy
slot with the pdu id, and gives the callback of the last one.
-/

namespace CMeshApi.Dsap

/-- The address of a function that the application gave with a packet. -/
abbrev OnDataSentCb := Nat

structure PacketWithIndication where
  cb : Option OnDataSentCb
  pduId : UInt16
  busy : Bool
deriving DecidableEq, Repr

/-- A packet of the application. The number of the call that sends it stands for the callback
given with it, which the code only stores and calls: every packet has its own. -/
structure Packet where
  call : Nat
  pduId : UInt16
deriving DecidableEq, Repr

abbrev Slot := Fin maxSentPacketWithIndication

abbrev IndicationTable := Slot → PacketWithIndication

namespace IndicationTable

def init : IndicationTable := fun _ => ⟨none, 0, false⟩

def firstFree (t : IndicationTable) : Option Slot :=
  (List.finRange maxSentPacketWithIndication).find? fun i => !(t i).busy

def setIndicationCb (t : IndicationTable) (cb : OnDataSentCb) (pduId : UInt16) :
    IndicationTable × Bool :=
  match firstFree t with
  | some i => (Function.update t i ⟨some cb, pduId, true⟩, true)
  | none => (t, false)

def Holds (t : IndicationTable) (pduId : UInt16) (i : Slot) : Prop :=
  (t i).busy = true ∧ (t i).pduId = pduId

instance (t : IndicationTable) (pduId : UInt16) (i : Slot) : Decidable (t.Holds pduId i) :=
  inferInstanceAs (Decidable (_ ∧ _))

def release (t : IndicationTable) (i : Slot) : IndicationTable :=
  Function.update t i { t i with busy := false }

def getIndicationCb (t : IndicationTable) (pduId : UInt16) : IndicationTable × Option OnDataSentCb :=
  (List.finRange maxSentPacketWithIndication).foldl
    (fun found i => if found.1.Holds pduId i then (found.1.release i, (found.1 i).cb) else found)
    (t, none)

theorem firstFree_eq_some {t : IndicationTable} {i : Slot} (h : t.firstFree = some i) :
    (t i).busy = false := by
  simpa using List.find?_some h

theorem firstFree_eq_none {t : IndicationTable} : t.firstFree = none ↔ ∀ i, (t i).busy = true := by
  simp [firstFree, List.find?_eq_none]

theorem setIndicationCb_of_free {t : IndicationTable} {i : Slot} (h : t.firstFree = some i)
    (cb : OnDataSentCb) (pduId : UInt16) :
    t.setIndicationCb cb pduId = (Function.update t i ⟨some cb, pduId, true⟩, true) := by
  rw [setIndicationCb, h]

theorem release_other {t : IndicationTable} {i j : Slot} (h : j ≠ i) : t.release i j = t j :=
  Function.update_of_ne h _ _

theorem holds_release {t : IndicationTable} {pduId : UInt16} {i j : Slot} (h : j ≠ i) :
    (t.release i).Holds pduId j ↔ t.Holds pduId j := by
  rw [Holds, Holds, release_other h]

/-- The loop of the lookup, over the slots that it has still to visit. -/
def lookupFrom (pduId : UInt16) (slots : List Slot) (found : IndicationTable × Option OnDataSentCb) :
    IndicationTable × Option OnDataSentCb :=
  slots.foldl
    (fun found i => if found.1.Holds pduId i then (found.1.release i, (found.1 i).cb) else found)
    found

theorem lookupFrom_cons (pduId : UInt16) (i : Slot) (slots : List Slot) (t : IndicationTable)
    (cb : Option OnDataSentCb) :
    lookupFrom pduId (i :: slots) (t, cb) =
      if t.Holds pduId i then lookupFrom pduId slots (t.release i, (t i).cb)
      else lookupFrom pduId slots (t, cb) := by
  rw [lookupFrom, List.foldl_cons]
  split <;> rfl

theorem lookupFrom_of_none {pduId : UInt16} {slots : List Slot} {t : IndicationTable}
    (h : ∀ i ∈ slots, ¬ t.Holds pduId i) (cb : Option OnDataSentCb) :
    lookupFrom pduId slots (t, cb) = (t, cb) := by
  induction slots with
  | nil => rfl
  | cons i slots ih =>
    rw [lookupFrom_cons, if_neg (h i List.mem_cons_self)]
    exact ih fun j hj => h j (List.mem_cons_of_mem _ hj)

theorem lookupFrom_of_unique {pduId : UInt16} {slots : List Slot} {t : IndicationTable} {i : Slot}
    (hNodup : slots.Nodup) (hMem : i ∈ slots) (hHolds : t.Holds pduId i)
    (hUnique : ∀ j ∈ slots, t.Holds pduId j → j = i) (cb : Option OnDataSentCb) :
    lookupFrom pduId slots (t, cb) = (t.release i, (t i).cb) := by
  induction slots with
  | nil => cases hMem
  | cons j slots ih =>
    obtain ⟨hj, hRest⟩ := List.nodup_cons.mp hNodup
    rw [lookupFrom_cons]
    by_cases hHere : t.Holds pduId j
    · obtain rfl := hUnique j List.mem_cons_self hHere
      rw [if_pos hHere]
      refine lookupFrom_of_none (fun k hk hAgain => ?_) _
      have hkj : k ≠ j := fun hEq => hj (hEq ▸ hk)
      exact hkj (hUnique k (List.mem_cons_of_mem _ hk) ((holds_release hkj).mp hAgain))
    · rw [if_neg hHere]
      rcases List.mem_cons.mp hMem with rfl | hMem
      · exact absurd hHolds hHere
      · exact ih hRest hMem fun k hk => hUnique k (List.mem_cons_of_mem _ hk)

/-- A pdu id that one slot waits for: the slot is released, and its callback found. -/
theorem getIndicationCb_of_unique {t : IndicationTable} {pduId : UInt16} {i : Slot}
    (hHolds : t.Holds pduId i) (hUnique : ∀ j, t.Holds pduId j → j = i) :
    t.getIndicationCb pduId = (t.release i, (t i).cb) :=
  lookupFrom_of_unique (List.nodup_finRange _) (List.mem_finRange i) hHolds
    (fun j _ => hUnique j) none

end IndicationTable

end CMeshApi.Dsap
