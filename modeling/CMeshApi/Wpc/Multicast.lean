import CMeshApi.Foundations.Memory
import CMeshApi.Wpc.Management
import CMeshApi.Wpc.RequestSizes

/-!
# Multicast groups

The attribute holds ten addresses without their top bytes, with zero for a slot that is not
used. The lowest multicast address leaves nothing but zero there.
-/

namespace CMeshApi.Wpc

open Programs

def msapMulticastGroups : UInt16 := 13

def maximumNumberOfMulticastGroups : Nat := 10

/-- The slots from `n` on of the array `groups`, which is cleared before. -/
def fillGroups (addrList : Memory UInt32) (n : Nat) : Nat → Memory UInt8 → Option (Memory UInt8)
  | 0, groups => some groups
  | k + 1, groups =>
    let addr := addrList n
    if addr = 0 then fillGroups addrList (n + 1) k groups
    else if addr &&& 0xff000000 ≠ 0x80000000 then none
    else fillGroups addrList (n + 1) k (groups.write (4 * n) (uint32EncodeLe (addr &&& 0x00ffffff)))

def decodeGroup (groups : List UInt8) (n : Nat) : UInt32 :=
  let addr := uint32DecodeLe (groups.drop (4 * n))
  if addr ≠ 0 then addr ||| 0x80000000 else addr

/-- What is stored of the slots from `n` on at `addrList`, which has room for `numAddr`. -/
def storeGroups (groups : List UInt8) (numAddr n : Nat) : Nat → Memory UInt32 → Memory UInt32
  | 0, addrList => addrList
  | k + 1, addrList =>
    storeGroups groups numAddr (n + 1) k
      (if n < numAddr then addrList.store n (decodeGroup groups n) else addrList)

section Calls

variable {γ ν : Type} (env : Environment ν)

def wpcGetMulticastGroups (addrList : Memory UInt32) (numAddr : UInt8) :
    Call γ ν (Except AppRes (Memory UInt32 × UInt8)) := do
  match ← readAttribute env .msap msapMulticastGroups (4 * maximumNumberOfMulticastGroups) id with
  | .error error => return .error error
  | .ok groups =>
    return .ok (storeGroups groups numAddr.toNat 0 maximumNumberOfMulticastGroups addrList,
      .ofNat maximumNumberOfMulticastGroups)

def wpcSetMulticastGroups (addrList : Memory UInt32) (numAddr : UInt8) : Call γ ν AppRes :=
  if maximumNumberOfMulticastGroups < numAddr.toNat then pure .invalidValue
  else
    match fillGroups addrList 0 numAddr.toNat fun _ => 0 with
    | none => pure .invalidValue
    | some groups =>
      writeAttribute env .msap msapMulticastGroups (groups.read 0 (4 * maximumNumberOfMulticastGroups))

end Calls

/-- The address passes the test of a slot. -/
def Encodable (addr : UInt32) : Prop := addr = 0 ∨ addr &&& 0xff000000 = 0x80000000

instance (addr : UInt32) : Decidable (Encodable addr) := inferInstanceAs (Decidable (_ ∨ _))

/-- An address as `wpc.h` describes it. -/
def GroupAddress (addr : UInt32) : Prop := addr = 0 ∨ 0x80000001 ≤ addr ∧ addr ≤ 0x80ffffff

instance (addr : UInt32) : Decidable (GroupAddress addr) := inferInstanceAs (Decidable (_ ∨ _))

section Addresses

variable {addr : UInt32}

theorem toNat_and_top (addr : UInt32) : (addr &&& 0xff000000).toNat = addr.toNat / 2 ^ 24 * 2 ^ 24 := by
  have hLt := addr.toNat_lt
  have hTop : (addr.toNat &&& 0xff000000) / 2 ^ 24 = addr.toNat / 2 ^ 24 := by
    rw [Nat.and_div_two_pow]
    change addr.toNat / 2 ^ 24 &&& (2 ^ 8 - 1) = _
    rw [Nat.and_two_pow_sub_one_eq_mod]
    exact Nat.mod_eq_of_lt (by omega)
  have hRest : (addr.toNat &&& 0xff000000) % 2 ^ 24 = 0 := by
    rw [Nat.and_mod_two_pow]
    exact Nat.and_zero _
  change addr.toNat &&& 0xff000000 = _
  omega

theorem toNat_and_rest (addr : UInt32) : (addr &&& 0x00ffffff).toNat = addr.toNat % 2 ^ 24 :=
  Nat.and_two_pow_sub_one_eq_mod addr.toNat 24

theorem top_eq_iff : addr &&& 0xff000000 = 0x80000000 ↔ addr.toNat / 2 ^ 24 = 128 := by
  rw [← UInt32.toNat_inj, toNat_and_top]
  change _ = 2147483648 ↔ _
  omega

theorem groupAddress_iff : GroupAddress addr ↔ Encodable addr ∧ addr ≠ 0x80000000 := by
  have hLower : 0x80000001 ≤ addr ↔ 2147483649 ≤ addr.toNat := UInt32.le_iff_toNat_le
  have hUpper : addr ≤ 0x80ffffff ↔ addr.toNat ≤ 2164260863 := UInt32.le_iff_toNat_le
  have hZero : addr = 0 ↔ addr.toNat = 0 := UInt32.toNat_inj.symm
  have hLowest : addr = 0x80000000 ↔ addr.toNat = 2147483648 := UInt32.toNat_inj.symm
  rw [GroupAddress, Encodable, top_eq_iff, Ne, hLower, hUpper, hZero, hLowest]
  omega

/-- What `WPC_get_multicast_groups` makes of an address that `WPC_set_multicast_groups` has cut. -/
def restored (addr : UInt32) : UInt32 :=
  if addr &&& 0x00ffffff ≠ 0 then addr &&& 0x00ffffff ||| 0x80000000 else addr &&& 0x00ffffff

theorem restored_eq (h : GroupAddress addr) : restored addr = addr := by
  obtain ⟨hEncodable, hNotLowest⟩ := groupAddress_iff.mp h
  rcases hEncodable with rfl | hTop
  · rfl
  have hTop := top_eq_iff.mp hTop
  have hRest := toNat_and_rest addr
  have hLowest : addr.toNat ≠ 2147483648 := fun hEq => hNotLowest (UInt32.toNat_inj.mp hEq)
  have hUsed : addr &&& 0x00ffffff ≠ 0 := by
    intro hZero
    have hZero : (addr &&& 0x00ffffff).toNat = 0 := congrArg UInt32.toNat hZero
    omega
  have hBelow : (addr &&& 0x00ffffff).toNat < 2 ^ 24 := by
    rw [hRest]
    exact Nat.mod_lt _ (by decide)
  have hShift : (addr &&& 0x00ffffff ||| ((128 : UInt8).toUInt32 <<< (24 : UInt32))).toNat =
      (addr &&& 0x00ffffff).toNat + 2 ^ 24 * 128 := toNat_or_shiftLeft (by decide) hBelow
  have hBack : (addr &&& 0x00ffffff ||| 0x80000000).toNat =
      (addr &&& 0x00ffffff).toNat + 2 ^ 24 * 128 := hShift
  rw [restored, if_pos hUsed]
  apply UInt32.toNat_inj.mp
  omega

end Addresses

/-- The bytes of a slot in the attribute. -/
def slotBytes (addr : UInt32) : List UInt8 := uint32EncodeLe (addr &&& 0x00ffffff)

theorem length_slots (addrs : List UInt32) : (addrs.flatMap slotBytes).length = 4 * addrs.length := by
  induction addrs with
  | nil => rfl
  | cons addr addrs ih =>
    rw [List.flatMap_cons, List.length_append, ih, List.length_cons]
    change 4 + _ = _
    omega

theorem fillGroups_eq (addrList : Memory UInt32) (k : Nat) {n : Nat} {groups : Memory UInt8}
    (hClear : ∀ i, 4 * (n : Int) ≤ i → groups i = 0) :
    fillGroups addrList n k groups =
      if (addrList.read n k).all (Encodable ·) then
        some (groups.write (4 * n) ((addrList.read n k).flatMap slotBytes))
      else none := by
  induction k generalizing n groups with
  | zero =>
    rw [if_pos (show (addrList.read n 0).all (Encodable ·) = true from rfl)]
    exact congrArg some (Memory.write_nil groups (4 * n)).symm
  | succ k ih =>
    have hNext : ((n + 1 : Nat) : Int) = n + 1 := Int.natCast_succ n
    have hWrite (rest : List UInt8) :
        groups.write (4 * n) (slotBytes (addrList n) ++ rest) =
          (groups.write (4 * n) (slotBytes (addrList n))).write (4 * (n + 1 : Nat)) rest := by
      rw [Memory.write_append]
      congr 1
    rw [Memory.read_succ, List.flatMap_cons, hWrite, ← hNext]
    simp only [List.all_cons]
    rw [fillGroups]
    split
    · next hUnused =>
      have hSame : groups.write (4 * n) (slotBytes (addrList n)) = groups := by
        rw [hUnused]
        exact Memory.write_replicate hClear 4
      rw [ih fun i hi => hClear i (by omega), hSame]
      simp only [decide_eq_true (show Encodable (addrList n) from Or.inl hUnused), Bool.true_and]
    · next hUsed =>
      split
      · next hWrong =>
        have hNot : ¬ Encodable (addrList n) := fun h => h.elim hUsed hWrong
        simp only [decide_eq_false hNot, Bool.false_and, Bool.false_eq_true, if_false]
      · next hTop =>
        have hEncodable : Encodable (addrList n) := Or.inr (not_not.mp hTop)
        have hCleared : ∀ i, 4 * ((n + 1 : Nat) : Int) ≤ i →
            groups.write (4 * n) (slotBytes (addrList n)) i = 0 := by
          intro i hi
          rw [Memory.write_above]
          · exact hClear i (by omega)
          · change 4 * (n : Int) + 4 ≤ i
            omega
        simp only [decide_eq_true hEncodable, Bool.true_and]
        exact ih hCleared

theorem fillGroups_cleared (addrList : Memory UInt32) (k : Nat) :
    (fillGroups addrList 0 k fun _ => 0) =
      if (addrList.read 0 k).all (Encodable ·) then
        some (Memory.write (fun _ => 0) 0 ((addrList.read 0 k).flatMap slotBytes))
      else none :=
  fillGroups_eq addrList k fun _ _ => rfl

theorem storeGroups_eq (groups : List UInt8) {numAddr : Nat} (k : Nat) {n : Nat} (hRoom : n + k ≤ numAddr)
    (addrList : Memory UInt32) :
    storeGroups groups numAddr n k addrList =
      addrList.write n ((List.range' n k).map (decodeGroup groups)) := by
  induction k generalizing n addrList with
  | zero => exact (Memory.write_nil addrList n).symm
  | succ k ih =>
    rw [storeGroups, if_pos (by omega), ih (by omega), List.range'_succ, List.map_cons, Memory.write_cons]
    rfl

theorem decodeGroup_slots {addrs : List UInt32} {n : Nat} (hn : n < addrs.length) :
    decodeGroup (addrs.flatMap slotBytes) n = restored addrs[n] := by
  have hDrop : (addrs.flatMap slotBytes).drop (4 * n) =
      slotBytes addrs[n] ++ (addrs.drop (n + 1)).flatMap slotBytes := by
    have hSplit : addrs.flatMap slotBytes =
        (addrs.take n).flatMap slotBytes ++ (addrs.drop n).flatMap slotBytes := by
      rw [← List.flatMap_append, List.take_append_drop]
    have hFront : ((addrs.take n).flatMap slotBytes).length = 4 * n := by
      rw [length_slots, List.length_take_of_le (Nat.le_of_lt hn)]
    rw [hSplit, List.drop_left' hFront, List.drop_eq_getElem_cons hn, List.flatMap_cons]
  have hDecode : uint32DecodeLe ((addrs.flatMap slotBytes).drop (4 * n)) = addrs[n] &&& 0x00ffffff := by
    rw [hDrop]
    exact uint32DecodeLe_encode (addrs[n] &&& 0x00ffffff)
  rw [decodeGroup, hDecode]
  rfl

/-- The list of the caller, with zeros in the slots that it leaves. -/
def padded (addrs : List UInt32) : List UInt32 :=
  addrs ++ List.replicate (maximumNumberOfMulticastGroups - addrs.length) 0

theorem length_padded {addrs : List UInt32} (h : addrs.length ≤ maximumNumberOfMulticastGroups) :
    (padded addrs).length = maximumNumberOfMulticastGroups := by
  rw [padded, List.length_append, List.length_replicate]
  omega

theorem slots_replicate (n : Nat) :
    (List.replicate n (0 : UInt32)).flatMap slotBytes = List.replicate (4 * n) 0 := by
  induction n with
  | zero => rfl
  | succ n ih =>
    rw [List.replicate_succ, List.flatMap_cons, ih, show 4 * (n + 1) = 4 + 4 * n by omega,
      List.replicate_add]
    rfl

/-- The attribute that is written for a list of encodable addresses. -/
theorem read_filled {addrs : List UInt32} (h : addrs.length ≤ maximumNumberOfMulticastGroups) :
    Memory.read (Memory.write (fun _ => 0) 0 (addrs.flatMap slotBytes)) 0
        (4 * maximumNumberOfMulticastGroups) = (padded addrs).flatMap slotBytes := by
  have hLength : ((padded addrs).flatMap slotBytes).length = 4 * maximumNumberOfMulticastGroups := by
    rw [length_slots, length_padded h]
  have hZeros : Memory.write (fun _ => 0) 0 (addrs.flatMap slotBytes) =
      Memory.write (fun _ => (0 : UInt8)) 0 ((padded addrs).flatMap slotBytes) := by
    rw [padded, List.flatMap_append, slots_replicate, Memory.write_append, Memory.write_replicate]
    intro i hi
    rw [Memory.write_above _ _ _ hi]
  rw [hZeros, ← hLength]
  exact Memory.read_write _ 0 _

theorem restored_padded {addrs : List UInt32} (h : ∀ addr ∈ addrs, GroupAddress addr) :
    (padded addrs).map restored = padded addrs := by
  refine (List.map_congr_left fun addr hAddr => restored_eq ?_).trans (List.map_id' _)
  rcases List.mem_append.mp hAddr with hGiven | hZero
  · exact h addr hGiven
  · exact Or.inl (List.eq_of_mem_replicate hZero)

/-- What is read back from the attribute. -/
theorem read_storeGroups {addrs : List UInt32} (h : addrs.length ≤ maximumNumberOfMulticastGroups)
    {numAddr : Nat} (hRoom : maximumNumberOfMulticastGroups ≤ numAddr) (addrList : Memory UInt32) :
    (storeGroups ((padded addrs).flatMap slotBytes) numAddr 0 maximumNumberOfMulticastGroups addrList).read
        0 maximumNumberOfMulticastGroups = (padded addrs).map restored := by
  have hSlots : (List.range' 0 maximumNumberOfMulticastGroups).map
      (decodeGroup ((padded addrs).flatMap slotBytes)) = (padded addrs).map restored := by
    refine List.ext_getElem ?_ fun n hLeft hRight => ?_
    · rw [List.length_map, List.length_range', List.length_map, length_padded h]
    · rw [List.length_map] at hRight
      rw [List.getElem_map, List.getElem_map, List.getElem_range', Nat.zero_add, Nat.one_mul]
      exact decodeGroup_slots hRight
  have hLength : ((padded addrs).map restored).length = maximumNumberOfMulticastGroups := by
    rw [List.length_map, length_padded h]
  rw [storeGroups_eq _ _ (by omega), hSlots, ← hLength]
  exact Memory.read_write addrList 0 _

section Node

variable {γ ν : Type} {env : Environment ν} {addrList : Memory UInt32} {numAddr : UInt8}

/-- The list does not pass the tests of `WPC_set_multicast_groups`. -/
def Rejected (addrList : Memory UInt32) (numAddr : UInt8) : Prop :=
  maximumNumberOfMulticastGroups < numAddr.toNat ∨
    ∃ addr ∈ addrList.read 0 numAddr.toNat, ¬ Encodable addr

instance (addrList : Memory UInt32) (numAddr : UInt8) : Decidable (Rejected addrList numAddr) :=
  inferInstanceAs (Decidable (_ ∨ _))

/-- The attribute for the addresses of the caller. -/
def written (addrList : Memory UInt32) (numAddr : UInt8) : List UInt8 :=
  (padded (addrList.read 0 numAddr.toNat)).flatMap slotBytes

theorem set_rejected (h : Rejected addrList numAddr) :
    wpcSetMulticastGroups (γ := γ) env addrList numAddr = pure .invalidValue := by
  unfold wpcSetMulticastGroups
  split
  · rfl
  · next hFew =>
    obtain ⟨addr, hAddr, hWrong⟩ := h.resolve_left hFew
    rw [fillGroups_cleared, if_neg fun hAll => hWrong (of_decide_eq_true (List.all_eq_true.mp hAll addr hAddr))]

theorem set_accepted (h : ¬ Rejected addrList numAddr) :
    wpcSetMulticastGroups (γ := γ) env addrList numAddr =
      writeAttribute env .msap msapMulticastGroups (written addrList numAddr) := by
  obtain ⟨hFew, hAll⟩ := not_or.mp h
  have hEncodable : (addrList.read 0 numAddr.toNat).all (Encodable ·) = true :=
    List.all_eq_true.mpr fun addr hAddr => decide_eq_true (not_not.mp fun hWrong => hAll ⟨addr, hAddr, hWrong⟩)
  have hLength : (addrList.read 0 numAddr.toNat).length ≤ maximumNumberOfMulticastGroups := by
    rw [Memory.length_read]
    exact Nat.le_of_not_lt hFew
  rw [wpcSetMulticastGroups, if_neg hFew, fillGroups_cleared, if_pos hEncodable]
  exact congrArg (writeAttribute env .msap msapMulticastGroups) (read_filled hLength)

/-- The node stores the attribute that is written and reads it back. -/
structure StoresGroups (env : Environment ν) (groups : ν → List UInt8) : Prop where
  writes : ∀ value n, value.length = 4 * maximumNumberOfMulticastGroups →
    (env.request (attributeWrite .msap msapMulticastGroups value) n).1 = 0 ∧
      groups (env.request (attributeWrite .msap msapMulticastGroups value) n).2 = value
  reads : ∀ n, (env.attributeRead .msap msapMulticastGroups n).1 = (0, groups n)

variable {groups : ν → List UInt8} {w t u : World γ ν} {res : AppRes}

theorem StoresGroups.write (hStores : StoresGroups env groups) {value : List UInt8}
    (hLength : value.length = 4 * maximumNumberOfMulticastGroups) :
    ∃ t, groups t.node = value ∧
      Returns (writeAttribute env .msap msapMulticastGroups value) w .ok t := by
  obtain ⟨hResult, hStored⟩ := hStores.writes value w.node hLength
  have hFits : ¬ maxAttributeSize < value.length := by
    rw [hLength]
    decide
  refine ⟨{ w with node := (env.request (attributeWrite .msap msapMulticastGroups value) w.node).2 },
    hStored, returns_bind.mpr ⟨0, _, ?_, returns_pure.mpr ⟨rfl, rfl⟩⟩⟩
  rw [attributeWriteRequest, if_neg hFits, returns_ask]
  exact ⟨hResult.symm, rfl⟩

theorem StoresGroups.get (hStores : StoresGroups env groups)
    (hLength : (groups u.node).length = 4 * maximumNumberOfMulticastGroups)
    (buffer : Memory UInt32) (room : UInt8) :
    ∃ v, Returns (wpcGetMulticastGroups env buffer room) u
      (.ok (storeGroups (groups u.node) room.toNat 0 maximumNumberOfMulticastGroups buffer,
        .ofNat maximumNumberOfMulticastGroups)) v := by
  have hRead : readResult (4 * maximumNumberOfMulticastGroups) id
      (env.attributeRead .msap msapMulticastGroups u.node).1 = .ok (groups u.node) := by
    rw [hStores.reads, readResult_eq_ok]
    exact ⟨⟨rfl, hLength⟩, rfl⟩
  exact ⟨{ u with node := (env.attributeRead .msap msapMulticastGroups u.node).2 },
    returns_bind.mpr ⟨.ok (groups u.node), _, (returns_readAttribute env).mpr ⟨hRead.symm, rfl⟩,
      returns_pure.mpr ⟨rfl, rfl⟩⟩⟩

theorem length_written (h : ¬ Rejected addrList numAddr) :
    (written addrList numAddr).length = 4 * maximumNumberOfMulticastGroups := by
  have hFew : (addrList.read 0 numAddr.toNat).length ≤ maximumNumberOfMulticastGroups := by
    rw [Memory.length_read]
    exact Nat.le_of_not_lt (not_or.mp h).1
  rw [written, length_slots, length_padded hFew]

/-- What is promised of a set, and of a get after it: only ten addresses at most, each zero or a
multicast address, are taken; they are returned, padded with zeros, for as long as the node keeps
them; and a list that is not taken sends no request. -/
structure SetsGroups (env : Environment ν) (groups : ν → List UInt8) (addrList : Memory UInt32)
    (numAddr : UInt8) (w : World γ ν) : Prop where
  taken : (∃ t, Returns (wpcSetMulticastGroups env addrList numAddr) w .ok t) ↔
    numAddr.toNat ≤ maximumNumberOfMulticastGroups ∧
      ∀ addr ∈ addrList.read 0 numAddr.toNat, GroupAddress addr
  returned : ∀ (t u : World γ ν) (buffer : Memory UInt32) (room : UInt8),
    Returns (wpcSetMulticastGroups env addrList numAddr) w .ok t → groups u.node = groups t.node →
    maximumNumberOfMulticastGroups ≤ room.toNat →
    ∃ found v, Returns (wpcGetMulticastGroups env buffer room) u
        (.ok (found, .ofNat maximumNumberOfMulticastGroups)) v ∧
      found.read 0 maximumNumberOfMulticastGroups = padded (addrList.read 0 numAddr.toNat)
  silent : (∀ t, ¬ Returns (wpcSetMulticastGroups env addrList numAddr) w .ok t) →
    requestsOf (wpcSetMulticastGroups env.recorded addrList numAddr) w = []

theorem setsGroups_of_rejected (h : Rejected addrList numAddr) (w : World γ ν) :
    SetsGroups env groups addrList numAddr w where
  taken := by
    rw [set_rejected h]
    refine iff_of_false ?_ ?_
    · rintro ⟨t, hReturns⟩
      exact nomatch (returns_pure.mp hReturns).1
    · rintro ⟨hFew, hAll⟩
      rcases h with hMany | ⟨addr, hAddr, hWrong⟩
      · exact Nat.not_lt_of_le hFew hMany
      · exact hWrong (groupAddress_iff.mp (hAll addr hAddr)).1
  returned t u buffer room hReturns := by
    rw [set_rejected h] at hReturns
    exact nomatch (returns_pure.mp hReturns).1
  silent _ := by
    rw [set_rejected h]
    rfl

theorem StoresGroups.setsGroups (hStores : StoresGroups env groups) (h : ¬ Rejected addrList numAddr)
    (hNotLowest : 0x80000000 ∉ addrList.read 0 numAddr.toNat) (w : World γ ν) :
    SetsGroups env groups addrList numAddr w := by
  have hFew : numAddr.toNat ≤ maximumNumberOfMulticastGroups := Nat.le_of_not_lt (not_or.mp h).1
  have hLength : (addrList.read 0 numAddr.toNat).length ≤ maximumNumberOfMulticastGroups := by
    rw [Memory.length_read]
    exact hFew
  have hAll : ∀ addr ∈ addrList.read 0 numAddr.toNat, GroupAddress addr := fun addr hAddr =>
    groupAddress_iff.mpr ⟨not_not.mp fun hWrong => (not_or.mp h).2 ⟨addr, hAddr, hWrong⟩,
      fun hSame => hNotLowest (hSame ▸ hAddr)⟩
  obtain ⟨t, hGroups, hReturns⟩ := hStores.write (w := w) (length_written h)
  rw [← set_accepted h] at hReturns
  refine ⟨iff_of_true ⟨t, hReturns⟩ ⟨hFew, hAll⟩, ?_, fun hNot => absurd hReturns (hNot t)⟩
  intro t' u buffer room hReturns' hSame hRoom
  obtain ⟨-, rfl⟩ := hReturns'.unique hReturns
  have hKept : groups u.node = written addrList numAddr := hSame.trans hGroups
  obtain ⟨v, hGet⟩ := hStores.get (hKept ▸ length_written h) buffer room
  refine ⟨_, v, hGet, ?_⟩
  rw [hKept, written, read_storeGroups hLength hRoom, restored_padded hAll]

/-- The lowest address passes the test of the top byte and is stored as an unused slot. Nothing
else is wrong with the groups. -/
theorem wpcSetMulticastGroups_iff (hStores : StoresGroups env groups) (addrList : Memory UInt32)
    (numAddr : UInt8) (w : World γ ν) :
    SetsGroups env groups addrList numAddr w ↔
      Rejected addrList numAddr ∨ 0x80000000 ∉ addrList.read 0 numAddr.toNat := by
  constructor
  · intro hSets
    by_cases hRejected : Rejected addrList numAddr
    · exact Or.inl hRejected
    · obtain ⟨t, -, hReturns⟩ := hStores.write (w := w) (length_written hRejected)
      rw [← set_accepted hRejected] at hReturns
      obtain ⟨-, hAll⟩ := hSets.taken.mp ⟨t, hReturns⟩
      exact Or.inr fun hLowest => (groupAddress_iff.mp (hAll _ hLowest)).2 rfl
  · intro h
    by_cases hRejected : Rejected addrList numAddr
    · exact setsGroups_of_rejected hRejected w
    · exact hStores.setsGroups hRejected (h.resolve_left hRejected) w

end Node

/-- A node that is the attribute. -/
def groupsNode : Environment (List UInt8) where
  request q n :=
    match q.payload with
    | .attributeWrite _ _ value => (0, value)
    | _ => (0, n)
  attributeRead _ _ n := ((0, n), n)
  appConfigDataRead n := ((1, ⟨0, 0, []⟩), n)
  scratchpadStatus n := ((0, ⟨0, 0, 0, 0, 0, 0, 0, 0, 0⟩), n)
  scratchpadTargetRead n := ((1, ⟨0, 0, 0, 0⟩), n)
  timestampMsMonotonic n := (0, n)
  timestampMsEpoch n := (0, n)
  malloc n := (true, n)
  rand n := (0, n)
  rounds := 1

theorem groupsNode_stores : StoresGroups groupsNode id where
  writes _ _ _ := ⟨rfl, rfl⟩
  reads _ := rfl

/-- The lowest and the highest address of a group, around a slot that is not used. -/
def outerGroups : Memory UInt32 := Memory.write (fun _ => 0) 0 [0x80000001, 0, 0x80ffffff]

theorem wpcSetMulticastGroups_iff_outerGroups :
    SetsGroups groupsNode id outerGroups 3 (⟨⟨60, 102⟩, (), []⟩ : World Unit (List UInt8)) :=
  (wpcSetMulticastGroups_iff groupsNode_stores outerGroups 3 ⟨⟨60, 102⟩, (), []⟩).mpr (Or.inr (by decide))

theorem lowest_address_taken :
    ¬ ∀ (addrList : Memory UInt32) (numAddr : UInt8),
      SetsGroups groupsNode id addrList numAddr (⟨⟨60, 102⟩, (), []⟩ : World Unit (List UInt8)) := by
  intro h
  have hTaken := (h (fun _ => 0x80000000) 1).taken.mp ⟨⟨⟨60, 102⟩, (), written (fun _ => 0x80000000) 1⟩, rfl⟩
  exact absurd (hTaken.2 0x80000000 List.mem_cons_self) (by decide)

end CMeshApi.Wpc
