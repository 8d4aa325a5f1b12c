import CMeshApi.Foundations.Extent
import CMeshApi.Util
import CMeshApi.Wpc.Management

/-!
# What is read from a confirm

`send_request_locked` copies the bytes that it received to a local `wpc_frame_t`,
and the functions of `attribute.c`, `msap.c` and `wpc.c` read their results from it.
Each of them is given here as a function of that memory, addressed from the front of
the frame; `none` is an index outside of the array that it is meant for. No function
knows how many bytes were received.
-/

namespace CMeshApi.Wpc.Confirm

open Memory

/-- The copy of the received bytes to the local structure. -/
def copyConfirm (confirm : Memory UInt8) (buffer : List UInt8) : Memory UInt8 := confirm.write 0 buffer

def maximumNumberOfNeighbor : Nat := 8
def maximumCdcItemPayloadSize : Nat := 80

/-- The result, and the bytes that are stored through the pointer. -/
def attributeReadRequest (attributeLength : UInt8) (confirm : Memory UInt8) :
    Option (Int × List UInt8) :=
  if confirm 3 = 0 then
    if attributeLength ≠ confirm 6 then some (-1, [])
    else if maxAttributeSize < attributeLength.toNat then none
    else some ((confirm 3).toNat, confirm.read 7 attributeLength.toNat)
  else some ((confirm 3).toNat, [])

def msapAppConfigDataReadRequest (size : UInt8) (confirm : Memory UInt8) :
    Option (Int × Option AppConfigDataConf) :=
  if confirm 3 = 0 then
    let sizeToRead := if maximumAppConfigSize < size.toNat then maximumAppConfigSize else size.toNat
    some ((confirm 3).toNat,
      some ⟨confirm 4, uint16DecodeLe (confirm.read 5 2), confirm.read 7 sizeToRead⟩)
  else some ((confirm 3).toNat, none)

def msapConfigDataItemGetRequest (payloadCapacity : Nat) (confirm : Memory UInt8) :
    Option (Int × List UInt8) :=
  if confirm 3 = 0 then
    let payloadLength := confirm 4
    if payloadCapacity < payloadLength.toNat then some (wpcIntWrongBufferSize, [])
    else if maximumCdcItemPayloadSize < payloadLength.toNat then some (wpcIntWrongParamError, [])
    else some ((confirm 3).toNat, confirm.read 5 payloadLength.toNat)
  else some ((confirm 3).toNat, [])

/-- The block that is too big is not asked for. -/
def msapScratchpadBlockReadRequest (numberOfBytes : UInt8) (confirm : Memory UInt8) :
    Option (Int × List UInt8) :=
  if maximumScratchpadBlockSize < numberOfBytes.toNat then some (6, [])
  else if confirm 3 = 0 then some ((confirm 3).toNat, confirm.read 4 numberOfBytes.toNat)
  else some ((confirm 3).toNat, [])

/-- `app_nbor_info_t`. -/
structure AppNborInfo where
  add : UInt32
  linkRel : UInt8
  normRssi : UInt8
  cost : UInt8
  channel : UInt8
  nborType : UInt8
  txPower : UInt8
  rxPower : UInt8
  lastUpdate : UInt16
deriving DecidableEq, Repr

/-- `sizeof(neighbor_info_t)`. -/
def sizeofNeighborInfo : Nat := 13

def neighborInfo (nbors : Memory UInt8) (i : Nat) : AppNborInfo :=
  let cell (k : Nat) : Int := (i * sizeofNeighborInfo + k : Nat)
  { add := uint32DecodeLe (nbors.read (cell 0) 4)
    linkRel := nbors (cell 4)
    normRssi := nbors (cell 5)
    cost := nbors (cell 6)
    channel := nbors (cell 7)
    nborType := nbors (cell 8)
    txPower := nbors (cell 9)
    rxPower := nbors (cell 10)
    lastUpdate := uint16DecodeLe (nbors.read (cell 11) 2) }

/-- `convert_internal_to_app_neighbors_status`, of the copy that `msap_get_nbors_request` made. -/
def wpcGetNeighbors (confirm : Memory UInt8) : Option (List AppNborInfo) :=
  let numberOfNeighbors := (confirm 3).toNat
  let nbors : Memory UInt8 := fun i => confirm (4 + i)
  if maximumNumberOfNeighbor < numberOfNeighbors then none
  else some ((List.range numberOfNeighbors).map (neighborInfo nbors))

/-- The same in all runs on the received bytes, and no index outside of its array. -/
structure Sound {β : Type} (buffer : List UInt8) (f : Memory UInt8 → Option β) : Prop where
  settled : Settled buffer f
  inArray : ∀ confirm : Memory UInt8, f (copyConfirm confirm buffer) ≠ none

section Extents

variable {buffer : List UInt8}

theorem sound_iff {β : Type} {f : Memory UInt8 → Option β} {extent : Memory UInt8 → Nat}
    (h : Extent f extent) :
    Sound buffer f ↔ ∀ confirm : Memory UInt8,
      extent (copyConfirm confirm buffer) ≤ buffer.length ∧ f (copyConfirm confirm buffer) ≠ none := by
  constructor
  · intro hSound confirm
    exact ⟨h.settled_iff.mp hSound.settled confirm, hSound.inArray confirm⟩
  · intro hAll
    exact ⟨h.settled_iff.mpr fun m => (hAll m).1, fun m => (hAll m).2⟩

theorem copyConfirm_received (confirm : Memory UInt8) {i : Nat} (h : i < buffer.length) :
    copyConfirm confirm buffer i = buffer.getD i 0 := write_getD confirm buffer h 0

theorem copyConfirm_zeros (i : Nat) : copyConfirm (fun _ => 0) buffer i = buffer.getD i 0 := by
  by_cases h : i < buffer.length
  · exact copyConfirm_received _ h
  · have hEnd : (0 : Int) + buffer.length ≤ i := by omega
    rw [copyConfirm, write_above _ _ _ hEnd, List.getD_eq_getElem?_getD,
      List.getElem?_eq_none (Nat.le_of_not_lt h)]
    rfl

/-- With a result that is not zero, the function returns it and reads no further. -/
def ReturnsError {γ : Type} (f : Memory UInt8 → Option (Int × γ)) (stored : γ) : Prop :=
  ∀ m : Memory UInt8, m 3 ≠ 0 → f m = some (((m 3).toNat : Int), stored)

section Result

variable {γ : Type} {f : Memory UInt8 → Option (Int × γ)} {stored : γ}

theorem ReturnsError.last (h : ReturnsError f stored) {m : Memory UInt8} (hNonzero : m 3 ≠ 0) :
    ∃ a, f (m.store (3 : Nat) a) ≠ f m := by
  obtain ⟨a, hNe, hOther⟩ := exists_other (m 3)
  refine ⟨a, fun hSame => hOther ?_⟩
  have hStored : m.store (3 : Nat) a 3 = a := store_same m 3 a
  rw [h m hNonzero, h _ (hStored ▸ hNe), hStored] at hSame
  exact UInt8.toNat_inj.mp (Int.ofNat_inj.mp (Prod.mk.inj (Option.some.inj hSame)).1)

/-- What is left to look at is how far the function goes with the result zero. -/
theorem ReturnsError.extent (h : ReturnsError f stored) {e : Memory UInt8 → Nat}
    (hFour : ∀ m, 4 ≤ e m)
    (hLooks : ∀ m m' : Memory UInt8, m 3 = 0 → m' 3 = 0 → (∀ k < e m, m k = m' k) → f m = f m')
    (hLast : ∀ (m : Memory UInt8) (n : Nat), m 3 = 0 → e m = n + 1 → ∃ a, f (m.store n a) ≠ f m) :
    Extent f fun m => if m 3 = 0 then e m else 4 := by
  constructor
  · intro m m' hSame
    have hBeyond := hFour m
    have hResult : m 3 = m' 3 := hSame 3 (by split <;> omega)
    by_cases hZero : m 3 = 0
    · rw [if_pos hZero] at hSame
      exact hLooks m m' hZero (hResult ▸ hZero) hSame
    · rw [h m hZero, h m' (hResult ▸ hZero), hResult]
  · intro m n hEnd
    by_cases hZero : m 3 = 0
    · rw [if_pos hZero] at hEnd
      exact hLast m n hZero hEnd
    · rw [if_neg hZero] at hEnd
      obtain rfl : n = 3 := by omega
      exact h.last hZero

theorem ReturnsError.sound_iff (h : ReturnsError f stored) {e : Memory UInt8 → Nat}
    (hFour : ∀ m, 4 ≤ e m) (hExtent : Extent f fun m => if m 3 = 0 then e m else 4) :
    Sound buffer f ↔ 4 ≤ buffer.length ∧ (buffer.getD 3 0 = 0 → ∀ confirm : Memory UInt8,
      e (copyConfirm confirm buffer) ≤ buffer.length ∧ f (copyConfirm confirm buffer) ≠ none) := by
  rw [Confirm.sound_iff hExtent]
  constructor
  · intro hAll
    have hLength : 4 ≤ buffer.length := by
      have hZeros := (hAll fun _ => 0).1
      have hBeyond := hFour (copyConfirm (fun _ => 0) buffer)
      split at hZeros <;> omega
    refine ⟨hLength, fun hZero confirm => ?_⟩
    have hResult : copyConfirm confirm buffer 3 = 0 :=
      (copyConfirm_received confirm hLength).trans hZero
    have hThis := hAll confirm
    rw [if_pos hResult] at hThis
    exact hThis
  · rintro ⟨hLength, hRest⟩ confirm
    have hResult : copyConfirm confirm buffer 3 = buffer.getD 3 0 :=
      copyConfirm_received confirm hLength
    by_cases hZero : buffer.getD 3 0 = 0
    · rw [if_pos (hResult.trans hZero)]
      exact hRest hZero confirm
    · rw [if_neg (hResult ▸ hZero), h _ (hResult ▸ hZero)]
      exact ⟨hLength, nofun⟩

end Result

theorem read_last {m : Memory UInt8} {pos : Nat} {n k : Nat} (h : pos + n = k + 1) (hPos : 0 < n) :
    ∃ a, (m.store k a).read pos n ≠ m.read pos n := by
  obtain ⟨a, -, ha⟩ := exists_other (m (pos + (n - 1) : Nat))
  obtain rfl : k = pos + (n - 1) := by omega
  exact ⟨a, read_store_ne (by omega) ha⟩

section Attribute

variable {attributeLength : UInt8} {m : Memory UInt8}

theorem attributeReadRequest_error : ReturnsError (attributeReadRequest attributeLength) [] :=
  fun _ h => if_neg h

theorem attributeReadRequest_wrong (hZero : m 3 = 0) (h : attributeLength ≠ m 6) :
    attributeReadRequest attributeLength m = some (-1, []) := by
  rw [attributeReadRequest, if_pos hZero, if_pos h]

theorem attributeReadRequest_outside (hZero : m 3 = 0) (h : attributeLength = m 6)
    (hMax : maxAttributeSize < attributeLength.toNat) :
    attributeReadRequest attributeLength m = none := by
  rw [attributeReadRequest, if_pos hZero, if_neg (not_not.mpr h), if_pos hMax]

theorem attributeReadRequest_value (hZero : m 3 = 0) (h : attributeLength = m 6)
    (hMax : attributeLength.toNat ≤ maxAttributeSize) :
    attributeReadRequest attributeLength m = some (0, m.read 7 attributeLength.toNat) := by
  rw [attributeReadRequest, if_pos hZero, if_neg (not_not.mpr h), if_neg (Nat.not_lt.mpr hMax), hZero]
  rfl

def attributeExtent (attributeLength : UInt8) (confirm : Memory UInt8) : Nat :=
  if attributeLength = confirm 6 ∧ attributeLength.toNat ≤ maxAttributeSize
  then 7 + attributeLength.toNat else 7

theorem seven_le_attributeExtent (attributeLength : UInt8) (m : Memory UInt8) :
    7 ≤ attributeExtent attributeLength m := by
  unfold attributeExtent
  split <;> omega

theorem attributeReadRequest_extent (attributeLength : UInt8) :
    Extent (attributeReadRequest attributeLength)
      fun m => if m 3 = 0 then attributeExtent attributeLength m else 4 := by
  apply attributeReadRequest_error.extent
  · exact fun m => Nat.le_trans (by decide) (seven_le_attributeExtent attributeLength m)
  · intro m m' hZero hZero' hSame
    have hLength : m 6 = m' 6 := hSame 6 (seven_le_attributeExtent attributeLength m)
    unfold attributeExtent at hSame
    by_cases hCount : attributeLength = m 6
    · by_cases hMax : attributeLength.toNat ≤ maxAttributeSize
      · rw [if_pos ⟨hCount, hMax⟩] at hSame
        rw [attributeReadRequest_value hZero hCount hMax,
          attributeReadRequest_value hZero' (hCount.trans hLength) hMax,
          read_congr fun k hk => hSame (7 + k) (by omega)]
      · rw [attributeReadRequest_outside hZero hCount (Nat.lt_of_not_le hMax),
          attributeReadRequest_outside hZero' (hCount.trans hLength) (Nat.lt_of_not_le hMax)]
    · rw [attributeReadRequest_wrong hZero hCount,
        attributeReadRequest_wrong hZero' fun h => hCount (h.trans hLength.symm)]
  · intro m n hZero hEnd
    have hZero' (a : UInt8) : m.store (6 : Nat) a 3 = 0 := hZero
    unfold attributeExtent at hEnd
    split at hEnd
    · next hValue =>
      rw [attributeReadRequest_value hZero hValue.1 hValue.2]
      rcases Nat.eq_zero_or_pos attributeLength.toNat with hEmpty | hPos
      · obtain rfl : n = 6 := by omega
        obtain ⟨a, -, ha⟩ := exists_other attributeLength
        refine ⟨a, ?_⟩
        rw [attributeReadRequest_wrong (hZero' a) (store_same m 6 a ▸ ha.symm)]
        exact fun h => absurd (Prod.mk.inj (Option.some.inj h)).1 (by decide)
      · obtain ⟨a, ha⟩ := read_last (m := m) hEnd hPos
        refine ⟨a, ?_⟩
        have hFar (c : Int) (hc : c < 7) : m.store n a c = m c := store_other _ _ _ (by omega)
        rw [attributeReadRequest_value ((hFar 3 (by decide)).trans hZero)
          (hValue.1.trans (hFar 6 (by decide)).symm) hValue.2]
        exact fun h => ha (Prod.mk.inj (Option.some.inj h)).2
    · next hValue =>
      obtain rfl : n = 6 := by omega
      by_cases hLength : attributeLength = m 6
      · have hMax : maxAttributeSize < attributeLength.toNat :=
          Nat.lt_of_not_le fun hMax => hValue ⟨hLength, hMax⟩
        obtain ⟨a, -, ha⟩ := exists_other attributeLength
        refine ⟨a, ?_⟩
        rw [attributeReadRequest_outside hZero hLength hMax,
          attributeReadRequest_wrong (hZero' a) (store_same m 6 a ▸ ha.symm)]
        exact nofun
      · refine ⟨attributeLength, ?_⟩
        rw [attributeReadRequest_wrong hZero hLength]
        have hSame : attributeLength = m.store (6 : Nat) attributeLength 6 := (store_same m 6 _).symm
        by_cases hMax : attributeLength.toNat ≤ maxAttributeSize
        · rw [attributeReadRequest_value (hZero' _) hSame hMax]
          exact fun h => absurd (Prod.mk.inj (Option.some.inj h)).1 (by decide)
        · rw [attributeReadRequest_outside (hZero' _) hSame (Nat.lt_of_not_le hMax)]
          exact nofun

theorem attributeReadRequest_sound_iff :
    Sound buffer (attributeReadRequest attributeLength) ↔
      4 ≤ buffer.length ∧ (buffer.getD 3 0 = 0 → 7 ≤ buffer.length ∧
        (buffer.getD 6 0 = attributeLength →
          7 + attributeLength.toNat ≤ buffer.length ∧ attributeLength.toNat ≤ maxAttributeSize)) := by
  rw [attributeReadRequest_error.sound_iff
    (fun m => Nat.le_trans (by decide) (seven_le_attributeExtent attributeLength m))
    (attributeReadRequest_extent attributeLength)]
  refine and_congr_right fun hFour => imp_congr_right fun hZero => ?_
  have hResult (confirm : Memory UInt8) : copyConfirm confirm buffer 3 = 0 :=
    (copyConfirm_received confirm hFour).trans hZero
  constructor
  · intro hAll
    obtain ⟨hExtent, hSome⟩ := hAll fun _ => 0
    have hLength : copyConfirm (fun _ => 0) buffer 6 = buffer.getD 6 0 := copyConfirm_zeros 6
    refine ⟨Nat.le_trans (seven_le_attributeExtent attributeLength _) hExtent, fun hCount => ?_⟩
    have hSame := (hLength.trans hCount).symm
    have hMax : attributeLength.toNat ≤ maxAttributeSize :=
      Nat.le_of_not_lt fun hMax => hSome (attributeReadRequest_outside (hResult _) hSame hMax)
    rw [attributeExtent, if_pos ⟨hSame, hMax⟩] at hExtent
    exact ⟨hExtent, hMax⟩
  · rintro ⟨hSeven, hValue⟩ confirm
    have hLength : copyConfirm confirm buffer 6 = buffer.getD 6 0 :=
      copyConfirm_received confirm hSeven
    by_cases hCount : buffer.getD 6 0 = attributeLength
    · obtain ⟨hBytes, hMax⟩ := hValue hCount
      have hSame := (hLength.trans hCount).symm
      rw [attributeExtent, if_pos ⟨hSame, hMax⟩,
        attributeReadRequest_value (hResult confirm) hSame hMax]
      exact ⟨hBytes, nofun⟩
    · have hOther : attributeLength ≠ copyConfirm confirm buffer 6 :=
        fun h => hCount (hLength.symm.trans h.symm)
      rw [attributeExtent, if_neg fun h => hOther h.1, attributeReadRequest_wrong (hResult confirm) hOther]
      exact ⟨hSeven, nofun⟩

end Attribute

section AppConfig

variable {size : UInt8} {m : Memory UInt8}

def appConfigToRead (size : UInt8) : Nat :=
  if maximumAppConfigSize < size.toNat then maximumAppConfigSize else size.toNat

theorem msapAppConfigDataReadRequest_error : ReturnsError (msapAppConfigDataReadRequest size) none :=
  fun _ h => if_neg h

theorem msapAppConfigDataReadRequest_value (hZero : m 3 = 0) :
    msapAppConfigDataReadRequest size m = some (0,
      some ⟨m 4, uint16DecodeLe (m.read 5 2), m.read 7 (appConfigToRead size)⟩) := by
  rw [msapAppConfigDataReadRequest, if_pos hZero, hZero]
  rfl

theorem msapAppConfigDataReadRequest_extent (size : UInt8) :
    Extent (msapAppConfigDataReadRequest size)
      fun m => if m 3 = 0 then 7 + appConfigToRead size else 4 := by
  apply msapAppConfigDataReadRequest_error.extent
  · exact fun m => by omega
  · intro m m' hZero hZero' hSame
    rw [msapAppConfigDataReadRequest_value hZero, msapAppConfigDataReadRequest_value hZero',
      show m 4 = m' 4 from hSame 4 (by omega),
      show m.read 5 2 = m'.read 5 2 from read_congr fun k hk => hSame (5 + k) (by omega),
      show m.read 7 (appConfigToRead size) = m'.read 7 (appConfigToRead size) from
        read_congr fun k hk => hSame (7 + k) (by omega)]
  · intro m n hZero hEnd
    rcases Nat.eq_zero_or_pos (appConfigToRead size) with hEmpty | hPos
    · obtain rfl : n = 6 := by omega
      obtain ⟨a, -, ha⟩ := exists_other (m 6)
      have hZero' : m.store (6 : Nat) a 3 = 0 := hZero
      refine ⟨a, fun h => ha ?_⟩
      rw [msapAppConfigDataReadRequest_value hZero, msapAppConfigDataReadRequest_value hZero'] at h
      have hConf := Option.some.inj (Prod.mk.inj (Option.some.inj h)).2
      exact uint16DecodeLe_high (AppConfigDataConf.mk.inj hConf).2.1
    · obtain ⟨a, ha⟩ := read_last (m := m) hEnd hPos
      have hZero' : m.store n a 3 = 0 := (store_other m _ a (by omega)).trans hZero
      refine ⟨a, fun h => ha ?_⟩
      rw [msapAppConfigDataReadRequest_value hZero, msapAppConfigDataReadRequest_value hZero'] at h
      have hConf := Option.some.inj (Prod.mk.inj (Option.some.inj h)).2
      exact (AppConfigDataConf.mk.inj hConf).2.2

theorem msapAppConfigDataReadRequest_sound_iff :
    Sound buffer (msapAppConfigDataReadRequest size) ↔
      4 ≤ buffer.length ∧ (buffer.getD 3 0 = 0 → 7 + appConfigToRead size ≤ buffer.length) := by
  rw [msapAppConfigDataReadRequest_error.sound_iff (fun m => by omega)
    (msapAppConfigDataReadRequest_extent size)]
  refine and_congr_right fun hFour => imp_congr_right fun hZero => ?_
  constructor
  · exact fun hAll => (hAll fun _ => 0).1
  · intro hBytes confirm
    rw [msapAppConfigDataReadRequest_value ((copyConfirm_received confirm hFour).trans hZero)]
    exact ⟨hBytes, nofun⟩

end AppConfig

section ConfigDataItem

variable {payloadCapacity : Nat} {m : Memory UInt8}

theorem msapConfigDataItemGetRequest_error :
    ReturnsError (msapConfigDataItemGetRequest payloadCapacity) [] :=
  fun _ h => if_neg h

/-- The item fits the buffer of the caller and the array of the confirm. -/
def ItemFits (payloadCapacity : Nat) (payloadLength : UInt8) : Prop :=
  payloadLength.toNat ≤ payloadCapacity ∧ payloadLength.toNat ≤ maximumCdcItemPayloadSize

instance (payloadCapacity : Nat) (payloadLength : UInt8) :
    Decidable (ItemFits payloadCapacity payloadLength) := inferInstanceAs (Decidable (_ ∧ _))

theorem msapConfigDataItemGetRequest_value (hZero : m 3 = 0) (h : ItemFits payloadCapacity (m 4)) :
    msapConfigDataItemGetRequest payloadCapacity m = some (0, m.read 5 (m 4).toNat) := by
  rw [msapConfigDataItemGetRequest, if_pos hZero, if_neg (Nat.not_lt.mpr h.1),
    if_neg (Nat.not_lt.mpr h.2), hZero]
  rfl

theorem msapConfigDataItemGetRequest_refused (hZero : m 3 = 0)
    (h : ¬ ItemFits payloadCapacity (m 4)) :
    msapConfigDataItemGetRequest payloadCapacity m =
      some (if payloadCapacity < (m 4).toNat then wpcIntWrongBufferSize else wpcIntWrongParamError,
        []) := by
  rw [msapConfigDataItemGetRequest, if_pos hZero]
  by_cases hCapacity : payloadCapacity < (m 4).toNat
  · rw [if_pos hCapacity, if_pos hCapacity]
  · have hSize : maximumCdcItemPayloadSize < (m 4).toNat :=
      Nat.lt_of_not_le fun hSize => h ⟨Nat.le_of_not_lt hCapacity, hSize⟩
    rw [if_neg hCapacity, if_neg hCapacity, if_pos hSize]

theorem refusal_ne_zero (c : Prop) [Decidable c] :
    (if c then wpcIntWrongBufferSize else wpcIntWrongParamError) ≠ 0 := by
  split
  · decide
  · decide

def itemExtent (payloadCapacity : Nat) (confirm : Memory UInt8) : Nat :=
  if ItemFits payloadCapacity (confirm 4) then 5 + (confirm 4).toNat else 5

theorem five_le_itemExtent (payloadCapacity : Nat) (m : Memory UInt8) :
    5 ≤ itemExtent payloadCapacity m := by
  unfold itemExtent
  split <;> omega

theorem msapConfigDataItemGetRequest_extent (payloadCapacity : Nat) :
    Extent (msapConfigDataItemGetRequest payloadCapacity)
      fun m => if m 3 = 0 then itemExtent payloadCapacity m else 4 := by
  apply msapConfigDataItemGetRequest_error.extent
  · exact fun m => Nat.le_trans (by decide) (five_le_itemExtent payloadCapacity m)
  · intro m m' hZero hZero' hSame
    have hLength : m 4 = m' 4 := hSame 4 (five_le_itemExtent payloadCapacity m)
    unfold itemExtent at hSame
    by_cases hFits : ItemFits payloadCapacity (m 4)
    · rw [if_pos hFits] at hSame
      rw [msapConfigDataItemGetRequest_value hZero hFits,
        msapConfigDataItemGetRequest_value hZero' (hLength ▸ hFits), ← hLength,
        show m.read 5 (m 4).toNat = m'.read 5 (m 4).toNat from
          read_congr fun k hk => hSame (5 + k) (by omega)]
    · rw [msapConfigDataItemGetRequest_refused hZero hFits,
        msapConfigDataItemGetRequest_refused hZero' (hLength ▸ hFits), hLength]
  · intro m n hZero hEnd
    unfold itemExtent at hEnd
    split at hEnd
    · next hFits =>
      rw [msapConfigDataItemGetRequest_value hZero hFits]
      rcases Nat.eq_zero_or_pos (m 4).toNat with hEmpty | hPos
      · obtain rfl : n = 4 := by omega
        obtain ⟨a, hNe, -⟩ := exists_other (m 4)
        have hZero' : m.store (4 : Nat) a 3 = 0 := hZero
        have hLength : m.store (4 : Nat) a 4 = a := store_same m 4 a
        refine ⟨a, ?_⟩
        by_cases hFits' : ItemFits payloadCapacity a
        · rw [msapConfigDataItemGetRequest_value hZero' (hLength.symm ▸ hFits'), hLength]
          intro h
          have hRead := congrArg List.length (Prod.mk.inj (Option.some.inj h)).2
          rw [length_read, length_read, hEmpty] at hRead
          exact hNe (UInt8.toNat_inj.mp hRead)
        · rw [msapConfigDataItemGetRequest_refused hZero' (hLength.symm ▸ hFits')]
          exact fun h => refusal_ne_zero _ (Prod.mk.inj (Option.some.inj h)).1
      · obtain ⟨a, ha⟩ := read_last (m := m) hEnd hPos
        have hFar (c : Int) (hc : c < 5) : m.store n a c = m c := store_other _ _ _ (by omega)
        refine ⟨a, ?_⟩
        rw [msapConfigDataItemGetRequest_value ((hFar 3 (by decide)).trans hZero)
          ((hFar 4 (by decide)).symm ▸ hFits), hFar 4 (by decide)]
        exact fun h => ha (Prod.mk.inj (Option.some.inj h)).2
    · next hFits =>
      obtain rfl : n = 4 := by omega
      have hZero' : m.store (4 : Nat) 0 3 = 0 := hZero
      have hLength : m.store (4 : Nat) 0 4 = 0 := store_same m 4 0
      refine ⟨0, ?_⟩
      rw [msapConfigDataItemGetRequest_refused hZero hFits, msapConfigDataItemGetRequest_value hZero'
        (hLength.symm ▸ ⟨Nat.zero_le _, Nat.zero_le _⟩)]
      exact fun h => refusal_ne_zero _ (Prod.mk.inj (Option.some.inj h)).1.symm

theorem msapConfigDataItemGetRequest_sound_iff :
    Sound buffer (msapConfigDataItemGetRequest payloadCapacity) ↔
      4 ≤ buffer.length ∧ (buffer.getD 3 0 = 0 → 5 ≤ buffer.length ∧
        (ItemFits payloadCapacity (buffer.getD 4 0) →
          5 + (buffer.getD 4 0).toNat ≤ buffer.length)) := by
  rw [msapConfigDataItemGetRequest_error.sound_iff
    (fun m => Nat.le_trans (by decide) (five_le_itemExtent payloadCapacity m))
    (msapConfigDataItemGetRequest_extent payloadCapacity)]
  refine and_congr_right fun hFour => imp_congr_right fun hZero => ?_
  have hResult (confirm : Memory UInt8) : copyConfirm confirm buffer 3 = 0 :=
    (copyConfirm_received confirm hFour).trans hZero
  constructor
  · intro hAll
    have hExtent := (hAll fun _ => 0).1
    have hLength : copyConfirm (fun _ => 0) buffer 4 = buffer.getD 4 0 := copyConfirm_zeros 4
    refine ⟨Nat.le_trans (five_le_itemExtent payloadCapacity _) hExtent, fun hFits => ?_⟩
    rwa [itemExtent, hLength, if_pos hFits] at hExtent
  · rintro ⟨hFive, hBytes⟩ confirm
    have hLength : copyConfirm confirm buffer 4 = buffer.getD 4 0 :=
      copyConfirm_received confirm hFive
    by_cases hFits : ItemFits payloadCapacity (buffer.getD 4 0)
    · rw [itemExtent, msapConfigDataItemGetRequest_value (hResult confirm) (hLength ▸ hFits), hLength,
        if_pos hFits]
      exact ⟨hBytes hFits, nofun⟩
    · rw [itemExtent, msapConfigDataItemGetRequest_refused (hResult confirm) (hLength ▸ hFits),
        hLength, if_neg hFits]
      exact ⟨hFive, nofun⟩

end ConfigDataItem

section Block

variable {numberOfBytes : UInt8} {m : Memory UInt8}

theorem msapScratchpadBlockReadRequest_tooBig (h : maximumScratchpadBlockSize < numberOfBytes.toNat) :
    msapScratchpadBlockReadRequest numberOfBytes m = some (6, []) := if_pos h

theorem msapScratchpadBlockReadRequest_error
    (h : ¬ maximumScratchpadBlockSize < numberOfBytes.toNat) :
    ReturnsError (msapScratchpadBlockReadRequest numberOfBytes) [] :=
  fun _ hNonzero => (if_neg h).trans (if_neg hNonzero)

theorem msapScratchpadBlockReadRequest_value (h : ¬ maximumScratchpadBlockSize < numberOfBytes.toNat)
    (hZero : m 3 = 0) :
    msapScratchpadBlockReadRequest numberOfBytes m = some (0, m.read 4 numberOfBytes.toNat) := by
  rw [msapScratchpadBlockReadRequest, if_neg h, if_pos hZero, hZero]
  rfl

theorem msapScratchpadBlockReadRequest_extent
    (h : ¬ maximumScratchpadBlockSize < numberOfBytes.toNat) :
    Extent (msapScratchpadBlockReadRequest numberOfBytes)
      fun m => if m 3 = 0 then 4 + numberOfBytes.toNat else 4 := by
  have hError := msapScratchpadBlockReadRequest_error h
  apply hError.extent
  · exact fun m => Nat.le_add_right _ _
  · intro m m' hZero hZero' hSame
    rw [msapScratchpadBlockReadRequest_value h hZero, msapScratchpadBlockReadRequest_value h hZero',
      show m.read 4 numberOfBytes.toNat = m'.read 4 numberOfBytes.toNat from
        read_congr fun k hk => hSame (4 + k) (by omega)]
  · intro m n hZero hEnd
    rcases Nat.eq_zero_or_pos numberOfBytes.toNat with hEmpty | hPos
    · obtain rfl : n = 3 := by omega
      have hStored : m.store (3 : Nat) 1 3 = 1 := store_same m 3 1
      refine ⟨1, ?_⟩
      rw [hError _ (hStored ▸ (by decide : (1 : UInt8) ≠ 0)),
        msapScratchpadBlockReadRequest_value h hZero, hStored]
      exact fun h => absurd (Prod.mk.inj (Option.some.inj h)).1 (by decide)
    · obtain ⟨a, ha⟩ := read_last (m := m) hEnd hPos
      have hZero' : m.store n a 3 = 0 := (store_other m _ a (by omega)).trans hZero
      refine ⟨a, ?_⟩
      rw [msapScratchpadBlockReadRequest_value h hZero, msapScratchpadBlockReadRequest_value h hZero']
      exact fun h => ha (Prod.mk.inj (Option.some.inj h)).2

theorem msapScratchpadBlockReadRequest_sound_iff :
    Sound buffer (msapScratchpadBlockReadRequest numberOfBytes) ↔
      maximumScratchpadBlockSize < numberOfBytes.toNat ∨
        4 ≤ buffer.length ∧ (buffer.getD 3 0 = 0 → 4 + numberOfBytes.toNat ≤ buffer.length) := by
  by_cases hBig : maximumScratchpadBlockSize < numberOfBytes.toNat
  · refine iff_of_true ⟨fun m m' => ?_, fun confirm => ?_⟩ (.inl hBig)
    · rw [msapScratchpadBlockReadRequest_tooBig hBig, msapScratchpadBlockReadRequest_tooBig hBig]
    · rw [msapScratchpadBlockReadRequest_tooBig hBig]
      exact nofun
  · rw [(msapScratchpadBlockReadRequest_error hBig).sound_iff (fun m => Nat.le_add_right _ _)
      (msapScratchpadBlockReadRequest_extent hBig), or_iff_right hBig]
    refine and_congr_right fun hFour => imp_congr_right fun hZero => ?_
    constructor
    · exact fun hAll => (hAll fun _ => 0).1
    · intro hBytes confirm
      rw [msapScratchpadBlockReadRequest_value hBig ((copyConfirm_received confirm hFour).trans hZero)]
      exact ⟨hBytes, nofun⟩

end Block

section Neighbors

variable {m : Memory UInt8}

def neighborsOf (confirm : Memory UInt8) (n : Nat) : List AppNborInfo :=
  (List.range n).map (neighborInfo fun i => confirm (4 + i))

theorem wpcGetNeighbors_list (h : (m 3).toNat ≤ maximumNumberOfNeighbor) :
    wpcGetNeighbors m = some (neighborsOf m (m 3).toNat) := if_neg (Nat.not_lt.mpr h)

theorem wpcGetNeighbors_outside (h : maximumNumberOfNeighbor < (m 3).toNat) :
    wpcGetNeighbors m = none := if_pos h

def neighborsExtent (confirm : Memory UInt8) : Nat :=
  if (confirm 3).toNat ≤ maximumNumberOfNeighbor
  then 4 + sizeofNeighborInfo * (confirm 3).toNat else 4

theorem neighborInfo_congr {nbors nbors' : Memory UInt8} {i : Nat}
    (h : ∀ k < sizeofNeighborInfo, nbors (i * sizeofNeighborInfo + k : Nat) =
      nbors' (i * sizeofNeighborInfo + k : Nat)) : neighborInfo nbors i = neighborInfo nbors' i := by
  have hSize : sizeofNeighborInfo = 13 := rfl
  have hField (k n : Nat) (hk : k + n ≤ sizeofNeighborInfo) :
      nbors.read (i * sizeofNeighborInfo + k : Nat) n =
        nbors'.read (i * sizeofNeighborInfo + k : Nat) n := by
    apply read_congr
    intro j hj
    have hCell := h (k + j) (by omega)
    rwa [← Nat.add_assoc, Int.natCast_add (i * sizeofNeighborInfo + k) j] at hCell
  simp only [neighborInfo]
  rw [hField 0 4 (by decide), hField 11 2 (by decide), h 4 (by decide), h 5 (by decide),
    h 6 (by decide), h 7 (by decide), h 8 (by decide), h 9 (by decide), h 10 (by decide)]

theorem neighborsOf_congr {m' : Memory UInt8} {n : Nat}
    (h : ∀ k < 4 + sizeofNeighborInfo * n, m k = m' k) : neighborsOf m n = neighborsOf m' n := by
  have hSize : sizeofNeighborInfo = 13 := rfl
  apply List.map_congr_left
  intro i hi
  have hIndex := List.mem_range.mp hi
  apply neighborInfo_congr
  intro k hk
  have hCell := h (4 + (i * sizeofNeighborInfo + k)) (by rw [hSize] at hk ⊢; omega)
  rwa [Int.natCast_add] at hCell

/-- The last byte of the last neighbor is the high byte of its `last_update`. -/
theorem neighborsOf_last {n : Nat} {a : UInt8} (ha : a ≠ m (4 + (n * sizeofNeighborInfo + 12) : Nat)) :
    neighborsOf (m.store (4 + (n * sizeofNeighborInfo + 12) : Nat) a) (n + 1) ≠
      neighborsOf m (n + 1) := by
  intro hSame
  have hInfo := List.map_inj_left.mp hSame n (List.mem_range.mpr (Nat.lt_succ_self n))
  have hUpdate := congrArg AppNborInfo.lastUpdate hInfo
  have hPlace : (4 : Int) + ((n * sizeofNeighborInfo + 11 : Nat) + (1 : Nat)) =
      (4 + (n * sizeofNeighborInfo + 12) : Nat) := by omega
  have hHigh : m.store (4 + (n * sizeofNeighborInfo + 12) : Nat) a
      (4 + ((n * sizeofNeighborInfo + 11 : Nat) + (1 : Nat))) =
        m (4 + ((n * sizeofNeighborInfo + 11 : Nat) + (1 : Nat))) := uint16DecodeLe_high hUpdate
  rw [hPlace, store_same] at hHigh
  exact ha hHigh

theorem wpcGetNeighbors_extent : Extent wpcGetNeighbors neighborsExtent := by
  have hSize : sizeofNeighborInfo = 13 := rfl
  constructor
  · intro m m' hSame
    unfold neighborsExtent at hSame
    have hCount : m 3 = m' 3 := hSame 3 (by split <;> omega)
    by_cases hInside : (m 3).toNat ≤ maximumNumberOfNeighbor
    · rw [if_pos hInside] at hSame
      rw [wpcGetNeighbors_list hInside, wpcGetNeighbors_list (hCount ▸ hInside), ← hCount,
        neighborsOf_congr hSame]
    · have hOutside := Nat.lt_of_not_le hInside
      rw [wpcGetNeighbors_outside hOutside, wpcGetNeighbors_outside (hCount ▸ hOutside)]
  · intro m n hEnd
    unfold neighborsExtent at hEnd
    split at hEnd
    · next hInside =>
      rw [wpcGetNeighbors_list hInside]
      rcases Nat.eq_zero_or_pos (m 3).toNat with hNone | hPos
      · obtain rfl : n = 3 := by rw [hNone] at hEnd; omega
        have hOne : (m.store (3 : Nat) 1 3).toNat = 1 := congrArg UInt8.toNat (store_same m 3 1)
        refine ⟨1, ?_⟩
        rw [wpcGetNeighbors_list (hOne.trans_le (by decide)), hOne, hNone]
        intro h
        exact absurd (congrArg List.length (Option.some.inj h)) (by simp [neighborsOf])
      · obtain ⟨last, hLast⟩ : ∃ last, (m 3).toNat = last + 1 := ⟨(m 3).toNat - 1, by omega⟩
        obtain rfl : n = 4 + (last * sizeofNeighborInfo + 12) := by
          rw [hLast, hSize] at hEnd
          rw [hSize]
          omega
        obtain ⟨a, -, ha⟩ := exists_other (m (4 + (last * sizeofNeighborInfo + 12) : Nat))
        have hCount : m.store (4 + (last * sizeofNeighborInfo + 12) : Nat) a 3 = m 3 :=
          store_other _ _ _ (by omega)
        refine ⟨a, ?_⟩
        rw [wpcGetNeighbors_list (hCount.symm ▸ hInside), hCount, hLast]
        exact fun h => neighborsOf_last ha (Option.some.inj h)
    · next hOutside =>
      obtain rfl : n = 3 := by omega
      have hZero : (m.store (3 : Nat) 0 3).toNat = 0 := congrArg UInt8.toNat (store_same m 3 0)
      refine ⟨0, ?_⟩
      rw [wpcGetNeighbors_outside (Nat.lt_of_not_le hOutside),
        wpcGetNeighbors_list (hZero.trans_le (Nat.zero_le _))]
      exact nofun

theorem wpcGetNeighbors_sound_iff :
    Sound buffer wpcGetNeighbors ↔
      4 ≤ buffer.length ∧ (buffer.getD 3 0).toNat ≤ maximumNumberOfNeighbor ∧
        4 + sizeofNeighborInfo * (buffer.getD 3 0).toNat ≤ buffer.length := by
  rw [sound_iff wpcGetNeighbors_extent]
  constructor
  · intro hAll
    obtain ⟨hExtent, hSome⟩ := hAll fun _ => 0
    have hCount : copyConfirm (fun _ => 0) buffer 3 = buffer.getD 3 0 := copyConfirm_zeros 3
    have hInside : (buffer.getD 3 0).toNat ≤ maximumNumberOfNeighbor :=
      Nat.le_of_not_lt fun hOutside => hSome (wpcGetNeighbors_outside (hCount.symm ▸ hOutside))
    rw [neighborsExtent, hCount, if_pos hInside] at hExtent
    exact ⟨Nat.le_of_add_right_le hExtent, hInside, hExtent⟩
  · rintro ⟨hFour, hInside, hBytes⟩ confirm
    have hCount : copyConfirm confirm buffer 3 = buffer.getD 3 0 := copyConfirm_received confirm hFour
    rw [neighborsExtent, wpcGetNeighbors_list (hCount.symm ▸ hInside), hCount, if_pos hInside]
    exact ⟨hBytes, nofun⟩

end Neighbors

end Extents

inductive Reader where
  | attributeValue (attributeLength : UInt8)
  | appConfigData (size : UInt8)
  | configDataItem (payloadCapacity : Nat)
  | scratchpadBlock (numberOfBytes : UInt8)
  | neighbors

/-- On the received bytes, the reader gives the same in all runs, from inside of its arrays. -/
def Reader.Sound (buffer : List UInt8) : Reader → Prop
  | .attributeValue attributeLength => Confirm.Sound buffer (attributeReadRequest attributeLength)
  | .appConfigData size => Confirm.Sound buffer (msapAppConfigDataReadRequest size)
  | .configDataItem payloadCapacity =>
    Confirm.Sound buffer (msapConfigDataItemGetRequest payloadCapacity)
  | .scratchpadBlock numberOfBytes =>
    Confirm.Sound buffer (msapScratchpadBlockReadRequest numberOfBytes)
  | .neighbors => Confirm.Sound buffer wpcGetNeighbors

/-- The frame holds what the reader takes from it, and declares no more than its array holds. -/
def Reader.Covered (buffer : List UInt8) : Reader → Prop
  | .attributeValue attributeLength =>
    4 ≤ buffer.length ∧ (buffer.getD 3 0 = 0 → 7 ≤ buffer.length ∧
      (buffer.getD 6 0 = attributeLength →
        7 + attributeLength.toNat ≤ buffer.length ∧ attributeLength.toNat ≤ maxAttributeSize))
  | .appConfigData size =>
    4 ≤ buffer.length ∧ (buffer.getD 3 0 = 0 → 7 + appConfigToRead size ≤ buffer.length)
  | .configDataItem payloadCapacity =>
    4 ≤ buffer.length ∧ (buffer.getD 3 0 = 0 → 5 ≤ buffer.length ∧
      (ItemFits payloadCapacity (buffer.getD 4 0) → 5 + (buffer.getD 4 0).toNat ≤ buffer.length))
  | .scratchpadBlock numberOfBytes =>
    maximumScratchpadBlockSize < numberOfBytes.toNat ∨
      4 ≤ buffer.length ∧ (buffer.getD 3 0 = 0 → 4 + numberOfBytes.toNat ≤ buffer.length)
  | .neighbors =>
    4 ≤ buffer.length ∧ (buffer.getD 3 0).toNat ≤ maximumNumberOfNeighbor ∧
      4 + sizeofNeighborInfo * (buffer.getD 3 0).toNat ≤ buffer.length

theorem reader_sound_iff_covered (buffer : List UInt8) (r : Reader) :
    r.Sound buffer ↔ r.Covered buffer := by
  cases r with
  | attributeValue attributeLength => exact attributeReadRequest_sound_iff
  | appConfigData size => exact msapAppConfigDataReadRequest_sound_iff
  | configDataItem payloadCapacity => exact msapConfigDataItemGetRequest_sound_iff
  | scratchpadBlock numberOfBytes => exact msapScratchpadBlockReadRequest_sound_iff
  | neighbors => exact wpcGetNeighbors_sound_iff

/-- A confirm of two attribute bytes that ends before them, and one of nine neighbors. -/
theorem short_and_long_confirms_unsound :
    ¬ (Reader.attributeValue 2).Sound [0x8E, 5, 4, 0, 4, 0, 2] ∧
      ¬ Reader.neighbors.Sound [0xA0, 5, 1, 9] := by
  constructor
  · rw [Reader.Sound, attributeReadRequest_sound_iff]
    decide
  · rw [Reader.Sound, wpcGetNeighbors_sound_iff]
    decide

end CMeshApi.Wpc.Confirm
