import CMeshApi.Slip.RoundTrip

/-!
# An output buffer that is too small

`slip_encode_buffer` answers a buffer that is too small with `WPC_INT_WRONG_BUFFER_SIZE`, and
`Slip_encode` compares with -1. The error is then taken for a length: what follows is placed six
bytes further to the front, and the sum is returned.
-/

namespace CMeshApi.Slip

open Stuffing

theorem slipEncodeLoop_other (base : Int) (len : Nat) (buffer : List UInt8) (write : UInt8)
    (mem : Memory UInt8) {i : Int} (h : i < base ∨ base + len ≤ i) :
    (slipEncodeLoop base len buffer write mem).1 i = mem i := by
  have hStore : ∀ (w a : UInt8) (m : Memory UInt8), ¬ len ≤ w.toNat →
      m.store (base + w.toNat) a i = m i :=
    fun w a m hFits => m.store_other _ a (by omega)
  induction buffer generalizing write mem with
  | nil => rfl
  | cons current buffer ih =>
    rw [slipEncodeLoop]
    split
    · split
      · rfl
      · next hFirst =>
        dsimp only
        split
        · exact hStore write _ mem hFirst
        · next hSecond =>
          exact (ih _ _).trans ((hStore (write + 1) _ _ hSecond).trans (hStore write _ mem hFirst))
    · split
      · rfl
      · next hFits => exact (ih _ _).trans (hStore write _ mem hFits)

theorem slipEncodeBuffer_other (buffer : List UInt8) (mem : Memory UInt8) (base : Int) (len : Nat) {i : Int}
    (h : i < base ∨ base + len ≤ i) : (slipEncodeBuffer buffer mem base len).1 i = mem i := by
  have hOther := slipEncodeLoop_other base len buffer 0 mem h
  rw [slipEncodeBuffer]
  rcases hLoop : slipEncodeLoop base len buffer 0 mem with ⟨mem', write | write⟩
  · rwa [hLoop] at hOther
  · rwa [hLoop] at hOther

/-- A capacity below the wrap of the position is found exceeded. -/
theorem slipEncodeLoop_overflow (base : Int) {len : Nat} (hByte : len ≤ 255) (buffer : List UInt8)
    (write : UInt8) (mem : Memory UInt8) (hWrite : write.toNat ≤ len)
    (hLarge : len < write.toNat + (escaped buffer).length) :
    (slipEncodeLoop base len buffer write mem).2 = none := by
  induction buffer generalizing write mem with
  | nil => exact absurd hLarge (Nat.not_lt.mpr hWrite)
  | cons current buffer ih =>
    have hCons : escaped (current :: buffer) =
        slipStuffing.stuffSymbol current ++ escaped buffer := rfl
    rw [hCons, List.length_append] at hLarge
    by_cases hReserved : current = endSlipOctet ∨ current = escSlipOctet
    · rw [slipStuffing.stuffSymbol_reserved (subst_of_reserved hReserved), List.length_cons,
        List.length_singleton] at hLarge
      rw [slipEncodeLoop, if_pos hReserved]
      split
      · rfl
      · have hOne : (write + 1).toNat = write.toNat + 1 := toNat_succ (by omega)
        dsimp only
        split
        · rfl
        · have hTwo : (write + 1 + 1).toNat = write.toNat + 2 := by
            rw [toNat_succ (by omega), hOne]
          exact ih _ _ (by omega) (by omega)
    · rw [slipStuffing.stuffSymbol_ordinary (subst_eq_none_iff.mpr hReserved), List.length_singleton] at hLarge
      rw [slipEncodeLoop, if_neg hReserved]
      split
      · rfl
      · have hOne : (write + 1).toNat = write.toNat + 1 := toNat_succ (by omega)
        exact ih _ _ (by omega) (by omega)

theorem slipEncodeBuffer_overflow (buffer : List UInt8) (mem : Memory UInt8) (base : Int) (len : Nat)
    (hByte : len ≤ 255) (hLarge : len < (escaped buffer).length) :
    (slipEncodeBuffer buffer mem base len).2 = wpcIntWrongBufferSize := by
  have hNone := slipEncodeLoop_overflow base hByte buffer 0 mem (Nat.zero_le _) (by simpa using hLarge)
  rw [slipEncodeBuffer]
  rcases hLoop : slipEncodeLoop base len buffer 0 mem with ⟨mem', write⟩
  rw [hLoop] at hNone
  obtain rfl : write = none := hNone
  rfl

/-- The frame, as far as the first byte of its CRC. -/
def untilLowCrc (buffer : List UInt8) : List UInt8 := buffer ++ [crcByte (crcFromBuffer buffer) 0]

/-- The length of the encoded frame is returned if it fits and an error otherwise, and nothing is
written outside of the output buffer, whatever it holds. -/
def RespectsCapacity (buffer : List UInt8) (lenOut : UInt32) : Prop :=
  ∀ bufferOut : Memory UInt8,
    ((escaped (buffer ++ crcBytes buffer)).length ≤ lenOut.toNat →
        (slipEncode buffer bufferOut lenOut).2 = (escaped (buffer ++ crcBytes buffer)).length) ∧
      (lenOut.toNat < (escaped (buffer ++ crcBytes buffer)).length →
        (slipEncode buffer bufferOut lenOut).2 < 0) ∧
      ∀ i, i < 0 ∨ (lenOut.toNat : Int) ≤ i → (slipEncode buffer bufferOut lenOut).1 i = bufferOut i

/-- There is room for all, or only the last byte of the CRC has none and at most five bytes come
before it. -/
def CapacityKnown (buffer : List UInt8) (lenOut : UInt32) : Prop :=
  ((escaped buffer).length ≤ 255 ∧ (escaped (buffer ++ crcBytes buffer)).length ≤ lenOut.toNat) ∨
    ((escaped (untilLowCrc buffer)).length ≤ lenOut.toNat ∧
      lenOut.toNat < (escaped (buffer ++ crcBytes buffer)).length ∧
      (escaped (untilLowCrc buffer)).length ≤ 5)

section Capacity

variable (buffer : List UInt8) (lenOut : UInt32)

theorem crcBytes_eq : crcBytes buffer =
    [crcByte (crcFromBuffer buffer) 0, crcByte (crcFromBuffer buffer) 1] := rfl

theorem length_untilLowCrc : (escaped (untilLowCrc buffer)).length =
    (escaped buffer).length + (escaped [crcByte (crcFromBuffer buffer) 0]).length := by
  have hAppend : escaped (untilLowCrc buffer) =
      escaped buffer ++ escaped [crcByte (crcFromBuffer buffer) 0] := slipStuffing.stuff_append _ _
  rw [hAppend, List.length_append]

theorem length_encoded : (escaped (buffer ++ crcBytes buffer)).length =
    (escaped (untilLowCrc buffer)).length + (escaped [crcByte (crcFromBuffer buffer) 1]).length := by
  have hSplit : buffer ++ crcBytes buffer = untilLowCrc buffer ++ [crcByte (crcFromBuffer buffer) 1] := by
    rw [crcBytes_eq, untilLowCrc, List.append_assoc]
    rfl
  have hAppend : escaped (untilLowCrc buffer ++ [crcByte (crcFromBuffer buffer) 1]) =
      escaped (untilLowCrc buffer) ++ escaped [crcByte (crcFromBuffer buffer) 1] :=
    slipStuffing.stuff_append _ _
  rw [hSplit, hAppend, List.length_append]

theorem length_escaped_singleton (b : UInt8) : 0 < (escaped [b]).length ∧ (escaped [b]).length ≤ 2 := by
  refine ⟨?_, slipStuffing.length_stuff_le [b]⟩
  rw [escaped, stuff_cons, List.length_append]
  cases h : slipStuffing.subst b with
  | none => rw [slipStuffing.stuffSymbol_ordinary h]; exact Nat.succ_pos _
  | some c => rw [slipStuffing.stuffSymbol_reserved h]; exact Nat.succ_pos _

variable {buffer lenOut}

/-- The CRC is stored before the buffer. -/
theorem slipEncode_frameOverflow (bufferOut : Memory UInt8) (hByte : lenOut.toNat ≤ 255)
    (hLarge : lenOut.toNat < (escaped buffer).length) :
    (slipEncode buffer bufferOut lenOut).1 =
      (slipEncodeBuffer buffer bufferOut 0 lenOut.toNat).1.write (-6) (escaped (crcBytes buffer)) := by
  have hSize := slipEncodeBuffer_overflow buffer bufferOut 0 lenOut.toNat hByte hLarge
  have hTail : (escaped ([0, 1].map (crcByte (crcFromBuffer buffer)))).length ≤ 4 :=
    slipStuffing.length_stuff_le _
  have hError : ¬ wpcIntWrongBufferSize = -1 := by decide
  have hValue : wpcIntWrongBufferSize = -6 := rfl
  have hCrc := slipEncodeCrc_eq (crcFromBuffer buffer) lenOut [0, 1]
    (slipEncodeBuffer buffer bufferOut 0 lenOut.toNat).1 wpcIntWrongBufferSize (by omega) (by omega)
  rw [slipEncode]
  simp only [hSize, if_neg hError, hCrc]
  rfl

/-- The rounds of the CRC, when its first byte has no room. -/
theorem slipEncode_lowOverflow (bufferOut : Memory UInt8) (hShort : (escaped buffer).length ≤ 255)
    (hFrame : (escaped buffer).length ≤ lenOut.toNat)
    (hLarge : lenOut.toNat < (escaped (untilLowCrc buffer)).length) :
    slipEncode buffer bufferOut lenOut =
      ((slipEncodeBuffer [crcByte (crcFromBuffer buffer) 0] (bufferOut.write 0 (escaped buffer))
          (escaped buffer).length (lenOut.toNat - (escaped buffer).length)).1.write
            ((escaped buffer).length - 6) (escaped [crcByte (crcFromBuffer buffer) 1]),
        ((escaped buffer).length : Int) - 6 + (escaped [crcByte (crcFromBuffer buffer) 1]).length) := by
  have hLow := length_escaped_singleton (crcByte (crcFromBuffer buffer) 0)
  have hHigh := length_escaped_singleton (crcByte (crcFromBuffer buffer) 1)
  have hUntil := length_untilLowCrc buffer
  have hSize : ¬ ((escaped buffer).length : Int) = -1 := by omega
  have hError : ¬ wpcIntWrongBufferSize = -1 := by decide
  have hValue : wpcIntWrongBufferSize = -6 := rfl
  have hRemaining : remainingLength lenOut (escaped buffer).length = lenOut.toNat - (escaped buffer).length := by
    have hLen := lenOut.toNat_lt
    have hInt := remainingLength_eq lenOut (escaped buffer).length (by omega) (by omega)
    omega
  have hOverflow := slipEncodeBuffer_overflow [crcByte (crcFromBuffer buffer) 0]
    (bufferOut.write 0 (escaped buffer)) (escaped buffer).length
    (lenOut.toNat - (escaped buffer).length) (by omega) (by omega)
  have hCrc := slipEncodeCrc_eq (crcFromBuffer buffer) lenOut [1]
    (slipEncodeBuffer [crcByte (crcFromBuffer buffer) 0] (bufferOut.write 0 (escaped buffer))
      (escaped buffer).length (lenOut.toNat - (escaped buffer).length)).1
    ((escaped buffer).length + wpcIntWrongBufferSize) (by omega) (by simp only [List.map]; omega)
  rw [slipEncode, slipEncodeBuffer_eq _ _ _ _ hFrame hShort]
  simp only [if_neg hSize]
  rw [slipEncodeCrc, hRemaining]
  simp only [hOverflow, if_neg hError, hCrc]
  rfl

/-- The rounds of the CRC, when only its second byte has no room. -/
theorem slipEncode_highOverflow (bufferOut : Memory UInt8) (hShort : (escaped buffer).length ≤ 255)
    (hUntil : (escaped (untilLowCrc buffer)).length ≤ lenOut.toNat)
    (hLarge : lenOut.toNat < (escaped (buffer ++ crcBytes buffer)).length) :
    slipEncode buffer bufferOut lenOut =
      ((slipEncodeBuffer [crcByte (crcFromBuffer buffer) 1] (bufferOut.write 0 (escaped (untilLowCrc buffer)))
          (escaped (untilLowCrc buffer)).length
          (lenOut.toNat - (escaped (untilLowCrc buffer)).length)).1,
        ((escaped (untilLowCrc buffer)).length : Int) - 6) := by
  have hLow := length_escaped_singleton (crcByte (crcFromBuffer buffer) 0)
  have hHigh := length_escaped_singleton (crcByte (crcFromBuffer buffer) 1)
  have hLength := length_untilLowCrc buffer
  have hEncoded := length_encoded buffer
  have hAppend : escaped (untilLowCrc buffer) =
      escaped buffer ++ escaped [crcByte (crcFromBuffer buffer) 0] := slipStuffing.stuff_append _ _
  have hSize : ¬ ((escaped buffer).length : Int) = -1 := by omega
  have hSizeLow : ¬ ((escaped [crcByte (crcFromBuffer buffer) 0]).length : Int) = -1 := by omega
  have hError : ¬ wpcIntWrongBufferSize = -1 := by decide
  have hValue : wpcIntWrongBufferSize = -6 := rfl
  have hLen := lenOut.toNat_lt
  have hRemaining := remainingLength_eq lenOut (escaped buffer).length (by omega) (by omega)
  have hRemainingHigh : remainingLength lenOut ((escaped buffer).length +
      (escaped [crcByte (crcFromBuffer buffer) 0]).length) =
        lenOut.toNat - (escaped (untilLowCrc buffer)).length := by
    have hInt := remainingLength_eq lenOut ((escaped buffer).length +
      (escaped [crcByte (crcFromBuffer buffer) 0]).length) (by omega) (by omega)
    omega
  have hOverflow := slipEncodeBuffer_overflow [crcByte (crcFromBuffer buffer) 1]
    (bufferOut.write 0 (escaped (untilLowCrc buffer))) (escaped (untilLowCrc buffer)).length
    (lenOut.toNat - (escaped (untilLowCrc buffer)).length) (by omega) (by omega)
  have hPlace : ((escaped (untilLowCrc buffer)).length : Int) = (escaped buffer).length +
      (escaped [crcByte (crcFromBuffer buffer) 0]).length := by omega
  have hWritten : (bufferOut.write 0 (escaped buffer)).write (escaped buffer).length
      (escaped [crcByte (crcFromBuffer buffer) 0]) = bufferOut.write 0 (escaped (untilLowCrc buffer)) := by
    rw [hAppend, Memory.write_append, Int.zero_add]
  rw [hPlace] at hOverflow ⊢
  rw [slipEncode, slipEncodeBuffer_eq _ _ _ _ (by omega) hShort]
  simp only [if_neg hSize]
  rw [slipEncodeCrc, slipEncodeBuffer_eq _ _ _ _ (by omega) (by omega)]
  simp only [if_neg hSizeLow]
  rw [hWritten, slipEncodeCrc, hRemainingHigh]
  simp only [hOverflow, if_neg hError]
  rfl

theorem respectsCapacity_of_room (hShort : (escaped buffer).length ≤ 255)
    (hRoom : (escaped (buffer ++ crcBytes buffer)).length ≤ lenOut.toNat) : RespectsCapacity buffer lenOut := by
  intro bufferOut
  rw [slipEncode_short buffer bufferOut lenOut hRoom hShort]
  refine ⟨fun _ => rfl, fun hLarge => absurd hRoom (Nat.not_le.mpr hLarge), ?_⟩
  rintro i (hBelow | hAbove)
  · exact Memory.write_below _ _ _ hBelow
  · exact Memory.write_above _ _ _ (by omega)

theorem respectsCapacity_of_highOverflow (hUntil : (escaped (untilLowCrc buffer)).length ≤ lenOut.toNat)
    (hLarge : lenOut.toNat < (escaped (buffer ++ crcBytes buffer)).length)
    (hFive : (escaped (untilLowCrc buffer)).length ≤ 5) : RespectsCapacity buffer lenOut := by
  intro bufferOut
  have hLength := length_untilLowCrc buffer
  rw [slipEncode_highOverflow bufferOut (by omega) hUntil hLarge]
  refine ⟨fun hRoom => absurd hRoom (Nat.not_le.mpr hLarge), fun _ => ?_, fun i hOutside => ?_⟩
  · simp only []
    omega
  · simp only []
    rw [slipEncodeBuffer_other _ _ _ _ (by omega)]
    rcases hOutside with hBelow | hAbove
    · exact Memory.write_below _ _ _ hBelow
    · exact Memory.write_above _ _ _ (by omega)

theorem not_respectsCapacity_of_frameOverflow (hByte : lenOut.toNat ≤ 255)
    (hLarge : lenOut.toNat < (escaped buffer).length) : ¬ RespectsCapacity buffer lenOut := by
  intro h
  have hCrc : 0 < (escaped (crcBytes buffer)).length := by
    have hUnstuffed := length_unstuff_le (S := slipStuffing) 0 (escaped (crcBytes buffer))
    rw [escaped, unstuff_stuff, length_crcBytes] at hUnstuffed
    exact Nat.lt_of_lt_of_le Nat.two_pos hUnstuffed
  refine Memory.not_unchanged (fun m => (slipEncodeBuffer buffer m 0 lenOut.toNat).1) (-6) hCrc fun bufferOut => ?_
  rw [← slipEncode_frameOverflow bufferOut hByte hLarge]
  exact (h bufferOut).2.2 (-6) (.inl (by decide))

theorem not_respectsCapacity_of_lowOverflow (hShort : (escaped buffer).length ≤ 255)
    (hFrame : (escaped buffer).length ≤ lenOut.toNat)
    (hLarge : lenOut.toNat < (escaped (untilLowCrc buffer)).length) : ¬ RespectsCapacity buffer lenOut := by
  intro h
  have hHigh := length_escaped_singleton (crcByte (crcFromBuffer buffer) 1)
  have hEncoded := length_encoded buffer
  rcases Nat.lt_or_ge (escaped buffer).length 6 with hBefore | hInside
  · refine Memory.not_unchanged (fun m => (slipEncodeBuffer [crcByte (crcFromBuffer buffer) 0]
      (m.write 0 (escaped buffer)) (escaped buffer).length (lenOut.toNat - (escaped buffer).length)).1)
      ((escaped buffer).length - 6) hHigh.1 fun bufferOut => ?_
    have hSame := (h bufferOut).2.2 ((escaped buffer).length - 6) (.inl (by omega))
    rw [slipEncode_lowOverflow bufferOut hShort hFrame hLarge] at hSame
    exact hSame
  · have hNegative := (h fun _ => 0).2.1 (by omega)
    rw [slipEncode_lowOverflow _ hShort hFrame hLarge] at hNegative
    simp only [] at hNegative
    omega

theorem not_respectsCapacity_of_wrap (hSize : buffer.length ≤ sizeofWpcFrame)
    (hWraps : 255 < (escaped buffer).length) (hRoom : 256 ≤ lenOut.toNat) :
    ¬ RespectsCapacity buffer lenOut := by
  intro h
  have hFrame : sizeofWpcFrame = 204 := rfl
  have hEscaped : (escaped buffer).length ≤ 2 * buffer.length := slipStuffing.length_stuff_le _
  have hAppend : escaped (buffer ++ crcBytes buffer) = escaped buffer ++ escaped (crcBytes buffer) :=
    slipStuffing.stuff_append _ _
  obtain ⟨hExact, hNegative, -⟩ := h fun _ => 0
  rw [slipEncode_wrap buffer _ lenOut hWraps (by omega) hRoom (by omega), hAppend, List.length_append]
    at hExact hNegative
  rcases Nat.lt_or_ge lenOut.toNat ((escaped buffer).length + (escaped (crcBytes buffer)).length) with
    hLarge | hFits
  · exact absurd (hNegative hLarge) (Int.not_lt.mpr (Int.natCast_nonneg _))
  · have hSame := Int.ofNat_inj.mp (hExact hFits)
    omega

end Capacity

/-- The capacity is respected just while it suffices, but for an error that comes with the last byte
and is small enough to stay one. -/
theorem respectsCapacity_iff {buffer : List UInt8} (hSize : buffer.length ≤ sizeofWpcFrame) (lenOut : UInt32) :
    RespectsCapacity buffer lenOut ↔ CapacityKnown buffer lenOut := by
  constructor
  · intro h
    have hLength := length_untilLowCrc buffer
    have hEncoded := length_encoded buffer
    by_cases hShort : (escaped buffer).length ≤ 255
    · by_cases hFrame : (escaped buffer).length ≤ lenOut.toNat
      · by_cases hUntil : (escaped (untilLowCrc buffer)).length ≤ lenOut.toNat
        · by_cases hRoom : (escaped (buffer ++ crcBytes buffer)).length ≤ lenOut.toNat
          · exact .inl ⟨hShort, hRoom⟩
          · have hNegative := (h fun _ => 0).2.1 (Nat.not_le.mp hRoom)
            rw [slipEncode_highOverflow _ hShort hUntil (Nat.not_le.mp hRoom)] at hNegative
            simp only [] at hNegative
            exact .inr ⟨hUntil, Nat.not_le.mp hRoom, by omega⟩
        · exact absurd h (not_respectsCapacity_of_lowOverflow hShort hFrame (Nat.not_le.mp hUntil))
      · exact absurd h (not_respectsCapacity_of_frameOverflow (by omega) (Nat.not_le.mp hFrame))
    · rcases Nat.lt_or_ge lenOut.toNat 256 with hByte | hLarge
      · exact absurd h (not_respectsCapacity_of_frameOverflow (Nat.le_of_lt_succ hByte) (by omega))
      · exact absurd h (not_respectsCapacity_of_wrap hSize (Nat.not_le.mp hShort) hLarge)
  · rintro (⟨hShort, hRoom⟩ | ⟨hUntil, hLarge, hFive⟩)
    · exact respectsCapacity_of_room hShort hRoom
    · exact respectsCapacity_of_highOverflow hUntil hLarge hFive

theorem respectsCapacity_iff_two_bytes : RespectsCapacity [0xC0, 0x01] 8 ↔ CapacityKnown [0xC0, 0x01] 8 :=
  respectsCapacity_iff (by decide) 8

/-- There is room for ten bytes and for nothing of their CRC, and the length returned is 5. -/
theorem tenBytes_not_respected :
    ¬ ∀ (buffer : List UInt8) (lenOut : UInt32), buffer.length ≤ sizeofWpcFrame →
      RespectsCapacity buffer lenOut := by
  intro h
  have hTen : (escaped [1, 2, 3, 4, 5, 6, 7, 8, 9, 10]).length = 10 := by decide +kernel
  have hCapacity : (10 : UInt32).toNat = 10 := rfl
  have hUntil := length_untilLowCrc [1, 2, 3, 4, 5, 6, 7, 8, 9, 10]
  have hLow := length_escaped_singleton (crcByte (crcFromBuffer [1, 2, 3, 4, 5, 6, 7, 8, 9, 10]) 0)
  refine not_respectsCapacity_of_lowOverflow ?_ ?_ ?_ (h [1, 2, 3, 4, 5, 6, 7, 8, 9, 10] 10 (by decide))
  · omega
  · omega
  · omega

end CMeshApi.Slip
