import Mathlib.Algebra.Group.Nat.Defs

/-!
# Time conversions and byte orders

`util.h`. Internal times count 1/128 s. The decoders read a missing byte as zero.
-/

namespace CMeshApi

def maxInternalTimeForFullPrecision : UInt32 := 0xffffffff / 1000

def internalTimeToMs (internalTime : UInt32) : UInt32 :=
  if internalTime < maxInternalTimeForFullPrecision then (internalTime * 1000) >>> 7
  else (internalTime >>> 7) * 1000

def maxMsTimeForFullPrecision : UInt32 := 0xffffffff / 128

def msToInternalTime (timeInMs : UInt32) : UInt32 :=
  if timeInMs < maxMsTimeForFullPrecision then (timeInMs <<< 7) / 1000 else (timeInMs / 1000) >>> 7

theorem toNat_internalTimeToMs (internalTime : UInt32) : (internalTimeToMs internalTime).toNat =
    if internalTime.toNat < 4294967 then internalTime.toNat * 1000 / 2 ^ 7
    else internalTime.toNat / 2 ^ 7 * 1000 % 2 ^ 32 := by
  have hThreshold : internalTime < maxInternalTimeForFullPrecision ↔ internalTime.toNat < 4294967 :=
    UInt32.lt_iff_toNat_lt
  unfold internalTimeToMs
  by_cases hFull : internalTime.toNat < 4294967
  · have hProduct : (internalTime * 1000).toNat = internalTime.toNat * 1000 := by
      rw [UInt32.toNat_mul]
      exact Nat.mod_eq_of_lt (show internalTime.toNat * 1000 < 2 ^ 32 by omega)
    rw [if_pos (hThreshold.mpr hFull), if_pos hFull, UInt32.toNat_shiftRight, hProduct]
    exact Nat.shiftRight_eq_div_pow _ 7
  · rw [if_neg (mt hThreshold.mp hFull), if_neg hFull, UInt32.toNat_mul, UInt32.toNat_shiftRight]
    exact congrArg (· * 1000 % 2 ^ 32) (Nat.shiftRight_eq_div_pow _ 7)

theorem toNat_msToInternalTime (timeInMs : UInt32) : (msToInternalTime timeInMs).toNat =
    if timeInMs.toNat < 33554431 then timeInMs.toNat * 2 ^ 7 / 1000
    else timeInMs.toNat / 1000 / 2 ^ 7 := by
  have hThreshold : timeInMs < maxMsTimeForFullPrecision ↔ timeInMs.toNat < 33554431 :=
    UInt32.lt_iff_toNat_lt
  unfold msToInternalTime
  by_cases hFull : timeInMs.toNat < 33554431
  · have hProduct : (timeInMs <<< 7).toNat = timeInMs.toNat * 2 ^ 7 := by
      rw [UInt32.toNat_shiftLeft]
      change timeInMs.toNat <<< 7 % 2 ^ 32 = _
      rw [Nat.shiftLeft_eq]
      exact Nat.mod_eq_of_lt (by omega)
    rw [if_pos (hThreshold.mpr hFull), if_pos hFull, UInt32.toNat_div, hProduct]
    rfl
  · rw [if_neg (mt hThreshold.mp hFull), if_neg hFull, UInt32.toNat_shiftRight, UInt32.toNat_div]
    exact Nat.shiftRight_eq_div_pow _ 7

/-- Apart by no more than two seconds. -/
def AboutSame (s t : UInt32) : Prop := s.toNat ≤ t.toNat + 2000 ∧ t.toNat ≤ s.toNat + 2000

instance (s t : UInt32) : Decidable (AboutSame s t) := inferInstanceAs (Decidable (_ ∧ _))

/-- There and back, a time stays the same as long as the conversion has its full precision; the
coarse one shifts to the wrong side. -/
theorem internalTimeToMs_msToInternalTime_iff (timeInMs : UInt32) :
    AboutSame (internalTimeToMs (msToInternalTime timeInMs)) timeInMs ↔
      timeInMs < maxMsTimeForFullPrecision := by
  have hThreshold : timeInMs < maxMsTimeForFullPrecision ↔ timeInMs.toNat < 33554431 :=
    UInt32.lt_iff_toNat_lt
  have hBound := timeInMs.toNat_lt
  rw [hThreshold, AboutSame, toNat_internalTimeToMs, toNat_msToInternalTime]
  by_cases hFull : timeInMs.toNat < 33554431
  · rw [if_pos hFull]
    refine iff_of_true ?_ hFull
    have hInternal : timeInMs.toNat * 2 ^ 7 / 1000 ≤ 4294967 := by omega
    by_cases hFine : timeInMs.toNat * 2 ^ 7 / 1000 < 4294967
    · rw [if_pos hFine]
      omega
    · -- only the threshold itself gets here
      have hEq : timeInMs.toNat * 2 ^ 7 / 1000 = 4294967 := by omega
      rw [if_neg hFine, hEq]
      omega
  · rw [if_neg hFull, if_pos (by omega)]
    refine iff_of_false ?_ hFull
    omega

theorem nineHours_not_same :
    ¬ ∀ timeInMs, AboutSame (internalTimeToMs (msToInternalTime timeInMs)) timeInMs := by
  intro h
  exact absurd (h 33554431) (by decide)

def uint16EncodeLe (value : UInt16) : List UInt8 := [value.toUInt8, (value >>> 8).toUInt8]

def uint32EncodeLe (value : UInt32) : List UInt8 :=
  [value.toUInt8, (value >>> 8).toUInt8, (value >>> 16).toUInt8, (value >>> 24).toUInt8]

def uint16DecodeLe (bytes : List UInt8) : UInt16 :=
  (bytes.getD 0 0).toUInt16 ||| ((bytes.getD 1 0).toUInt16 <<< 8)

def uint32DecodeLe (bytes : List UInt8) : UInt32 :=
  (bytes.getD 0 0).toUInt32 ||| ((bytes.getD 1 0).toUInt32 <<< 8) |||
    ((bytes.getD 2 0).toUInt32 <<< 16) ||| ((bytes.getD 3 0).toUInt32 <<< 24)

theorem toNat_le16 (low high : UInt8) :
    (low.toUInt16 ||| (high.toUInt16 <<< 8)).toNat = low.toNat + 256 * high.toNat := by
  have hLow := low.toNat_lt
  have hHigh := high.toNat_lt
  have hShift : (high.toUInt16 <<< 8).toNat = high.toNat <<< 8 := by
    rw [UInt16.toNat_shiftLeft, UInt8.toNat_toUInt16, Nat.shiftLeft_eq, Nat.shiftLeft_eq]
    exact Nat.mod_eq_of_lt (show high.toNat * 256 < 65536 by omega)
  rw [UInt16.toNat_or, hShift, UInt8.toNat_toUInt16, Nat.or_comm,
    ← Nat.shiftLeft_add_eq_or_of_lt hLow, Nat.shiftLeft_eq]
  omega

theorem toNat_uint16DecodeLe (low high : UInt8) :
    (uint16DecodeLe [low, high]).toNat = low.toNat + 256 * high.toNat := toNat_le16 low high

theorem toNat_uint16High (value : UInt16) : ((value >>> 8).toUInt8).toNat = value.toNat / 256 := by
  have hLt := value.toNat_lt
  rw [UInt16.toNat_toUInt8, UInt16.toNat_shiftRight, Nat.shiftRight_eq_div_pow]
  change value.toNat / 2 ^ 8 % 2 ^ 8 = value.toNat / 256
  omega

@[simp] theorem uint16DecodeLe_encode (value : UInt16) :
    uint16DecodeLe (uint16EncodeLe value) = value := by
  apply UInt16.toNat_inj.mp
  rw [uint16EncodeLe, toNat_uint16DecodeLe, toNat_uint16High, UInt16.toNat_toUInt8]
  omega

theorem uint16EncodeLe_decode (low high : UInt8) :
    uint16EncodeLe (uint16DecodeLe [low, high]) = [low, high] := by
  have hLow := low.toNat_lt
  have hHigh := high.toNat_lt
  have hFirst : (uint16DecodeLe [low, high]).toUInt8 = low := by
    apply UInt8.toNat_inj.mp
    rw [UInt16.toNat_toUInt8, toNat_uint16DecodeLe]
    omega
  have hSecond : (uint16DecodeLe [low, high] >>> 8).toUInt8 = high := by
    apply UInt8.toNat_inj.mp
    rw [toNat_uint16High, toNat_uint16DecodeLe]
    omega
  rw [uint16EncodeLe, hFirst, hSecond]

theorem uint16DecodeLe_high {low high low' high' : UInt8}
    (h : uint16DecodeLe [low, high] = uint16DecodeLe [low', high']) : high = high' := by
  have hToNat : (low.toUInt16 ||| (high.toUInt16 <<< 8)).toNat =
      (low'.toUInt16 ||| (high'.toUInt16 <<< 8)).toNat := congrArg UInt16.toNat h
  rw [toNat_le16, toNat_le16] at hToNat
  have hLow := low.toNat_lt
  have hLow' := low'.toNat_lt
  apply UInt8.toNat_inj.mp
  omega

theorem toNat_or_shiftLeft {low k : UInt32} {high : UInt8} (hk : k.toNat ≤ 24)
    (h : low.toNat < 2 ^ k.toNat) :
    (low ||| (high.toUInt32 <<< k)).toNat = low.toNat + 2 ^ k.toNat * high.toNat := by
  have hHigh := high.toNat_lt
  have hShift : (high.toUInt32 <<< k).toNat = high.toNat <<< k.toNat := by
    have hBound : high.toNat * 2 ^ k.toNat < 2 ^ 32 := calc
      high.toNat * 2 ^ k.toNat < 2 ^ 8 * 2 ^ k.toNat := Nat.mul_lt_mul_of_pos_right hHigh (Nat.two_pow_pos _)
      _ = 2 ^ (8 + k.toNat) := (Nat.pow_add 2 8 k.toNat).symm
      _ ≤ 2 ^ 32 := Nat.pow_le_pow_right (by decide) (by omega)
    have hAmount : k.toNat % 32 = k.toNat := Nat.mod_eq_of_lt (by omega)
    rw [UInt32.toNat_shiftLeft, UInt8.toNat_toUInt32, hAmount, Nat.shiftLeft_eq]
    exact Nat.mod_eq_of_lt hBound
  rw [UInt32.toNat_or, hShift, Nat.or_comm, ← Nat.shiftLeft_add_eq_or_of_lt h, Nat.shiftLeft_eq]
  rw [Nat.mul_comm, Nat.add_comm]

theorem toNat_uint32DecodeLe (first second third fourth : UInt8) :
    (uint32DecodeLe [first, second, third, fourth]).toNat =
      first.toNat + 2 ^ 8 * second.toNat + 2 ^ 16 * third.toNat + 2 ^ 24 * fourth.toNat := by
  have hFirst := first.toNat_lt
  have hSecond := second.toNat_lt
  have hThird := third.toNat_lt
  have hTwo : (first.toUInt32 ||| (second.toUInt32 <<< 8)).toNat = first.toNat + 2 ^ 8 * second.toNat :=
    toNat_or_shiftLeft (by decide) hFirst
  have hThree : (first.toUInt32 ||| (second.toUInt32 <<< 8) ||| (third.toUInt32 <<< 16)).toNat =
      first.toNat + 2 ^ 8 * second.toNat + 2 ^ 16 * third.toNat := by
    rw [← hTwo]
    exact toNat_or_shiftLeft (by decide) (by rw [hTwo]; exact show _ < 65536 by omega)
  have hLow : (first.toUInt32 ||| (second.toUInt32 <<< 8) ||| (third.toUInt32 <<< 16)).toNat < 2 ^ 24 := by
    rw [hThree]
    omega
  rw [← hThree]
  exact toNat_or_shiftLeft (by decide) hLow

theorem toNat_byteOf (value k : UInt32) (hk : k.toNat < 32) :
    ((value >>> k).toUInt8).toNat = value.toNat / 2 ^ k.toNat % 2 ^ 8 := by
  rw [UInt32.toNat_toUInt8, UInt32.toNat_shiftRight, Nat.mod_eq_of_lt hk, Nat.shiftRight_eq_div_pow]

@[simp] theorem uint32DecodeLe_encode (value : UInt32) :
    uint32DecodeLe (uint32EncodeLe value) = value := by
  have hLt := value.toNat_lt
  apply UInt32.toNat_inj.mp
  rw [uint32EncodeLe, toNat_uint32DecodeLe, UInt32.toNat_toUInt8, toNat_byteOf _ _ (by decide),
    toNat_byteOf _ _ (by decide), toNat_byteOf _ _ (by decide)]
  change value.toNat % 2 ^ 8 + 2 ^ 8 * (value.toNat / 2 ^ 8 % 2 ^ 8) + 2 ^ 16 * (value.toNat / 2 ^ 16 % 2 ^ 8) +
    2 ^ 24 * (value.toNat / 2 ^ 24 % 2 ^ 8) = value.toNat
  omega

theorem uint32DecodeLe_three {value : UInt32} (h : value >>> 24 = 0) :
    uint32DecodeLe ((uint32EncodeLe value).take 3) = value := by
  have hFourth : (value >>> 24).toUInt8 = 0 := by rw [h]; rfl
  have hPadded : uint32DecodeLe ((uint32EncodeLe value).take 3) = uint32DecodeLe (uint32EncodeLe value) := by
    unfold uint32EncodeLe
    rw [hFourth]
    rfl
  rw [hPadded, uint32DecodeLe_encode]

theorem exists_other (x : UInt8) : ∃ a, a ≠ 0 ∧ a ≠ x := by
  by_cases hOne : x = 1
  · exact ⟨2, by decide, hOne ▸ by decide⟩
  · exact ⟨1, by decide, Ne.symm hOne⟩

end CMeshApi
