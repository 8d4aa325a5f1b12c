import Mathlib.Algebra.Polynomial.Div
import Mathlib.Algebra.Polynomial.RingDivision
import Mathlib.Algebra.CharP.Two
import Mathlib.Algebra.Field.ZMod
import Mathlib.Data.ZMod.Basic
import Mathlib.RingTheory.Coprime.Lemmas
import Mathlib.Tactic.LinearCombination

/-!
# Cyclic redundancy

A shift register of `n` bits with feedback, fed with the bits of a message. Words and
messages are polynomials over the field of two elements, the register holds the
remainder of a division by the generator, and a burst of errors that is not longer
than the register changes the remainder.
-/

namespace CMeshApi.Cyclic

open Polynomial

def coefficient (b : Bool) : ZMod 2 := if b then 1 else 0

@[simp] theorem coefficient_false : coefficient false = 0 := rfl

theorem coefficient_xor (a b : Bool) : coefficient (a ^^ b) = coefficient a + coefficient b := by
  cases a <;> cases b <;> decide

theorem coefficient_injective : Function.Injective coefficient := by
  intro a b h
  cases a <;> cases b <;> first | rfl | exact absurd h (by decide)

/-- The first bit has the highest power. -/
noncomputable def ofBits : List Bool → (ZMod 2)[X]
  | [] => 0
  | b :: bits => C (coefficient b) * X ^ bits.length + ofBits bits

@[simp] theorem ofBits_nil : ofBits [] = 0 := rfl

theorem ofBits_append (xs ys : List Bool) :
    ofBits (xs ++ ys) = ofBits xs * X ^ ys.length + ofBits ys := by
  induction xs with
  | nil => rw [List.nil_append, ofBits_nil, zero_mul, zero_add]
  | cons b xs ih =>
    rw [List.cons_append, ofBits, ofBits, ih, List.length_append, pow_add]
    ring

theorem degree_ofBits_lt (bits : List Bool) : (ofBits bits).degree < bits.length := by
  induction bits with
  | nil => exact degree_zero.trans_lt (WithBot.bot_lt_coe 0)
  | cons b bits ih =>
    have hFirst : (C (coefficient b) * X ^ bits.length).degree < ((b :: bits).length : WithBot ℕ) :=
      (degree_C_mul_X_pow_le _ _).trans_lt (WithBot.coe_lt_coe.mpr (Nat.lt_succ_self _))
    have hRest : (ofBits bits).degree < ((b :: bits).length : WithBot ℕ) :=
      ih.trans (WithBot.coe_lt_coe.mpr (Nat.lt_succ_self _))
    exact (degree_add_le _ _).trans_lt (max_lt hFirst hRest)

theorem coeff_ofBits_cons (b : Bool) (bits : List Bool) :
    (ofBits (b :: bits)).coeff bits.length = coefficient b := by
  rw [ofBits, coeff_add, coeff_C_mul, coeff_X_pow_self, mul_one,
    coeff_eq_zero_of_degree_lt (degree_ofBits_lt bits), add_zero]

theorem ofBits_injective {xs ys : List Bool} (hLength : xs.length = ys.length)
    (h : ofBits xs = ofBits ys) : xs = ys := by
  induction xs generalizing ys with
  | nil => exact (List.length_eq_zero_iff.mp hLength.symm).symm
  | cons a xs ih =>
    cases ys with
    | nil => cases hLength
    | cons b ys =>
      have hTail : xs.length = ys.length := Nat.succ.inj hLength
      have hCoeff : coefficient a = coefficient b := by
        rw [← coeff_ofBits_cons a xs, ← coeff_ofBits_cons b ys, h, hTail]
      obtain rfl : a = b := coefficient_injective hCoeff
      rw [ofBits, ofBits, hTail] at h
      rw [ih hTail (add_left_cancel h)]

variable {n : ℕ}

noncomputable def ofWord (v : BitVec n) : (ZMod 2)[X] :=
  ∑ i ∈ Finset.range n, C (coefficient (v.getLsbD i)) * X ^ i

theorem coeff_ofWord (v : BitVec n) (i : ℕ) : (ofWord v).coeff i = coefficient (v.getLsbD i) := by
  simp only [ofWord, finsetSum_coeff, coeff_C_mul, coeff_X_pow, mul_ite, mul_one, mul_zero,
    Finset.sum_ite_eq, Finset.mem_range]
  by_cases hi : i < n
  · rw [if_pos hi]
  · rw [if_neg hi, BitVec.getLsbD_of_ge v i (Nat.le_of_not_lt hi), coefficient_false]

theorem ofWord_injective : Function.Injective (ofWord : BitVec n → (ZMod 2)[X]) := by
  intro u v h
  apply BitVec.eq_of_getLsbD_eq
  intro i _
  apply coefficient_injective
  rw [← coeff_ofWord, ← coeff_ofWord, h]

theorem ofWord_xor (u v : BitVec n) : ofWord (u ^^^ v) = ofWord u + ofWord v := by
  ext i
  rw [coeff_add, coeff_ofWord, coeff_ofWord, coeff_ofWord, BitVec.getLsbD_xor, coefficient_xor]

theorem degree_ofWord_lt (v : BitVec n) : (ofWord v).degree < n := by
  rw [degree_lt_iff_coeff_zero]
  intro i hi
  rw [coeff_ofWord, BitVec.getLsbD_of_ge v i hi, coefficient_false]

/-- The bit that is shifted out is the one of the highest power. -/
theorem ofWord_shiftLeft (v : BitVec n) :
    ofWord (v <<< 1) = X * ofWord v + C (coefficient v.msb) * X ^ n := by
  ext i
  rw [coeff_add, coeff_C_mul, coeff_X_pow, coeff_ofWord, BitVec.getLsbD_shiftLeft]
  cases i with
  | zero =>
    rw [coeff_X_mul_zero]
    by_cases hn : 0 = n
    · subst hn
      simp [BitVec.msb_eq_getLsbD_last]
    · simp [hn]
  | succ i =>
    rw [coeff_X_mul, coeff_ofWord]
    rcases Nat.lt_trichotomy (i + 1) n with hLt | hEq | hGt
    · simp [hLt, Nat.ne_of_lt hLt]
    · have hLast : n - 1 = i := by omega
      have hMsb : v.msb = v.getLsbD i := by rw [BitVec.msb_eq_getLsbD_last, hLast]
      simp [hEq, hMsb, CharTwo.add_self_eq_zero]
    · have hOut : v.getLsbD i = false := BitVec.getLsbD_of_ge v i (by omega)
      simp [hOut, Nat.ne_of_gt hGt, Nat.lt_asymm hGt]

/-- One bit further: what is shifted out and the bit of the message decide on the feedback. -/
def shiftIn (generator v : BitVec n) (b : Bool) : BitVec n :=
  if v.msb ^^ b then (v <<< 1) ^^^ generator else v <<< 1

def feed (generator v : BitVec n) (bits : List Bool) : BitVec n := bits.foldl (shiftIn generator) v

variable (g : BitVec n)

@[simp] theorem feed_nil (v : BitVec n) : feed g v [] = v := rfl

theorem feed_cons (v : BitVec n) (b : Bool) (bits : List Bool) :
    feed g v (b :: bits) = feed g (shiftIn g v b) bits := rfl

theorem feed_append (v : BitVec n) (xs ys : List Bool) :
    feed g v (xs ++ ys) = feed g (feed g v xs) ys := List.foldl_append

/-- The word of the generator is without its leading term. -/
noncomputable def generatorPoly : (ZMod 2)[X] := X ^ n + ofWord g

theorem generatorPoly_monic : (generatorPoly g).Monic := monic_X_pow_add (degree_ofWord_lt g)

theorem degree_generatorPoly : (generatorPoly g).degree = n := by
  rw [generatorPoly, degree_add_eq_left_of_degree_lt]
  · exact degree_X_pow n
  · rw [degree_X_pow]
    exact degree_ofWord_lt g

theorem ofWord_shiftIn (v : BitVec n) (b : Bool) :
    ofWord (shiftIn g v b) = X * ofWord v + C (coefficient b) * X ^ n +
      C (coefficient (v.msb ^^ b)) * generatorPoly g := by
  have hMsb : coefficient v.msb = coefficient b + coefficient (v.msb ^^ b) := by
    rw [coefficient_xor, add_comm (coefficient v.msb), CharTwo.add_cancel_left]
  have hShift : ofWord (v <<< 1) = X * ofWord v + C (coefficient b) * X ^ n +
      C (coefficient (v.msb ^^ b)) * X ^ n := by
    rw [ofWord_shiftLeft, hMsb, C_add]
    ring
  rw [shiftIn, generatorPoly, mul_add, ← add_assoc, ← hShift]
  cases v.msb ^^ b with
  | false => simp
  | true =>
    rw [if_pos rfl, ofWord_xor]
    simp [coefficient]

theorem dvd_ofWord_feed (v : BitVec n) (bits : List Bool) :
    generatorPoly g ∣ ofWord v * X ^ bits.length + ofBits bits * X ^ n - ofWord (feed g v bits) := by
  induction bits generalizing v with
  | nil => simp
  | cons b bits ih =>
    obtain ⟨q, hq⟩ := ih (shiftIn g v b)
    refine ⟨q - C (coefficient (v.msb ^^ b)) * X ^ bits.length, ?_⟩
    rw [feed_cons, ofBits, List.length_cons, pow_succ]
    rw [ofWord_shiftIn] at hq
    linear_combination hq

/-- The register holds the remainder of the message behind the word it has begun with. -/
theorem ofWord_feed (v : BitVec n) (bits : List Bool) :
    ofWord (feed g v bits) =
      (ofWord v * X ^ bits.length + ofBits bits * X ^ n) %ₘ generatorPoly g := by
  rw [modByMonic_eq_of_dvd_sub (generatorPoly_monic g) (dvd_ofWord_feed g v bits)]
  refine ((modByMonic_eq_self_iff (generatorPoly_monic g)).mpr ?_).symm
  rw [degree_generatorPoly]
  exact degree_ofWord_lt _

theorem isCoprime_X_generatorPoly (h : g.getLsbD 0 = true) : IsCoprime X (generatorPoly g) := by
  have hPos : n ≠ 0 := by
    rintro rfl
    rw [BitVec.getLsbD_of_ge g 0 (Nat.le_refl 0)] at h
    cases h
  have hConst : (generatorPoly g).coeff 0 = 1 := by
    rw [generatorPoly, coeff_add, coeff_X_pow, if_neg (Ne.symm hPos), zero_add, coeff_ofWord, h]
    rfl
  obtain ⟨q, hq⟩ : X ∣ generatorPoly g - 1 := by
    rw [X_dvd_iff, coeff_sub, hConst, coeff_one_zero, sub_self]
  refine ⟨-q, 1, ?_⟩
  linear_combination hq

/-- Messages of one length that leave one word differ by a multiple of the generator. -/
theorem dvd_of_feed_eq (hGen : g.getLsbD 0 = true) {v : BitVec n} {xs ys : List Bool}
    (hLength : xs.length = ys.length) (h : feed g v xs = feed g v ys) :
    generatorPoly g ∣ ofBits xs - ofBits ys := by
  have hx := dvd_ofWord_feed g v xs
  have hy := dvd_ofWord_feed g v ys
  rw [h, hLength] at hx
  have hDiff : generatorPoly g ∣ X ^ n * (ofBits xs - ofBits ys) := by
    have hSub := dvd_sub hx hy
    have hEq : ofWord v * X ^ ys.length + ofBits xs * X ^ n - ofWord (feed g v ys) -
        (ofWord v * X ^ ys.length + ofBits ys * X ^ n - ofWord (feed g v ys)) =
        X ^ n * (ofBits xs - ofBits ys) := by ring
    rwa [hEq] at hSub
  exact ((isCoprime_X_generatorPoly g hGen).symm.pow_right).dvd_of_dvd_mul_left hDiff

/-- A multiple of the generator is no burst. -/
theorem burst_eq (hGen : g.getLsbD 0 = true) {before mid mid' behind : List Bool}
    (hLength : mid.length = mid'.length) (hShort : mid.length ≤ n)
    (h : generatorPoly g ∣ ofBits (before ++ mid ++ behind) - ofBits (before ++ mid' ++ behind)) :
    mid = mid' := by
  have hEq : ofBits (before ++ mid ++ behind) - ofBits (before ++ mid' ++ behind) =
      X ^ behind.length * (ofBits mid - ofBits mid') := by
    rw [ofBits_append, ofBits_append, ofBits_append, ofBits_append, hLength]
    ring
  rw [hEq] at h
  have hBurst : generatorPoly g ∣ ofBits mid - ofBits mid' :=
    ((isCoprime_X_generatorPoly g hGen).symm.pow_right).dvd_of_dvd_mul_left h
  have hDegree : (ofBits mid - ofBits mid').degree < (generatorPoly g).degree := by
    rw [degree_generatorPoly]
    have hMid : (ofBits mid).degree < n :=
      (degree_ofBits_lt mid).trans_le (WithBot.coe_le_coe.mpr hShort)
    have hMid' : (ofBits mid').degree < n :=
      (degree_ofBits_lt mid').trans_le (WithBot.coe_le_coe.mpr (hLength ▸ hShort))
    exact (degree_sub_le _ _).trans_lt (max_lt hMid hMid')
  by_contra hNe
  refine (generatorPoly_monic g).not_dvd_of_degree_lt (fun hZero => hNe ?_) hDegree hBurst
  exact ofBits_injective hLength (sub_eq_zero.mp hZero)

/-- Messages that differ, and only within as many bits as the register has, leave different
words. -/
theorem feed_ne_of_burst (hGen : g.getLsbD 0 = true) (v : BitVec n) {xs ys : List Bool}
    (hLength : xs.length = ys.length) (hNe : xs ≠ ys) {start : ℕ}
    (hWindow : ∀ i, xs[i]? ≠ ys[i]? → start ≤ i ∧ i < start + n) : feed g v xs ≠ feed g v ys := by
  intro h
  have hBefore : xs.take start = ys.take start := by
    apply List.ext_getElem?
    intro i
    by_cases hi : i < start
    · rw [List.getElem?_take_of_lt hi, List.getElem?_take_of_lt hi]
      by_contra hDiffer
      exact absurd (hWindow i hDiffer).1 (Nat.not_le.mpr hi)
    · rw [List.getElem?_eq_none, List.getElem?_eq_none]
      · exact (List.length_take_le _ _).trans (Nat.le_of_not_lt hi)
      · exact (List.length_take_le _ _).trans (Nat.le_of_not_lt hi)
  have hBehind : xs.drop (start + n) = ys.drop (start + n) := by
    apply List.ext_getElem?
    intro i
    rw [List.getElem?_drop, List.getElem?_drop]
    by_contra hDiffer
    exact absurd (hWindow _ hDiffer).2 (by omega)
  have hSplit : ∀ zs : List Bool, zs = zs.take start ++ (zs.drop start).take n ++ zs.drop (start + n) := by
    intro zs
    rw [List.append_assoc, ← List.drop_drop, List.take_append_drop, List.take_append_drop]
  have hDvd := dvd_of_feed_eq g hGen hLength h
  rw [hSplit xs, hSplit ys, hBefore, hBehind] at hDvd
  have hMid : (xs.drop start).take n = (ys.drop start).take n := by
    refine burst_eq g hGen ?_ (List.length_take_le _ _) hDvd
    rw [List.length_take, List.length_take, List.length_drop, List.length_drop, hLength]
  apply hNe
  rw [hSplit xs, hSplit ys, hBefore, hBehind, hMid]

theorem shiftIn_xor (u v : BitVec n) (a b : Bool) :
    shiftIn g (u ^^^ v) (a ^^ b) = shiftIn g u a ^^^ shiftIn g v b := by
  apply ofWord_injective
  have hFeedback : coefficient ((u ^^^ v).msb ^^ (a ^^ b)) =
      coefficient (u.msb ^^ a) + coefficient (v.msb ^^ b) := by
    rw [BitVec.msb_xor]
    simp only [coefficient_xor]
    ring
  rw [ofWord_xor, ofWord_shiftIn, ofWord_shiftIn, ofWord_shiftIn, hFeedback, ofWord_xor,
    coefficient_xor, C_add, C_add]
  ring

theorem feed_xor (u v : BitVec n) (bits : List Bool) :
    feed g (u ^^^ v) bits = feed g u (List.replicate bits.length false) ^^^ feed g v bits := by
  induction bits generalizing u v with
  | nil => rfl
  | cons b bits ih =>
    have hStep : shiftIn g (u ^^^ v) b = shiftIn g u false ^^^ shiftIn g v b := by
      rw [← shiftIn_xor, Bool.false_xor]
    rw [feed_cons, feed_cons, List.length_cons, List.replicate_succ, feed_cons, hStep, ih]

end CMeshApi.Cyclic
