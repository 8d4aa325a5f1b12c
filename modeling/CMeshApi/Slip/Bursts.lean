import CMeshApi.Slip.Crc
import CMeshApi.Foundations.CyclicCodes

/-!
# The CRC as a division

The table of `slip.c` takes the shift register of the polynomial `0x1021` eight bits
further at once. The CRC of a buffer is therefore the remainder of its bits, and finds
every burst of errors of up to sixteen bits.
-/

namespace CMeshApi.Slip

open Cyclic Polynomial

/-- The polynomial of the CRC without its leading term. -/
def crcPolynomial : BitVec 16 := 0x1021#16

/-- The most significant bit comes first. -/
def byteBits (byte : UInt8) : List Bool := (List.range 8).map fun i => byte.toBitVec.getMsbD i

def bits (buf : List UInt8) : List Bool := buf.flatMap byteBits

/-- The CRC bit by bit: the register begins with ones, and is not inverted in the end. -/
def bitwiseCrc (buf : List UInt8) : BitVec 16 := feed crcPolynomial 0xffff#16 (bits buf)

def zeros : List Bool := List.replicate 8 false

theorem length_byteBits (byte : UInt8) : (byteBits byte).length = 8 := by
  rw [byteBits, List.length_map, List.length_range]

theorem bits_cons (byte : UInt8) (buf : List UInt8) : bits (byte :: buf) = byteBits byte ++ bits buf := rfl

theorem length_bits (buf : List UInt8) : (bits buf).length = 8 * buf.length := by
  induction buf with
  | nil => rfl
  | cons byte buf ih =>
    rw [bits_cons, List.length_append, length_byteBits, ih, List.length_cons]
    ring

theorem crcCcittLut_feed : ∀ i < 256, (crcCcittLut.getD i 0).toBitVec =
    feed crcPolynomial 0#16 (byteBits (UInt8.ofNat i)) := by
  decide +kernel

/-- The upper byte of the register meets the bits of the message. -/
theorem feed_high : ∀ i < 256, feed crcPolynomial ((UInt8.ofNat i).toUInt16 <<< 8).toBitVec zeros =
    feed crcPolynomial 0#16 (byteBits (UInt8.ofNat i)) := by
  decide +kernel

theorem feed_low : ∀ i < 256, feed crcPolynomial (UInt8.ofNat i).toUInt16.toBitVec zeros =
    ((UInt8.ofNat i).toUInt16 <<< 8).toBitVec := by
  decide +kernel

theorem feed_byteBits (c : BitVec 16) (byte : UInt8) :
    feed crcPolynomial c (byteBits byte) =
      feed crcPolynomial (c ^^^ (byte.toUInt16 <<< 8).toBitVec) zeros := by
  have hByte : UInt8.ofNat byte.toNat = byte := UInt8.ofNat_toNat
  have hHigh := feed_high byte.toNat byte.toNat_lt
  rw [hByte] at hHigh
  have hMessage := feed_xor crcPolynomial c 0#16 (byteBits byte)
  have hRegister := feed_xor crcPolynomial c (byte.toUInt16 <<< 8).toBitVec zeros
  rw [BitVec.xor_zero, length_byteBits] at hMessage
  rw [hMessage, hRegister, hHigh]
  rfl

theorem word_halves (crc : UInt16) :
    crc = ((crc >>> 8).toUInt8.toUInt16 <<< 8) ^^^ crc.toUInt8.toUInt16 := by
  apply UInt16.toBitVec_inj.mp
  apply BitVec.eq_of_getLsbD_eq
  intro i hi
  have hEight : (8 : UInt16).toBitVec % 16 = 8#16 := rfl
  simp only [UInt16.toBitVec_xor, UInt16.toBitVec_shiftLeft, UInt8.toBitVec_toUInt16,
    UInt16.toBitVec_toUInt8, UInt16.toBitVec_shiftRight, hEight, BitVec.getLsbD_xor,
    BitVec.getLsbD_setWidth, BitVec.shiftLeft_eq', BitVec.ushiftRight_eq', BitVec.getLsbD_shiftLeft,
    BitVec.getLsbD_ushiftRight]
  by_cases hLow : i < 8
  · simp [hi, hLow]
  · have hPlace : 8 + (i - 8) = i := by omega
    have hHigh : i - 8 < 8 := by omega
    simp [hi, hLow, hPlace, hHigh, Nat.lt_trans hHigh]

theorem shiftLeft_low (crc : UInt16) : crc <<< 8 = crc.toUInt8.toUInt16 <<< 8 := by
  apply UInt16.toNat_inj.mp
  simp only [UInt16.toNat_shiftLeft, UInt8.toNat_toUInt16, UInt16.toNat_toUInt8, UInt16.reduceToNat,
    Nat.reduceMod, Nat.shiftLeft_eq, Nat.reducePow]
  omega

/-- The register, with the byte of the message in its upper half. -/
theorem word_xor_byte (crc : UInt16) (byte : UInt8) :
    crc ^^^ (byte.toUInt16 <<< 8) =
      ((byte ^^^ (crc >>> 8).toUInt8).toUInt16 <<< 8) ^^^ crc.toUInt8.toUInt16 := by
  rw [UInt8.toUInt16_xor, UInt16.shiftLeft_xor, UInt16.xor_assoc, ← word_halves, UInt16.xor_comm]

theorem crcStep_eq (crc : UInt16) (byte : UInt8) :
    (crcStep crc byte).toBitVec = feed crcPolynomial crc.toBitVec (byteBits byte) := by
  have hTable : ∀ index : UInt8, (crcCcittLut.getD index.toNat 0).toBitVec =
      feed crcPolynomial (index.toUInt16 <<< 8).toBitVec zeros := by
    intro index
    rw [crcCcittLut_feed _ index.toNat_lt, ← feed_high _ index.toNat_lt, UInt8.ofNat_toNat]
  have hLow : feed crcPolynomial crc.toUInt8.toUInt16.toBitVec zeros = (crc <<< 8).toBitVec := by
    have hByte := feed_low crc.toUInt8.toNat crc.toUInt8.toNat_lt
    rwa [UInt8.ofNat_toNat, ← shiftLeft_low] at hByte
  rw [feed_byteBits, ← UInt16.toBitVec_xor, word_xor_byte, UInt16.toBitVec_xor]
  have hHalves := feed_xor crcPolynomial ((byte ^^^ (crc >>> 8).toUInt8).toUInt16 <<< 8).toBitVec
    crc.toUInt8.toUInt16.toBitVec zeros
  rw [hHalves, hLow, crcStep, UInt16.toBitVec_xor, hTable]
  rfl

theorem foldl_crcStep (crc : UInt16) (buf : List UInt8) :
    (buf.foldl crcStep crc).toBitVec = feed crcPolynomial crc.toBitVec (bits buf) := by
  induction buf generalizing crc with
  | nil => rfl
  | cons byte buf ih =>
    rw [List.foldl_cons, ih, crcStep_eq, bits_cons, feed_append]

theorem crcFromBuffer_feed (buf : List UInt8) : (crcFromBuffer buf).toBitVec = bitwiseCrc buf :=
  foldl_crcStep 0xffff buf

theorem generatorPoly_crcPolynomial : generatorPoly crcPolynomial = X ^ 16 + X ^ 12 + X ^ 5 + 1 := by
  have hWord : ofWord crcPolynomial = X ^ 12 + X ^ 5 + 1 := by
    have hBits : ∀ i < 16, crcPolynomial.getLsbD i = decide (i ∈ [0, 5, 12]) := by decide
    rw [ofWord, Finset.sum_congr rfl fun i hi => by rw [hBits i (Finset.mem_range.mp hi)]]
    simp [Finset.sum_range_succ, coefficient]
    ring
  rw [generatorPoly, hWord]
  ring

/-- The table agrees with the register bit by bit, which holds the remainder of the buffer behind
sixteen ones. -/
theorem crcFromBuffer_eq (buf : List UInt8) :
    (crcFromBuffer buf).toBitVec = bitwiseCrc buf ∧
      ofWord (crcFromBuffer buf).toBitVec =
        (ofWord 0xffff#16 * X ^ (8 * buf.length) + ofBits (bits buf) * X ^ 16) %ₘ
          (X ^ 16 + X ^ 12 + X ^ 5 + 1) := by
  refine ⟨crcFromBuffer_feed buf, ?_⟩
  rw [crcFromBuffer_feed, bitwiseCrc, ofWord_feed, generatorPoly_crcPolynomial, length_bits]

theorem byteBits_injective {a b : UInt8} (h : byteBits a = byteBits b) : a = b := by
  apply UInt8.toBitVec_inj.mp
  apply BitVec.eq_of_getMsbD_eq
  intro i hi
  exact List.map_inj_left.mp h i (List.mem_range.mpr hi)

theorem bits_injective {xs ys : List UInt8} (hLength : xs.length = ys.length) (h : bits xs = bits ys) :
    xs = ys := by
  induction xs generalizing ys with
  | nil => exact (List.length_eq_zero_iff.mp hLength.symm).symm
  | cons a xs ih =>
    cases ys with
    | nil => cases hLength
    | cons b ys =>
      have hSame : (byteBits a).length = (byteBits b).length := by
        rw [length_byteBits, length_byteBits]
      rw [bits_cons, bits_cons] at h
      obtain ⟨hHead, hTail⟩ := List.append_inj h hSame
      rw [byteBits_injective hHead, ih (Nat.succ.inj hLength) hTail]

/-- Buffers that differ, and only within sixteen consecutive bits, have different CRCs. -/
theorem crcFromBuffer_ne_of_burst {xs ys : List UInt8} (hLength : xs.length = ys.length) (hNe : xs ≠ ys)
    (start : ℕ) (hWindow : ∀ i, (bits xs)[i]? ≠ (bits ys)[i]? → start ≤ i ∧ i < start + 16) :
    crcFromBuffer xs ≠ crcFromBuffer ys := by
  intro hCrc
  have hBits : (bits xs).length = (bits ys).length := by rw [length_bits, length_bits, hLength]
  refine feed_ne_of_burst crcPolynomial (by decide) 0xffff#16 hBits
    (fun hSame => hNe (bits_injective hLength hSame)) hWindow ?_
  have hWords := congrArg UInt16.toBitVec hCrc
  rwa [crcFromBuffer_feed, crcFromBuffer_feed] at hWords

/-- The last bit of the first byte, the second byte and the first bits of the third are turned. -/
theorem crcFromBuffer_ne_of_burst_ack : crcFromBuffer [0x06, 0x00, 0x00] ≠ crcFromBuffer [0x07, 0xff, 0xc0] := by
  refine crcFromBuffer_ne_of_burst rfl (by decide) 7 fun i hDiffer => ?_
  have hBits : ∀ i < 24, (bits [0x06, 0x00, 0x00])[i]? ≠ (bits [0x07, 0xff, 0xc0])[i]? → 7 ≤ i ∧ i < 7 + 16 := by
    decide
  by_cases hi : i < 24
  · exact hBits i hi hDiffer
  · have hBeyond : 24 ≤ i := Nat.le_of_not_lt hi
    rw [List.getElem?_eq_none hBeyond, List.getElem?_eq_none hBeyond] at hDiffer
    exact absurd rfl hDiffer

end CMeshApi.Slip
