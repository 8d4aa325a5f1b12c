import CMeshApi.Slip.Capacity
import CMeshApi.Slip.Receive

/-!
# Sending a frame

`Slip_send_buffer` reserves twice the length of the frame, two bytes for its CRC and four for the
END octets. The CRC may need four bytes, so that a frame of special bytes only leaves no room for
the last END, or none for the CRC either.
-/

namespace CMeshApi.Slip

open Stuffing

/-- The local buffer when `write_function` has been called, what the call was passed, and the result. -/
structure SentBuffer where
  encodedBuffer : Memory UInt8
  passed : List UInt8
  result : Int

def slipSendBuffer (writeFunction : List UInt8 → Int) (buffer : List UInt8)
    (encodedBuffer : Memory UInt8) : SentBuffer :=
  let started := [0, 1, 2].foldl (fun (m : Memory UInt8) i => m.store i endSlipOctet) encodedBuffer
  -- the encoder is given the address of the fourth byte
  let (encoded, size) := slipEncode buffer (started.shift 3) (maxSizeEncodedBuffer (.ofNat buffer.length) - 3)
  let ended := (encoded.shift (-3)).store (size + 3) endSlipOctet
  let passed := ended.read 0 (size + 4).toNat
  ⟨ended, passed, if writeFunction passed ≠ size + 4 then wpcIntGenError else 0⟩

/-- The frame and its CRC between its END octets. -/
def framed (buffer : List UInt8) : List UInt8 :=
  List.replicate 3 endSlipOctet ++ escaped (buffer ++ crcBytes buffer) ++ [endSlipOctet]

/-- The framed bytes are passed on, and none is stored outside of the local buffer. -/
def SendsExactly (buffer : List UInt8) : Prop :=
  ∀ (writeFunction : List UInt8 → Int) (encodedBuffer : Memory UInt8),
    (slipSendBuffer writeFunction buffer encodedBuffer).passed = framed buffer ∧
      ∀ i : Int, i < 0 ∨ ((maxSizeEncodedBuffer (.ofNat buffer.length)).toNat : Int) ≤ i →
        (slipSendBuffer writeFunction buffer encodedBuffer).encodedBuffer i = encodedBuffer i

section Send

variable {buffer : List UInt8} (hShort : (escaped buffer).length ≤ 255)

include hShort

theorem sizeof_encodedBuffer :
    (maxSizeEncodedBuffer (.ofNat buffer.length)).toNat = 2 * buffer.length + 6 ∧
      (maxSizeEncodedBuffer (.ofNat buffer.length) - 3).toNat = 2 * buffer.length + 3 := by
  have hLength := length_unstuff_le (S := slipStuffing) 0 (escaped buffer)
  rw [escaped, unstuff_stuff, ← escaped] at hLength
  have hLen : (UInt32.ofNat buffer.length).toNat = buffer.length :=
    UInt32.toNat_ofNat_of_lt' (show buffer.length < 2 ^ 32 by omega)
  have hLimit : (UInt32.ofNat buffer.length).toNat < 2 ^ 31 - 3 := by omega
  have hSize := toNat_maxSizeEncodedBuffer hLimit
  rw [hLen] at hSize
  refine ⟨hSize, ?_⟩
  have hThree : (3 : UInt32).toNat = 3 := rfl
  rw [UInt32.toNat_sub_of_le _ _ (UInt32.le_iff_toNat_le.mpr (by omega)), hSize, hThree]
  omega

/-- Whatever has room behind the first END octets is framed, also when the last END has none. -/
theorem slipSendBuffer_eq (writeFunction : List UInt8 → Int) (encodedBuffer : Memory UInt8)
    (hRoom : (escaped (buffer ++ crcBytes buffer)).length ≤ 2 * buffer.length + 3) :
    (slipSendBuffer writeFunction buffer encodedBuffer).encodedBuffer =
        encodedBuffer.write 0 (framed buffer) ∧
      (slipSendBuffer writeFunction buffer encodedBuffer).passed = framed buffer := by
  have hCapacity := (sizeof_encodedBuffer hShort).2
  have hEncoded := slipEncode_short buffer
    (([0, 1, 2].foldl (fun (m : Memory UInt8) i => m.store i endSlipOctet) encodedBuffer).shift 3)
    (maxSizeEncodedBuffer (.ofNat buffer.length) - 3) (by omega) hShort
  have hStarted : [0, 1, 2].foldl (fun (m : Memory UInt8) i => m.store i endSlipOctet) encodedBuffer =
      encodedBuffer.write 0 (List.replicate 3 endSlipOctet) := by
    simp only [List.foldl, List.replicate, Memory.write_cons, Memory.write_nil]
    rfl
  have hFramed : (escaped (buffer ++ crcBytes buffer)).length + 4 = (framed buffer).length := by
    simp only [framed, List.length_append, List.length_replicate, List.length_singleton]
    omega
  have hEnded : (slipSendBuffer writeFunction buffer encodedBuffer).encodedBuffer =
      encodedBuffer.write 0 (framed buffer) := by
    simp only [slipSendBuffer, hEncoded]
    rw [Memory.shift_write, Memory.shift_shift, hStarted, Memory.store_eq_write, framed,
      Memory.write_append, Memory.write_append, List.length_append, List.length_replicate]
    have hFrame : (0 : Int) - -3 = 0 + (3 : Nat) := by omega
    have hEnd : ((escaped (buffer ++ crcBytes buffer)).length : Int) + 3 =
        0 + ((3 + (escaped (buffer ++ crcBytes buffer)).length : Nat) : Int) := by omega
    rw [hFrame, hEnd, Int.add_right_neg, Memory.shift_zero]
  refine ⟨hEnded, ?_⟩
  have hPassed : (slipSendBuffer writeFunction buffer encodedBuffer).passed =
      (slipSendBuffer writeFunction buffer encodedBuffer).encodedBuffer.read 0 (framed buffer).length := by
    simp only [slipSendBuffer, hEncoded, ← hFramed]
    rfl
  rw [hPassed, hEnded]
  exact Memory.read_write _ 0 _

theorem sendsExactly_of_room
    (hRoom : (escaped (buffer ++ crcBytes buffer)).length ≤ 2 * buffer.length + 2) : SendsExactly buffer := by
  intro writeFunction encodedBuffer
  obtain ⟨hStored, hPassed⟩ := slipSendBuffer_eq hShort writeFunction encodedBuffer (by omega)
  have hSize := (sizeof_encodedBuffer hShort).1
  have hLength : (framed buffer).length = (escaped (buffer ++ crcBytes buffer)).length + 4 := by
    simp only [framed, List.length_append, List.length_replicate, List.length_singleton]
    omega
  refine ⟨hPassed, ?_⟩
  rw [hStored]
  rintro i (hBelow | hAbove)
  · exact Memory.write_below _ _ _ hBelow
  · exact Memory.write_above _ _ _ (by omega)

/-- The last END is stored behind the buffer. -/
theorem not_sendsExactly_of_full
    (hFull : (escaped (buffer ++ crcBytes buffer)).length = 2 * buffer.length + 3) : ¬ SendsExactly buffer := by
  intro h
  have hSize := (sizeof_encodedBuffer hShort).1
  have hSplit : (List.replicate 3 endSlipOctet ++ escaped (buffer ++ crcBytes buffer)).length =
      2 * buffer.length + 6 := by
    rw [List.length_append, List.length_replicate]
    omega
  have hEnd : 0 < [endSlipOctet].length := Nat.one_pos
  refine Memory.not_unchanged (fun m => m.write 0 (List.replicate 3 endSlipOctet ++ escaped (buffer ++ crcBytes buffer)))
    (2 * buffer.length + 6 : Nat) hEnd fun encodedBuffer => ?_
  obtain ⟨hStored, -⟩ := slipSendBuffer_eq hShort (fun _ => 0) encodedBuffer (by omega)
  have hSame := (h (fun _ => 0) encodedBuffer).2 (2 * buffer.length + 6 : Nat) (.inr (by omega))
  rw [hStored, framed, Memory.write_append, hSplit, Int.zero_add] at hSame
  exact hSame

/-- The second byte of the CRC has no room, and fewer bytes are passed than should be. -/
theorem not_sendsExactly_of_overflow
    (hLarge : 2 * buffer.length + 3 < (escaped (buffer ++ crcBytes buffer)).length) : ¬ SendsExactly buffer := by
  intro h
  have hCapacity := (sizeof_encodedBuffer hShort).2
  have hFrame : (escaped buffer).length ≤ 2 * buffer.length := slipStuffing.length_stuff_le _
  have hLow := length_escaped_singleton (crcByte (crcFromBuffer buffer) 0)
  have hHigh := length_escaped_singleton (crcByte (crcFromBuffer buffer) 1)
  have hUntil := length_untilLowCrc buffer
  have hEncoded := length_encoded buffer
  have hRoom : (escaped (untilLowCrc buffer)).length ≤
      (maxSizeEncodedBuffer (.ofNat buffer.length) - 3).toNat := by omega
  have hOverflow := slipEncode_highOverflow
    (([0, 1, 2].foldl (fun (m : Memory UInt8) i => m.store i endSlipOctet) fun _ => 0).shift 3)
    hShort hRoom (by omega)
  have hPassed := congrArg List.length (h (fun _ => 0) fun _ => 0).1
  simp only [slipSendBuffer, hOverflow, framed, List.length_append, List.length_replicate,
    List.length_singleton, Memory.length_read] at hPassed
  omega

end Send

/-- The frame is sent as it should be just if at least two bytes of it and its CRC need no escape. -/
theorem sendsExactly_iff {buffer : List UInt8} (hShort : (escaped buffer).length ≤ 255) :
    SendsExactly buffer ↔ (escaped (buffer ++ crcBytes buffer)).length ≤ 2 * buffer.length + 2 := by
  constructor
  · intro h
    by_contra hLarge
    rcases Nat.lt_or_ge (2 * buffer.length + 3) (escaped (buffer ++ crcBytes buffer)).length with hOver | hFull
    · exact not_sendsExactly_of_overflow hShort hOver h
    · exact not_sendsExactly_of_full hShort (by omega) h
  · exact sendsExactly_of_room hShort

theorem sendsExactly_iff_ack : SendsExactly [0x06, 0x00, 0x00] ↔
    (escaped ([0x06, 0x00, 0x00] ++ crcBytes [0x06, 0x00, 0x00])).length ≤ 2 * 3 + 2 :=
  sendsExactly_iff (by decide)

/-- Four special bytes whose CRC has a fifth one. -/
theorem specialBytes_not_sent :
    ¬ ∀ buffer : List UInt8, (escaped buffer).length ≤ 255 → SendsExactly buffer := by
  intro h
  have hShort : (escaped [0xDB, 0xC0, 0xC0, 0xC0]).length ≤ 255 := by decide
  have hFull : (escaped ([0xDB, 0xC0, 0xC0, 0xC0] ++ crcBytes [0xDB, 0xC0, 0xC0, 0xC0])).length = 2 * 4 + 3 := by
    decide +kernel
  exact not_sendsExactly_of_full hShort hFull (h _ hShort)

end CMeshApi.Slip
