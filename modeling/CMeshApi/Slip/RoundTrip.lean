import CMeshApi.Slip.Decoding

/-!
# The SLIP round trip

The encoder stuffs the frame and its CRC, as long as its 8-bit write position
does not wrap. What it returns is then decoded to the frame; once the position
has wrapped, too few bytes are announced for any decoder to find the frame.
-/

namespace CMeshApi.Slip

open Stuffing

/-- With room for the escaped bytes, and before the position wraps, the loop writes them. -/
theorem slipEncodeLoop_eq (base : Int) (len : Nat) (buffer : List UInt8) (write : UInt8)
    (mem : Memory UInt8) (hRoom : write.toNat + (escaped buffer).length ≤ len)
    (hByte : write.toNat + (escaped buffer).length ≤ 255) :
    slipEncodeLoop base len buffer write mem =
      (mem.write (base + write.toNat) (escaped buffer),
        some (write + UInt8.ofNat (escaped buffer).length)) := by
  induction buffer generalizing write mem with
  | nil => simp [slipEncodeLoop, escaped]
  | cons current buffer ih =>
    have hCons : escaped (current :: buffer) =
        slipStuffing.stuffSymbol current ++ escaped buffer := rfl
    rw [hCons, List.length_append] at hRoom hByte
    by_cases hReserved : current = endSlipOctet ∨ current = escSlipOctet
    · have hSymbol := slipStuffing.stuffSymbol_reserved (subst_of_reserved hReserved)
      rw [hSymbol, List.length_cons, List.length_singleton] at hRoom hByte
      have hOne : (write + 1).toNat = write.toNat + 1 := toNat_succ (by omega)
      have hTwo : (write + 1 + 1).toNat = write.toNat + 2 := by
        rw [toNat_succ (by omega), hOne]
      rw [slipEncodeLoop, if_pos hReserved, if_neg (by omega)]
      simp only []
      rw [if_neg (by omega), ih (write + 1 + 1) _ (by omega) (by omega), hCons, hSymbol, hOne, hTwo]
      have hPlace : base + (write.toNat + 2 : Nat) = base + write.toNat + 1 + 1 := by omega
      have hNext : base + (write.toNat + 1 : Nat) = base + write.toNat + 1 := by omega
      rw [hPlace, hNext, List.cons_append, List.cons_append, List.nil_append, Memory.write_cons,
        Memory.write_cons, List.length_cons, List.length_cons, advance_one, advance_one,
        Nat.add_comm 1, Nat.add_comm 1]
      rfl
    · have hSymbol := slipStuffing.stuffSymbol_ordinary (subst_eq_none_iff.mpr hReserved)
      rw [hSymbol, List.length_singleton] at hRoom hByte
      have hOne : (write + 1).toNat = write.toNat + 1 := toNat_succ (by omega)
      have hNext : base + (write.toNat + 1 : Nat) = base + write.toNat + 1 := by omega
      rw [slipEncodeLoop, if_neg hReserved, if_neg (by omega),
        ih (write + 1) _ (by omega) (by omega), hCons, hSymbol, hOne, hNext, List.cons_append,
        List.nil_append, Memory.write_cons, List.length_cons, advance_one, Nat.add_comm 1]

/-- A capacity beyond every 8-bit position is never found exceeded: the position wraps. -/
theorem slipEncodeLoop_wrap (base : Int) (len : Nat) (buffer : List UInt8) (write : UInt8)
    (mem : Memory UInt8) (hRoom : 256 ≤ len) :
    (slipEncodeLoop base len buffer write mem).2 =
      some (write + UInt8.ofNat (escaped buffer).length) := by
  have hFits : ∀ w : UInt8, ¬ len ≤ w.toNat := fun w => by
    have := w.toNat_lt
    omega
  induction buffer generalizing write mem with
  | nil => simp [slipEncodeLoop, escaped]
  | cons current buffer ih =>
    have hCons : escaped (current :: buffer) =
        slipStuffing.stuffSymbol current ++ escaped buffer := rfl
    by_cases hReserved : current = endSlipOctet ∨ current = escSlipOctet
    · rw [slipEncodeLoop, if_pos hReserved, if_neg (hFits _)]
      simp only []
      rw [if_neg (hFits _), ih, hCons, slipStuffing.stuffSymbol_reserved (subst_of_reserved hReserved),
        List.length_append, List.length_cons, List.length_singleton, advance_one, advance_one,
        ← Nat.add_assoc]
    · rw [slipEncodeLoop, if_neg hReserved, if_neg (hFits _), ih, hCons,
        slipStuffing.stuffSymbol_ordinary (subst_eq_none_iff.mpr hReserved), List.length_append,
        List.length_singleton, advance_one]

theorem slipEncodeBuffer_eq (buffer : List UInt8) (mem : Memory UInt8) (base : Int) (len : Nat)
    (hRoom : (escaped buffer).length ≤ len) (hByte : (escaped buffer).length ≤ 255) :
    slipEncodeBuffer buffer mem base len =
      (mem.write base (escaped buffer), ((escaped buffer).length : Int)) := by
  rw [slipEncodeBuffer, slipEncodeLoop_eq base len buffer 0 mem (by simpa using hRoom)
    (by simpa using hByte)]
  have hLength : (UInt8.ofNat (escaped buffer).length).toNat = (escaped buffer).length :=
    Nat.mod_eq_of_lt (show (escaped buffer).length < 256 by omega)
  simp [hLength]

theorem slipEncodeBuffer_wrap (buffer : List UInt8) (mem : Memory UInt8) (base : Int) (len : Nat)
    (hRoom : 256 ≤ len) :
    (slipEncodeBuffer buffer mem base len).2 = ((escaped buffer).length % 256 : Nat) := by
  have hLoop := slipEncodeLoop_wrap base len buffer 0 mem hRoom
  rw [slipEncodeBuffer]
  rcases hResult : slipEncodeLoop base len buffer 0 mem with ⟨mem', write⟩
  rw [hResult] at hLoop
  obtain rfl : write = some (0 + UInt8.ofNat (escaped buffer).length) := hLoop
  simp

theorem remainingLength_eq (lenOut : UInt32) (totalSize : Int) (h : totalSize ≤ lenOut.toNat)
    (hSmall : lenOut.toNat - totalSize < 2 ^ 32) :
    (remainingLength lenOut totalSize : Int) = lenOut.toNat - totalSize := by
  rw [remainingLength, Int.emod_eq_of_lt (Int.sub_nonneg_of_le h) hSmall]
  exact Int.toNat_of_nonneg (Int.sub_nonneg_of_le h)

/-- The rounds may also begin before the buffer, at the negative size that the frame was given. -/
theorem slipEncodeCrc_eq (crc : UInt16) (lenOut : UInt32) (rounds : List Nat) (mem : Memory UInt8)
    (totalSize : Int) (hSmall : lenOut.toNat - totalSize < 2 ^ 32)
    (hRoom : totalSize + (escaped (rounds.map (crcByte crc))).length ≤ lenOut.toNat) :
    slipEncodeCrc crc lenOut rounds mem totalSize =
      (mem.write totalSize (escaped (rounds.map (crcByte crc))),
        some (totalSize + (escaped (rounds.map (crcByte crc))).length)) := by
  induction rounds generalizing mem totalSize with
  | nil => simp [slipEncodeCrc, escaped]
  | cons i rounds ih =>
    have hSymbol : (escaped [crcByte crc i]).length ≤ 2 := slipStuffing.length_stuff_le _
    have hCons : escaped ((i :: rounds).map (crcByte crc)) =
        escaped [crcByte crc i] ++ escaped (rounds.map (crcByte crc)) := by
      simp [escaped]
    rw [hCons, List.length_append] at hRoom
    have hRemaining := remainingLength_eq lenOut totalSize (by omega) hSmall
    have hSize : ¬ ((escaped [crcByte crc i]).length : Int) = -1 := by omega
    rw [slipEncodeCrc, slipEncodeBuffer_eq _ _ _ _ (by omega) (by omega)]
    simp only [if_neg hSize]
    rw [ih _ _ (by omega) (by omega), hCons, Memory.write_append, List.length_append, Int.natCast_add,
      Int.add_assoc]

theorem length_escaped_crc_le (buffer : List UInt8) :
    (escaped (buffer ++ crcBytes buffer)).length ≤ 2 * buffer.length + 4 := by
  have hStuff : (escaped (buffer ++ crcBytes buffer)).length ≤ 2 * (buffer ++ crcBytes buffer).length :=
    slipStuffing.length_stuff_le _
  rw [List.length_append, length_crcBytes] at hStuff
  omega

theorem slipEncode_short (buffer : List UInt8) (out : Memory UInt8) (lenOut : UInt32)
    (hRoom : (escaped (buffer ++ crcBytes buffer)).length ≤ lenOut.toNat)
    (hByte : (escaped buffer).length ≤ 255) :
    slipEncode buffer out lenOut =
      (out.write 0 (escaped (buffer ++ crcBytes buffer)),
        ((escaped (buffer ++ crcBytes buffer)).length : Int)) := by
  have hSize : ¬ ((escaped buffer).length : Int) = -1 := by omega
  have hAppend : escaped (buffer ++ crcBytes buffer) =
      escaped buffer ++ escaped (crcBytes buffer) := slipStuffing.stuff_append _ _
  rw [hAppend, List.length_append] at hRoom
  have hLen := lenOut.toNat_lt
  have hCrc := slipEncodeCrc_eq (crcFromBuffer buffer) lenOut [0, 1] (out.write 0 (escaped buffer))
    (escaped buffer).length (by omega) (Int.ofNat_le.mpr hRoom)
  rw [slipEncode, slipEncodeBuffer_eq _ _ _ _ (by omega) hByte]
  simp only [if_neg hSize]
  rw [hCrc, hAppend, Memory.write_append, List.length_append]
  simp [crcBytes]

/-- Once the position has wrapped, the announced length lacks the 256 bytes lost. -/
theorem slipEncode_wrap (buffer : List UInt8) (out : Memory UInt8) (lenOut : UInt32)
    (hWraps : 255 < (escaped buffer).length) (hOnce : (escaped buffer).length < 512)
    (hRoom : 256 ≤ lenOut.toNat) (hCrc : (escaped buffer).length ≤ lenOut.toNat + 252) :
    (slipEncode buffer out lenOut).2 =
      ((escaped buffer).length - 256 + (escaped (crcBytes buffer)).length : Nat) := by
  have hMod : (escaped buffer).length % 256 = (escaped buffer).length - 256 := by omega
  have hTotal := slipEncodeBuffer_wrap buffer out 0 lenOut.toNat hRoom
  rw [slipEncode]
  rcases hResult : slipEncodeBuffer buffer out 0 lenOut.toNat with ⟨mem, totalSize⟩
  rw [hResult, hMod] at hTotal
  obtain rfl : totalSize = ((escaped buffer).length - 256 : Nat) := hTotal
  have hTail : (escaped ([0, 1].map (crcByte (crcFromBuffer buffer)))).length ≤ 4 :=
    slipStuffing.length_stuff_le _
  have hLen := lenOut.toNat_lt
  have hAppended := slipEncodeCrc_eq (crcFromBuffer buffer) lenOut [0, 1] mem
    ((escaped buffer).length - 256 : Nat) (by omega) (by omega)
  simp only []
  rw [if_neg (by omega), hAppended]
  rfl

theorem slipEncode_long (buffer : List UInt8) (out : Memory UInt8) (lenOut : UInt32)
    (hOnce : (escaped buffer).length < 512) (hRoom : 2 * buffer.length + 4 ≤ lenOut.toNat)
    (hByte : 255 < (escaped buffer).length) :
    (slipEncode buffer out lenOut).2 ≤ (escaped buffer).length - 256 + 4 := by
  have hEscaped : (escaped buffer).length ≤ 2 * buffer.length := slipStuffing.length_stuff_le _
  have hCrc : (escaped (crcBytes buffer)).length ≤ 4 := slipStuffing.length_stuff_le _
  rw [slipEncode_wrap buffer out lenOut hByte hOnce (by omega) (by omega)]
  omega

theorem slipDecodeLoop_le (len fuel read : Nat) (write : UInt8) (mem : Memory UInt8) :
    (slipDecodeLoop len fuel read write mem).2.toNat ≤ write.toNat + (len - read) := by
  induction fuel generalizing read write mem with
  | zero => exact Nat.le_add_right _ _
  | succ fuel ih =>
    have hNext := toNat_succ_le write
    rw [slipDecodeLoop]
    split
    · split
      · refine Nat.le_trans (ih (read + 1 + 1) (write + 1) _) ?_
        omega
      · refine Nat.le_trans (ih (read + 1) (write + 1) _) ?_
        omega
    · exact Nat.le_add_right _ _

theorem slipDecode_le (mem : Memory UInt8) (len : Nat) : (slipDecode mem len).2 ≤ (len : Int) - 2 := by
  have hLoop := slipDecodeLoop_le len len 0 0 mem
  have hZero : (0 : UInt8).toNat = 0 := rfl
  rw [slipDecode, slipDecodeBuffer]
  simp only []
  split
  · split
    · simp only [wpcIntWrongCrcFromHost]
      omega
    · simp only [wpcIntWrongCrc]
      omega
  · simp only []
    omega

theorem slipDecode_escaped (buffer : List UInt8) (mem : Memory UInt8)
    (hSize : buffer.length ≤ 253)
    (hMem : mem.read 0 (escaped (buffer ++ crcBytes buffer)).length =
      escaped (buffer ++ crcBytes buffer)) :
    (slipDecode mem (escaped (buffer ++ crcBytes buffer)).length).2 = buffer.length ∧
      (slipDecode mem (escaped (buffer ++ crcBytes buffer)).length).1.read 0 buffer.length = buffer := by
  apply slipDecode_of_correct hMem rfl
  rw [escaped, unstuff_stuff, turned_short]
  rw [List.length_append, length_crcBytes]
  omega

/-- What `Slip_encode` announces is free of END octets and decodes to the frame, whatever
follows it in the buffer of the decoder. -/
def RoundTrips (buffer : List UInt8) (bufferOut : Memory UInt8) (lenOut : UInt32) : Prop :=
  let encoded := slipEncode buffer bufferOut lenOut
  0 ≤ encoded.2 ∧ (∀ i, 0 ≤ i → i < encoded.2 → encoded.1 i ≠ endSlipOctet) ∧
    ∀ received : Memory UInt8, (∀ i, 0 ≤ i → i < encoded.2 → received i = encoded.1 i) →
      let decoded := slipDecode received encoded.2.toNat
      decoded.2 = buffer.length ∧ decoded.1.read 0 buffer.length = buffer

theorem roundTrips_of_short (buffer : List UInt8) (bufferOut : Memory UInt8) (lenOut : UInt32)
    (hSize : buffer.length ≤ sizeofWpcFrame) (hRoom : 2 * buffer.length + 4 ≤ lenOut.toNat)
    (hByte : (escaped buffer).length ≤ 255) : RoundTrips buffer bufferOut lenOut := by
  have hFrame : sizeofWpcFrame = 204 := rfl
  have hCells := Memory.read_eq_iff.mp
    (Memory.read_write bufferOut 0 (escaped (buffer ++ crcBytes buffer)))
  have hEscaped := Nat.le_trans (length_escaped_crc_le buffer) hRoom
  rw [RoundTrips, slipEncode_short buffer bufferOut lenOut hEscaped hByte]
  refine ⟨Int.natCast_nonneg _, ?_, ?_⟩
  · intro i hLow hHigh
    obtain ⟨k, rfl⟩ := Int.eq_ofNat_of_zero_le hLow
    have hk : k < (escaped (buffer ++ crcBytes buffer)).length := Int.ofNat_lt.mp hHigh
    have hCell := hCells k hk
    rw [Int.zero_add] at hCell
    simp only []
    rw [hCell]
    exact fun hEnd => end_not_mem_escaped (buffer ++ crcBytes buffer) (hEnd ▸ List.getElem_mem hk)
  · intro received hReceived
    have hMem : received.read 0 (escaped (buffer ++ crcBytes buffer)).length =
        escaped (buffer ++ crcBytes buffer) := by
      refine Memory.read_eq_iff.mpr fun k hk => ?_
      rw [← hCells k hk]
      exact hReceived _ (by omega) (by simp only []; omega)
    exact slipDecode_escaped buffer received (by omega) hMem

theorem not_roundTrips_of_long (buffer : List UInt8) (bufferOut : Memory UInt8) (lenOut : UInt32)
    (hSize : buffer.length ≤ sizeofWpcFrame) (hRoom : 2 * buffer.length + 4 ≤ lenOut.toNat)
    (hByte : 255 < (escaped buffer).length) : ¬ RoundTrips buffer bufferOut lenOut := by
  rintro ⟨hNonneg, -, hDecode⟩
  have hFrame : sizeofWpcFrame = 204 := rfl
  have hEscaped : (escaped buffer).length ≤ 2 * buffer.length := slipStuffing.length_stuff_le _
  have hAnnounced := slipEncode_long buffer bufferOut lenOut (by omega) hRoom hByte
  have hDecoded := (hDecode (slipEncode buffer bufferOut lenOut).1 fun _ _ _ => rfl).1
  have hBound := slipDecode_le (slipEncode buffer bufferOut lenOut).1
    (slipEncode buffer bufferOut lenOut).2.toNat
  rw [hDecoded] at hBound
  omega

/-- The round trip holds exactly while the escaped frame leaves the 8-bit position unwrapped. -/
theorem roundTrips_iff (buffer : List UInt8) (bufferOut : Memory UInt8) (lenOut : UInt32)
    (hSize : buffer.length ≤ sizeofWpcFrame) (hRoom : 2 * buffer.length + 4 ≤ lenOut.toNat) :
    RoundTrips buffer bufferOut lenOut ↔ (escaped buffer).length ≤ 255 := by
  constructor
  · intro h
    by_contra hLong
    exact not_roundTrips_of_long buffer bufferOut lenOut hSize hRoom (by omega) h
  · exact roundTrips_of_short buffer bufferOut lenOut hSize hRoom

theorem roundTrips_iff_two_bytes :
    RoundTrips [0xC0, 0x01] (fun _ => 0) 8 ↔ (escaped [0xC0, 0x01]).length ≤ 255 :=
  roundTrips_iff [0xC0, 0x01] (fun _ => 0) 8 (by decide) (by decide)

theorem length_escaped_ends (n : Nat) :
    (escaped (List.replicate n endSlipOctet)).length = 2 * n := by
  induction n with
  | zero => rfl
  | succ n ih =>
    rw [List.replicate_succ, escaped, stuff_cons, List.length_append, ← escaped, ih,
      slipStuffing.stuffSymbol_reserved (subst_of_reserved (Or.inl rfl))]
    simp only [List.length_cons, List.length_nil]
    omega

theorem not_roundTrips_ends :
    ¬ ∀ (buffer : List UInt8) (bufferOut : Memory UInt8) (lenOut : UInt32),
      buffer.length ≤ sizeofWpcFrame → 2 * buffer.length + 4 ≤ lenOut.toNat →
        RoundTrips buffer bufferOut lenOut := by
  intro h
  have hSize : (List.replicate 128 endSlipOctet).length ≤ sizeofWpcFrame := by
    rw [List.length_replicate]
    decide
  have hRoom : 2 * (List.replicate 128 endSlipOctet).length + 4 ≤ (260 : UInt32).toNat := by
    rw [List.length_replicate]
    decide
  have hByte : 255 < (escaped (List.replicate 128 endSlipOctet)).length := by
    rw [length_escaped_ends]
    decide
  exact not_roundTrips_of_long _ (fun _ => 0) 260 hSize hRoom hByte (h _ _ _ hSize hRoom)

end CMeshApi.Slip
