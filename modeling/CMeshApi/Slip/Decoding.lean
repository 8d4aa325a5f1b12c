import CMeshApi.Slip.Codec
import CMeshApi.Foundations.ByteStuffing

/-!
# What the decoder makes of any bytes

`slip_decode_buffer` decodes in place, and never writes behind the byte that it reads. Its
write position has 8 bits, so that decoded bytes beyond 255 go to the front again, and
an escape at the end of the bytes is decoded with the byte behind them.
-/

namespace CMeshApi.Slip

open Stuffing

def slipStuffing : Stuffing UInt8 where
  esc := escSlipOctet
  subst a :=
    if a = endSlipOctet then some endSubsOctet
    else if a = escSlipOctet then some escSubsOctet else none
  unsubst b := if b = endSubsOctet then endSlipOctet else escSlipOctet
  esc_reserved := by decide
  unsubst_subst a b h := by
    split at h
    · next hEnd => rw [← Option.some.inj h, if_pos rfl, hEnd]
    · split at h
      · next hEsc => rw [← Option.some.inj h, if_neg (by decide), hEsc]
      · cases h

/-- The frame as the wire form carries it, without its CRC. -/
def escaped (buffer : List UInt8) : List UInt8 := slipStuffing.stuff buffer

theorem subst_eq_none_iff {a : UInt8} :
    slipStuffing.subst a = none ↔ ¬ (a = endSlipOctet ∨ a = escSlipOctet) := by
  simp only [slipStuffing]
  split
  · next hEnd => simp [hEnd]
  · next hEnd => simp [hEnd]

theorem subst_of_reserved {a : UInt8} (h : a = endSlipOctet ∨ a = escSlipOctet) :
    slipStuffing.subst a = some (if a = endSlipOctet then endSubsOctet else escSubsOctet) := by
  rcases h with rfl | rfl <;> rfl

theorem subst_ne_end (a : UInt8) : slipStuffing.subst a ≠ some endSlipOctet := by
  simp only [slipStuffing]
  split
  · decide
  · split
    · decide
    · exact Option.some_ne_none _ |>.symm

theorem end_not_mem_escaped (buffer : List UInt8) : endSlipOctet ∉ escaped buffer :=
  slipStuffing.not_mem_stuff (by decide) (by decide) subst_ne_end buffer

theorem toNat_succ {w : UInt8} (h : w.toNat < 255) : (w + 1).toNat = w.toNat + 1 := by
  rw [UInt8.toNat_add]
  exact Nat.mod_eq_of_lt (show w.toNat + 1 < 256 by omega)

theorem toNat_succ_le (w : UInt8) : (w + 1).toNat ≤ w.toNat + 1 := by
  rw [UInt8.toNat_add]
  exact Nat.mod_le _ _

theorem advance_one (w : UInt8) (n : Nat) : w + 1 + UInt8.ofNat n = w + UInt8.ofNat (1 + n) := by
  rw [UInt8.ofNat_add, UInt8.add_assoc]
  rfl

/-- The list, stored byte by byte at a position of 8 bits. -/
def writeWrapping (mem : Memory UInt8) (write : UInt8) : List UInt8 → Memory UInt8
  | [] => mem
  | b :: bs => writeWrapping (mem.store write.toNat b) (write + 1) bs

theorem writeWrapping_append (mem : Memory UInt8) (write : UInt8) (bs cs : List UInt8) :
    writeWrapping mem write (bs ++ cs) =
      writeWrapping (writeWrapping mem write bs) (write + UInt8.ofNat bs.length) cs := by
  induction bs generalizing mem write with
  | nil => exact congrArg (fun w => writeWrapping mem w cs) (UInt8.add_zero write).symm
  | cons b bs ih =>
    rw [List.cons_append, writeWrapping, writeWrapping, ih, advance_one, List.length_cons, Nat.add_comm 1]

theorem writeWrapping_short (mem : Memory UInt8) (write : UInt8) (bs : List UInt8)
    (h : write.toNat + bs.length ≤ 256) : writeWrapping mem write bs = mem.write write.toNat bs := by
  induction bs generalizing mem write with
  | nil => rw [writeWrapping, Memory.write_nil]
  | cons b bs ih =>
    rw [List.length_cons] at h
    cases bs with
    | nil => rw [writeWrapping, writeWrapping, Memory.write_cons, Memory.write_nil]
    | cons c bs =>
      have hOne : (write + 1).toNat = write.toNat + 1 := toNat_succ (by rw [List.length_cons] at h; omega)
      rw [writeWrapping, ih _ _ (by rw [hOne]; omega), hOne, Int.natCast_add]
      exact (Memory.write_cons mem _ b (c :: bs)).symm

theorem slipDecodeLoop_end (len fuel read : Nat) (write : UInt8) (mem : Memory UInt8) (h : len ≤ read) :
    slipDecodeLoop len fuel read write mem = (mem, write) := by
  cases fuel with
  | zero => rfl
  | succ fuel => rw [slipDecodeLoop, if_neg (Nat.not_lt.mpr h)]

section Rounds

variable {len fuel read : Nat} {write : UInt8} {mem : Memory UInt8}

theorem slipDecodeLoop_ordinary {a : UInt8} (hRead : read < len) (hFirst : mem read = a)
    (hOrdinary : a ≠ escSlipOctet) :
    slipDecodeLoop len (fuel + 1) read write mem =
      slipDecodeLoop len fuel (read + 1) (write + 1) (mem.store write.toNat a) := by
  rw [slipDecodeLoop, if_pos hRead, hFirst, if_neg hOrdinary]

theorem slipDecodeLoop_esc {b : UInt8} (hRead : read < len) (hFirst : mem read = escSlipOctet)
    (hSecond : mem (read + 1) = b) :
    slipDecodeLoop len (fuel + 1) read write mem =
      slipDecodeLoop len fuel (read + 2) (write + 1)
        (mem.store write.toNat (slipStuffing.unsubst b)) := by
  rw [slipDecodeLoop, if_pos hRead, if_pos hFirst, ← hSecond]
  rfl

/-- The decoded bytes are stored before the read position, where nothing is read again. -/
theorem slipDecodeLoop_eq {next : UInt8} (xs : List UInt8) (hLen : len = read + xs.length)
    (hFuel : xs.length ≤ fuel) (hMem : mem.read read xs.length = xs) (hNext : mem len = next)
    (hWrite : write.toNat ≤ read) :
    slipDecodeLoop len fuel read write mem =
      (writeWrapping mem write (slipStuffing.unstuff next xs),
        write + UInt8.ofNat (slipStuffing.unstuff next xs).length) := by
  fun_induction slipStuffing.unstuff next xs generalizing fuel read write mem with
  | case1 =>
    rw [slipDecodeLoop_end len fuel read write mem (Nat.le_of_eq hLen), writeWrapping]
    exact congrArg (Prod.mk mem) (UInt8.add_zero write).symm
  | case2 a =>
    obtain ⟨fuel, rfl⟩ := Nat.exists_eq_add_of_le' hFuel
    obtain ⟨hFirst, -⟩ := Memory.read_cons_iff.mp hMem
    rw [List.length_singleton] at hLen ⊢
    subst hLen
    by_cases hEsc : a = slipStuffing.esc
    · rw [slipDecodeLoop_esc (Nat.lt_succ_self read) (hFirst.trans hEsc) hNext, if_pos hEsc,
        slipDecodeLoop_end _ _ _ _ _ (Nat.le_succ _)]
      rfl
    · rw [slipDecodeLoop_ordinary (Nat.lt_succ_self read) hFirst hEsc, if_neg hEsc,
        slipDecodeLoop_end _ _ _ _ _ (Nat.le_refl _)]
      rfl
  | case3 b xs ih =>
    rw [List.length_cons, List.length_cons] at hLen hFuel
    obtain ⟨fuel, rfl⟩ := Nat.exists_eq_add_of_le' hFuel
    obtain ⟨hFirst, hRest⟩ := Memory.read_cons_iff.mp hMem
    obtain ⟨hSecond, hRest⟩ := Memory.read_cons_iff.mp hRest
    have hBehind := toNat_succ_le write
    rw [← Nat.add_assoc, slipDecodeLoop_esc (by omega) hFirst hSecond, ih, writeWrapping, advance_one,
      List.length_cons, Nat.add_comm 1]
    · omega
    · omega
    · rw [Memory.read_store_below _ _ _ (by omega)]
      exact hRest
    · rw [Memory.store_other _ _ _ (by omega), hNext]
    · omega
  | case4 a b xs hOrdinary ih =>
    rw [List.length_cons] at hLen hFuel
    obtain ⟨fuel, rfl⟩ := Nat.exists_eq_add_of_le' hFuel
    obtain ⟨hFirst, hRest⟩ := Memory.read_cons_iff.mp hMem
    have hBehind := toNat_succ_le write
    rw [← Nat.add_assoc, slipDecodeLoop_ordinary (by omega) hFirst hOrdinary, ih, writeWrapping,
      advance_one, List.length_cons, Nat.add_comm 1]
    · omega
    · omega
    · rw [Memory.read_store_below _ _ _ (by omega)]
      exact hRest
    · rw [Memory.store_other _ _ _ (by omega), hNext]
    · omega

theorem slipDecodeBuffer_eq {next : UInt8} {xs : List UInt8} (hMem : mem.read 0 xs.length = xs)
    (hNext : mem xs.length = next) :
    slipDecodeBuffer mem xs.length =
      (writeWrapping mem 0 (slipStuffing.unstuff next xs),
        UInt8.ofNat (slipStuffing.unstuff next xs).length) := by
  rw [slipDecodeBuffer, slipDecodeLoop_eq xs (Nat.zero_add _).symm (Nat.le_refl _) hMem hNext
    (Nat.le_of_eq UInt8.toNat_zero), UInt8.zero_add]

/-- The decoded bytes behind the last full turn of the write position. -/
def turned (decoded : List UInt8) : List UInt8 := decoded.drop (256 * (decoded.length / 256))

theorem length_turned (decoded : List UInt8) : (turned decoded).length = decoded.length % 256 := by
  rw [turned, List.length_drop]
  omega

theorem turned_short {decoded : List UInt8} (h : decoded.length < 256) : turned decoded = decoded := by
  rw [turned, Nat.div_eq_of_lt h, Nat.mul_zero, List.drop_zero]

theorem read_writeWrapping (mem : Memory UInt8) (decoded : List UInt8) :
    (writeWrapping mem 0 decoded).read 0 (turned decoded).length = turned decoded := by
  have hShort : (turned decoded).length < 256 := by
    rw [length_turned]
    exact Nat.mod_lt _ (by decide)
  have hStart : (0 : UInt8) + UInt8.ofNat (decoded.take (256 * (decoded.length / 256))).length = 0 := by
    rw [UInt8.zero_add, List.length_take, Nat.min_eq_left (Nat.mul_div_le _ _)]
    apply UInt8.toNat_inj.mp
    rw [UInt8.toNat_ofNat']
    exact Nat.mul_mod_right 256 _
  have hSplit : writeWrapping mem 0 decoded =
      (writeWrapping mem 0 (decoded.take (256 * (decoded.length / 256)))).write 0 (turned decoded) := by
    conv_lhs => rw [← List.take_append_drop (256 * (decoded.length / 256)) decoded]
    rw [writeWrapping_append, hStart]
    exact writeWrapping_short _ 0 _ (by rw [UInt8.toNat_zero, Nat.zero_add]; exact Nat.le_of_lt hShort)
  rw [hSplit]
  exact Memory.read_write _ 0 _

def crcBytes (buffer : List UInt8) : List UInt8 := [0, 1].map (crcByte (crcFromBuffer buffer))

theorem length_crcBytes (buffer : List UInt8) : (crcBytes buffer).length = 2 := rfl

theorem uint16DecodeLe_eq_iff {mem : Memory UInt8} {pos : Int} {crc : UInt16} :
    uint16DecodeLe mem pos = crc ↔ mem pos = crcByte crc 0 ∧ mem (pos + 1) = crcByte crc 1 := by
  constructor
  · rintro rfl
    constructor
    · apply UInt8.toNat_inj.mp
      have := (mem pos).toNat_lt
      rw [toNat_crcByte _ 0 (by decide), uint16DecodeLe, toNat_le16]
      omega
    · apply UInt8.toNat_inj.mp
      have := (mem pos).toNat_lt
      have := (mem (pos + 1)).toNat_lt
      rw [toNat_crcByte _ 1 (by decide), uint16DecodeLe, toNat_le16]
      omega
  · rintro ⟨hLow, hHigh⟩
    rw [uint16DecodeLe, hLow, hHigh, crcBytes_decode]

theorem read_crcBytes_iff {mem : Memory UInt8} {n : Nat} :
    mem.read 0 (n + 2) = mem.read 0 n ++ crcBytes (mem.read 0 n) ↔
      uint16DecodeLe mem n = crcFromBuffer (mem.read 0 n) := by
  rw [Memory.read_add, List.append_cancel_left_eq, uint16DecodeLe_eq_iff, Int.zero_add, Memory.read_succ,
    Memory.read_succ, Memory.read, crcBytes]
  simp

variable {next : UInt8} {xs payload : List UInt8}

theorem slipDecode_of_correct (hMem : mem.read 0 xs.length = xs) (hNext : mem xs.length = next)
    (hCorrect : turned (slipStuffing.unstuff next xs) = payload ++ crcBytes payload) :
    (slipDecode mem xs.length).2 = payload.length ∧
      (slipDecode mem xs.length).1.read 0 payload.length = payload := by
  have hRead := read_writeWrapping mem (slipStuffing.unstuff next xs)
  have hLength := length_turned (slipStuffing.unstuff next xs)
  rw [hCorrect, List.length_append, length_crcBytes] at hRead hLength
  have hPayload : (writeWrapping mem 0 (slipStuffing.unstuff next xs)).read 0 payload.length = payload := by
    rw [Memory.read_add] at hRead
    exact (List.append_inj hRead (Memory.length_read _ _ _)).1
  have hCrc := read_crcBytes_iff.mp (hRead.trans (by rw [hPayload]))
  have hDecoded : ((UInt8.ofNat (slipStuffing.unstuff next xs).length).toNat : Int) - 2 = payload.length := by
    rw [UInt8.toNat_ofNat', ← hLength]
    omega
  have hSmall : ((payload.length : Int) % 2 ^ 32).toNat = payload.length := by omega
  rw [slipDecode, slipDecodeBuffer_eq hMem hNext]
  simp only []
  rw [hDecoded, hSmall, hCrc, if_neg (not_not_intro rfl)]
  exact ⟨rfl, hPayload⟩

theorem correct_of_slipDecode (hMem : mem.read 0 xs.length = xs) (hNext : mem xs.length = next)
    (hDecoded : 0 ≤ (slipDecode mem xs.length).2) :
    ∃ payload, turned (slipStuffing.unstuff next xs) = payload ++ crcBytes payload := by
  have hRead := read_writeWrapping mem (slipStuffing.unstuff next xs)
  have hLength := length_turned (slipStuffing.unstuff next xs)
  rw [slipDecode, slipDecodeBuffer_eq hMem hNext] at hDecoded
  simp only [UInt8.toNat_ofNat'] at hDecoded
  rw [← hLength] at hDecoded
  split at hDecoded
  · split at hDecoded
    · exact absurd hDecoded (show ¬ (0 : Int) ≤ wpcIntWrongCrcFromHost by decide)
    · exact absurd hDecoded (show ¬ (0 : Int) ≤ wpcIntWrongCrc by decide)
  · next hCrc =>
    obtain ⟨n, hn⟩ : ∃ n, (turned (slipStuffing.unstuff next xs)).length = n + 2 := by
      refine ⟨(turned (slipStuffing.unstuff next xs)).length - 2, ?_⟩
      simp only [] at hDecoded
      omega
    have hMinus : ((n + 2 : Nat) : Int) - 2 = n := by omega
    have hSmall : ((n : Int) % 2 ^ 32).toNat = n := by omega
    rw [hn, hMinus, hSmall] at hCrc
    rw [hn] at hRead
    exact ⟨_, hRead.symm.trans (read_crcBytes_iff.mpr (of_not_not hCrc).symm)⟩

theorem slipDecode_nonneg_iff (hMem : mem.read 0 xs.length = xs) (hNext : mem xs.length = next) :
    0 ≤ (slipDecode mem xs.length).2 ↔
      ∃ payload, turned (slipStuffing.unstuff next xs) = payload ++ crcBytes payload := by
  refine ⟨correct_of_slipDecode hMem hNext, ?_⟩
  rintro ⟨payload, hCorrect⟩
  rw [(slipDecode_of_correct hMem hNext hCorrect).1]
  exact Int.natCast_nonneg _

end Rounds

end CMeshApi.Slip
