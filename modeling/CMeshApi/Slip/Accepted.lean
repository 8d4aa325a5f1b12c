import CMeshApi.Slip.RoundTrip

/-!
# What the decoder accepts

`slip_decode_buffer` takes an ESC and any byte but the substitute of END for an ESC. A sequence
with a right CRC is therefore accepted although no encoder produces it, as soon as one ESC in it
is not followed by a substitution octet.
-/

namespace CMeshApi.Slip

open Stuffing

/-- `Slip_encode` leaves this encoded form of the payload, if its capacity is sufficient. -/
def Encodes (payload encoded : List UInt8) : Prop :=
  ∀ (bufferOut : Memory UInt8) (lenOut : UInt32), 2 * payload.length + 4 ≤ lenOut.toNat →
    (slipEncode payload bufferOut lenOut).2 = encoded.length ∧
      (slipEncode payload bufferOut lenOut).1.read 0 encoded.length = encoded

/-- The decoder has accepted the sequence, and has left the payload in its buffer. -/
def Leaves (buffer : Memory UInt8) (received payload : List UInt8) : Prop :=
  (slipDecode buffer received.length).2 = payload.length ∧
    (slipDecode buffer received.length).1.read 0 payload.length = payload

/-- The sequence is accepted with the payload that it encodes, or encodes none and is rejected.
At most as many bytes are left as were received, less the CRC. -/
def AcceptsExactly (buffer : Memory UInt8) (received : List UInt8) : Prop :=
  (∃ payload, Leaves buffer received payload ∧ Encodes payload received) ∨
    (slipDecode buffer received.length).2 < 0 ∧
      ∀ payload, payload.length + 2 ≤ received.length → ¬ Encodes payload received

/-- Each ESC is followed by a substitution octet. -/
def Substituted (received : List UInt8) : Prop :=
  ∀ before rest, received = before ++ escSlipOctet :: rest →
    rest.head? = some endSubsOctet ∨ rest.head? = some escSubsOctet

/-- The unescaped bytes end in the CRC of those before. -/
def CrcRight (buffer : Memory UInt8) (received : List UInt8) : Prop :=
  ∃ payload, slipStuffing.unstuff (buffer received.length) received = payload ++ crcBytes payload

theorem subst_unsubst_iff {b : UInt8} :
    slipStuffing.subst (slipStuffing.unsubst b) = some b ↔ b = endSubsOctet ∨ b = escSubsOctet := by
  simp only [slipStuffing]
  by_cases hEnd : b = endSubsOctet
  · rw [if_pos hEnd, if_pos rfl, hEnd]
    exact iff_of_true rfl (.inl rfl)
  · have hApart : escSlipOctet ≠ endSlipOctet := by decide
    rw [if_neg hEnd, if_neg hApart, if_pos rfl, Option.some.injEq]
    constructor
    · exact fun hEsc => .inr hEsc.symm
    · exact fun h => (h.resolve_left hEnd).symm

theorem substituted_cons {a : UInt8} {xs : List UInt8} :
    Substituted (a :: xs) ↔
      (a = escSlipOctet → xs.head? = some endSubsOctet ∨ xs.head? = some escSubsOctet) ∧
        Substituted xs := by
  constructor
  · intro h
    refine ⟨?_, fun before rest hSplit => h (a :: before) rest (congrArg (a :: ·) hSplit)⟩
    rintro rfl
    exact h [] xs rfl
  · rintro ⟨hHead, hTail⟩ before rest hSplit
    cases before with
    | nil =>
      obtain ⟨rfl, rfl⟩ := List.cons.inj hSplit
      exact hHead rfl
    | cons c before =>
      obtain ⟨-, rfl⟩ := List.cons.inj hSplit
      exact hTail before rest rfl

theorem stuffed_iff_substituted {received : List UInt8} (hEnd : endSlipOctet ∉ received) :
    slipStuffing.Stuffed received ↔ Substituted received := by
  induction received using Stuffing.Stuffed.induct slipStuffing with
  | case1 => exact iff_of_true trivial fun before _ hSplit => absurd hSplit.symm (by simp)
  | case2 a =>
    rw [Stuffed, subst_eq_none_iff, substituted_cons]
    rw [List.mem_singleton] at hEnd
    constructor
    · intro hOrdinary
      refine ⟨fun hEsc => absurd (.inr hEsc) hOrdinary, ?_⟩
      exact fun before _ hSplit => absurd hSplit.symm (by simp)
    · rintro ⟨hHead, -⟩ (rfl | hEsc)
      · exact hEnd rfl
      · rcases hHead hEsc with h | h <;> cases h
  | case3 b xs ih =>
    have hOther : b = endSubsOctet ∨ b = escSubsOctet → b ≠ escSlipOctet := by
      rintro (rfl | rfl) <;> decide
    rw [Stuffed, if_pos rfl, subst_unsubst_iff, ih fun h => hEnd (by simp [h]), substituted_cons,
      substituted_cons, List.head?_cons, Option.some.injEq, Option.some.injEq]
    constructor
    · rintro ⟨hSubs, hRest⟩
      exact ⟨fun _ => hSubs, fun hEsc => absurd hEsc (hOther hSubs), hRest⟩
    · rintro ⟨hSubs, -, hRest⟩
      exact ⟨hSubs rfl, hRest⟩
  | case4 a b xs hOrdinary ih =>
    have hNotEnd : a ≠ endSlipOctet := fun h => hEnd (h ▸ List.mem_cons_self)
    rw [Stuffed, if_neg hOrdinary, subst_eq_none_iff, ih fun h => hEnd (List.mem_cons_of_mem _ h),
      substituted_cons (a := a)]
    constructor
    · rintro ⟨-, hRest⟩
      exact ⟨fun hEsc => absurd hEsc hOrdinary, hRest⟩
    · rintro ⟨-, hRest⟩
      exact ⟨not_or_intro hNotEnd hOrdinary, hRest⟩

section Received

variable {buffer : Memory UInt8} {received payload : List UInt8}

theorem exists_capacity (n : Nat) (h : n ≤ 253) : ∃ lenOut : UInt32, lenOut.toNat = 2 * n + 4 :=
  ⟨.ofNat (2 * n + 4), UInt32.toNat_ofNat_of_lt' (show 2 * n + 4 < 2 ^ 32 by omega)⟩

/-- What is received has the length of an encoding whose write position has not wrapped. -/
theorem Encodes.eq_escaped (h : Encodes payload received) (hLong : received.length ≤ 255)
    (hFits : payload.length + 2 ≤ received.length) :
    received = escaped (payload ++ crcBytes payload) := by
  obtain ⟨lenOut, hLenOut⟩ := exists_capacity payload.length (by omega)
  obtain ⟨hLength, hRead⟩ := h (fun _ => 0) lenOut (Nat.le_of_eq hLenOut.symm)
  have hEscaped : (escaped payload).length ≤ 2 * payload.length := slipStuffing.length_stuff_le _
  rcases Nat.lt_or_ge 255 (escaped payload).length with hWraps | hShort
  · have hAnnounced := slipEncode_long payload (fun _ => 0) lenOut (by omega) (by omega) hWraps
    omega
  · have hRoom := Nat.le_trans (length_escaped_crc_le payload) (Nat.le_of_eq hLenOut.symm)
    rw [slipEncode_short payload _ lenOut hRoom hShort] at hLength hRead
    have hSame : received.length = (escaped (payload ++ crcBytes payload)).length :=
      (Int.ofNat_inj.mp hLength).symm
    rw [← hRead, hSame]
    exact Memory.read_write _ 0 _

theorem encodes_escaped (hLong : (escaped (payload ++ crcBytes payload)).length ≤ 255) :
    Encodes payload (escaped (payload ++ crcBytes payload)) := by
  intro bufferOut lenOut hCapacity
  have hAppend : escaped (payload ++ crcBytes payload) = escaped payload ++ escaped (crcBytes payload) :=
    slipStuffing.stuff_append _ _
  have hShort : (escaped payload).length ≤ 255 := by
    rw [hAppend, List.length_append] at hLong
    omega
  rw [slipEncode_short payload bufferOut lenOut
    (Nat.le_trans (length_escaped_crc_le payload) hCapacity) hShort]
  exact ⟨rfl, Memory.read_write _ 0 _⟩

theorem turned_received (hLong : received.length ≤ 255) :
    turned (slipStuffing.unstuff (buffer received.length) received) =
      slipStuffing.unstuff (buffer received.length) received := by
  have hLength := length_unstuff_le (S := slipStuffing) (buffer received.length) received
  exact turned_short (by omega)

/-- What encodes a payload is received with it. -/
theorem Encodes.unstuff_eq (h : Encodes payload received) (hLong : received.length ≤ 255)
    (hFits : payload.length + 2 ≤ received.length) :
    slipStuffing.unstuff (buffer received.length) received = payload ++ crcBytes payload := by
  have hEscaped := h.eq_escaped hLong hFits
  conv_lhs => rw [hEscaped]
  exact unstuff_stuff _

variable (hMem : buffer.read 0 received.length = received) (hLong : received.length ≤ 255)

include hMem hLong

theorem leaves_of_correct
    (h : slipStuffing.unstuff (buffer received.length) received = payload ++ crcBytes payload) :
    Leaves buffer received payload :=
  slipDecode_of_correct hMem rfl ((turned_received hLong).trans h)

theorem crcRight_of_accepted (h : 0 ≤ (slipDecode buffer received.length).2) : CrcRight buffer received := by
  obtain ⟨payload, hCorrect⟩ := correct_of_slipDecode hMem rfl h
  exact ⟨payload, (turned_received hLong).symm.trans hCorrect⟩

omit hMem in
theorem encodes_iff_stuffed
    (h : slipStuffing.unstuff (buffer received.length) received = payload ++ crcBytes payload) :
    Encodes payload received ↔ slipStuffing.Stuffed received := by
  have hLength := length_unstuff_le (S := slipStuffing) (buffer received.length) received
  rw [h, List.length_append, length_crcBytes] at hLength
  have hStuffs := stuff_unstuff_iff (S := slipStuffing) (buffer received.length) received
  rw [← hStuffs, h]
  constructor
  · exact fun hEncodes => (hEncodes.eq_escaped hLong hLength).symm
  · intro hStuffed
    have hSame : escaped (payload ++ crcBytes payload) = received := hStuffed
    have hEncodes := encodes_escaped (hSame.symm ▸ hLong)
    rwa [hSame] at hEncodes

theorem substituted_of_acceptsExactly (hEnd : endSlipOctet ∉ received)
    (hAccepts : AcceptsExactly buffer received) (hCrc : CrcRight buffer received) : Substituted received := by
  obtain ⟨payload, hCorrect⟩ := hCrc
  have hLeaves := leaves_of_correct hMem hLong hCorrect
  rcases hAccepts with ⟨payload', hLeaves', hEncodes⟩ | ⟨hRejected, -⟩
  · have hSame : payload'.length = payload.length := Int.ofNat_inj.mp (hLeaves'.1.symm.trans hLeaves.1)
    obtain rfl : payload' = payload := by rw [← hLeaves.2, ← hLeaves'.2, hSame]
    exact (stuffed_iff_substituted hEnd).mp ((encodes_iff_stuffed hLong hCorrect).mp hEncodes)
  · rw [hLeaves.1] at hRejected
    omega

theorem acceptsExactly_of_crcWrong (hCrc : ¬ CrcRight buffer received) : AcceptsExactly buffer received := by
  refine .inr ⟨?_, fun payload hFits hEncodes => ?_⟩
  · by_contra hAccepted
    exact hCrc (crcRight_of_accepted hMem hLong (Int.not_lt.mp hAccepted))
  · exact hCrc ⟨payload, hEncodes.unstuff_eq hLong hFits⟩

end Received

/-- The decoder accepts just what is encoded, unless the CRC of the sequence is right and one of its
escapes is not followed by a substitution octet. -/
theorem acceptsExactly_iff {buffer : Memory UInt8} {received : List UInt8}
    (hMem : buffer.read 0 received.length = received) (hEnd : endSlipOctet ∉ received)
    (hLong : received.length ≤ 255) :
    AcceptsExactly buffer received ↔ (CrcRight buffer received → Substituted received) := by
  constructor
  · exact substituted_of_acceptsExactly hMem hLong hEnd
  · intro hSubstituted
    by_cases hCrc : CrcRight buffer received
    · have hStuffed := (stuffed_iff_substituted hEnd).mpr (hSubstituted hCrc)
      obtain ⟨payload, hCorrect⟩ := hCrc
      exact .inl ⟨payload, leaves_of_correct hMem hLong hCorrect,
        (encodes_iff_stuffed hLong hCorrect).mpr hStuffed⟩
    · exact acceptsExactly_of_crcWrong hMem hLong hCrc

/-- The bytes at the start of a memory that is zero behind them. -/
def holding (received : List UInt8) : Memory UInt8 := Memory.write (fun _ => 0) 0 received

theorem acceptsExactly_iff_escaped :
    AcceptsExactly (holding [0xDB, 0xDD, 0xE6, 0x9B]) [0xDB, 0xDD, 0xE6, 0x9B] ↔
      (CrcRight (holding [0xDB, 0xDD, 0xE6, 0x9B]) [0xDB, 0xDD, 0xE6, 0x9B] →
        Substituted [0xDB, 0xDD, 0xE6, 0x9B]) :=
  acceptsExactly_iff (Memory.read_write _ 0 _) (by decide) (by decide)

/-- The ESC before a zero is taken for an escaped ESC. -/
theorem esc_before_zero_accepted :
    ¬ ∀ (buffer : Memory UInt8) (received : List UInt8), endSlipOctet ∉ received → 4 ≤ received.length →
      received.length ≤ 255 → buffer.read 0 received.length = received → AcceptsExactly buffer received := by
  intro h
  have hMem : (holding [0xDB, 0x00, 0xE6, 0x9B]).read 0 4 = [0xDB, 0x00, 0xE6, 0x9B] :=
    Memory.read_write _ 0 _
  have hEnd : endSlipOctet ∉ [0xDB, 0x00, 0xE6, 0x9B] := by decide
  have hAccepts := h _ [0xDB, 0x00, 0xE6, 0x9B] hEnd (by decide) (by decide) hMem
  have hCrc : CrcRight (holding [0xDB, 0x00, 0xE6, 0x9B]) [0xDB, 0x00, 0xE6, 0x9B] :=
    ⟨[0xDB], by decide +kernel⟩
  have hSubstituted := substituted_of_acceptsExactly hMem (by decide) hEnd hAccepts hCrc
  exact absurd (hSubstituted [] [0x00, 0xE6, 0x9B] rfl) (by decide)

end CMeshApi.Slip
