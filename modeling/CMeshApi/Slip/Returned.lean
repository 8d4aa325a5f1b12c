import CMeshApi.Slip.Receive

/-!
# What the callers of `Slip_get_buffer` use

A decoded frame that is longer than the caller's buffer is not copied, but its size is
returned. `send_request_locked` and `handle_indication` of `wpc_internal.c` look at the
buffer with no other test of the size than its sign.
-/

namespace CMeshApi.Slip

open Stuffing

/-- Whatever follows the bytes, they are decoded to the payload and its CRC. -/
def Carries (bytes payload : List UInt8) : Prop :=
  ∀ next, slipStuffing.unstuff next bytes = payload ++ crcBytes payload

/-- The size of the caller's buffer, of a type whose size in bytes is known. -/
def sizeofFrame : UInt32 := .ofNat sizeofWpcFrame

def sizeofMaxFrame : UInt32 := .ofNat maxFrameSize

/-- How many bytes of the buffer the call with this result has written. -/
def copied (len : UInt32) (result : Int) : Nat :=
  if 0 < result ∧ result.toNat ≤ len.toNat then result.toNat else 0

/-- The bytes of the buffer that a round of `send_request_locked` uses: the primitive, the frame
id of a right primitive, and all that is copied to the confirm. -/
def confirmUses (primitiveId frameId : UInt8) (confirmSize : Int) (buffer : Memory UInt8) : List Nat :=
  if confirmSize < 0 then []
  else if (buffer 0).toNat ≠ primitiveId.toNat + sapConfirmOffset then [0]
  else if buffer 1 ≠ frameId then [0, 1]
  else [0, 1] ++ List.range confirmSize.toNat

def copiedToConfirm (primitiveId frameId : UInt8) (confirmSize : Int) (buffer : Memory UInt8) : Nat :=
  if confirmSize < 0 then 0
  else if (buffer 0).toNat ≠ primitiveId.toNat + sapConfirmOffset then 0
  else if buffer 1 ≠ frameId then 0
  else confirmSize.toNat

/-- `handle_indication` uses the status, the primitive and the frame id. -/
def indicationUses (res : Int) : List Nat := if res ≤ 0 then [] else [3, 0, 1]

inductive BufferUse where
  | slipGetBuffer (len : UInt32)
  | sendRequestLocked (primitiveId frameId : UInt8)
  | handleIndication
deriving DecidableEq, Repr

def BufferUse.len : BufferUse → UInt32
  | .slipGetBuffer len => len
  | .sendRequestLocked _ _ => sizeofMaxFrame
  | .handleIndication => sizeofFrame

def BufferUse.Right (line : List Reading) (got : Got) : BufferUse → Prop
  | .slipGetBuffer len => 0 < got.result → got.result.toNat ≤ len.toNat ∧
      ∃ bytes rest payload, (hear none line).frame = some (bytes, rest) ∧ Carries bytes payload ∧
        got.result = payload.length ∧ got.buffer.read 0 payload.length = payload
  | .sendRequestLocked primitiveId frameId =>
      (∀ i ∈ confirmUses primitiveId frameId got.result got.buffer, i < copied sizeofMaxFrame got.result) ∧
        copiedToConfirm primitiveId frameId got.result got.buffer ≤ sizeofWpcFrame
  | .handleIndication => (∀ i ∈ indicationUses got.result, i < copied sizeofFrame got.result) ∧
      copied sizeofFrame got.result ≤ sizeofWpcFrame

/-- Whatever the receiving buffer and the buffer of the caller held before. -/
def BufferUse.Sound (line : List Reading) (use : BufferUse) : Prop :=
  ∀ receivingBuffer buffer got, Slip.slipGetBuffer use.len receivingBuffer buffer line = some got →
    use.Right line got

/-- With some byte behind the frame, what is left of its decoded bytes in the 8 bits of their
number is the payload and its CRC. -/
def Passes (len : UInt32) (line : List Reading) (bytes payload : List UInt8) : Prop :=
  (hear none line).Fits (maxSizeEncodedBuffer len).toNat ∧
    (∃ rest, (hear none line).frame = some (bytes, rest)) ∧
      ∃ next, turned (slipStuffing.unstuff next bytes) = payload ++ crcBytes payload

/-- The result is the size of the payload, and the payload lies in the buffer if it was copied. -/
structure Got.Has (got : Got) (len : UInt32) (payload : List UInt8) : Prop where
  result : got.result = payload.length
  buffer : payload ≠ [] → payload.length ≤ len.toNat → got.buffer.read 0 payload.length = payload

section Passing

variable {len : UInt32} {line : List Reading} {bytes payload : List UInt8}
  {receivingBuffer buffer : Memory UInt8} {got : Got}

theorem slipDecode_has {mem : Memory UInt8} {next : UInt8} {rest : List Reading}
    (hMem : mem.read 0 bytes.length = bytes) (hNext : mem bytes.length = next)
    (hCorrect : turned (slipStuffing.unstuff next bytes) = payload ++ crcBytes payload) :
    Got.Has ⟨(slipDecode mem bytes.length).2, copyDecoded len buffer (slipDecode mem bytes.length), rest⟩
      len payload := by
  obtain ⟨hLength, hRead⟩ := slipDecode_of_correct hMem hNext hCorrect
  refine ⟨hLength, fun hSome hRoom => ?_⟩
  have hPos : 0 < payload.length := List.length_pos_of_ne_nil hSome
  have hCopied : copyDecoded len buffer (slipDecode mem bytes.length) = buffer.write 0 payload := by
    rw [copyDecoded, hLength, Int.toNat_natCast, if_pos ⟨by omega, hRoom⟩, hRead]
  dsimp only
  rw [hCopied]
  exact Memory.read_write buffer 0 payload

theorem passes_of_got (h : slipGetBuffer len receivingBuffer buffer line = some got)
    (hResult : 0 ≤ got.result) : ∃ bytes payload, Passes len line bytes payload ∧ got.Has len payload := by
  obtain ⟨hFits, bytes, rest, hFrame⟩ := frame_of_slipGetBuffer h hResult
  obtain ⟨mem, hMem, hNext, hGot⟩ := slipGetBuffer_of_frame hFits hFrame receivingBuffer buffer
  obtain rfl := Option.some.inj (h.symm.trans hGot)
  obtain ⟨payload, hCorrect⟩ := correct_of_slipDecode hMem hNext hResult
  exact ⟨bytes, payload, ⟨hFits, ⟨rest, hFrame⟩, _, hCorrect⟩, slipDecode_has hMem hNext hCorrect⟩

theorem Passes.received (h : Passes len line bytes payload) :
    ∃ receivingBuffer buffer got, slipGetBuffer len receivingBuffer buffer line = some got ∧
      got.Has len payload := by
  obtain ⟨hFits, ⟨rest, hFrame⟩, next, hCorrect⟩ := h
  obtain ⟨mem, hMem, hNext, hGot⟩ := slipGetBuffer_of_frame hFits hFrame (fun _ => next) fun _ => 0
  exact ⟨_, _, _, hGot, slipDecode_has hMem hNext hCorrect⟩

theorem Passes.length_lt (h : Passes len line bytes payload) : payload.length + 2 < 256 := by
  obtain ⟨-, -, next, hCorrect⟩ := h
  have hLength := congrArg List.length hCorrect
  rw [length_turned, List.length_append, length_crcBytes] at hLength
  omega

theorem Passes.carries (h : Passes len line bytes payload) (hPaired : slipStuffing.Paired bytes)
    (hShort : ∀ next, (slipStuffing.unstuff next bytes).length < 256) : Carries bytes payload := by
  obtain ⟨-, -, next, hCorrect⟩ := h
  rw [turned_short (hShort next)] at hCorrect
  exact fun next' => (hPaired.unstuff_eq next' next).trans hCorrect

end Passing

theorem Carries.paired {bytes payload : List UInt8} (h : Carries bytes payload) :
    slipStuffing.Paired bytes := by
  have hApart : slipStuffing.unsubst endSubsOctet ≠ slipStuffing.unsubst escSubsOctet := by decide
  exact paired_of_unstuff_eq hApart ((h _).trans (h _).symm)

/-- A frame that passes as an answer to the request. -/
def ConfirmFits (primitiveId frameId : UInt8) : List UInt8 → Prop
  | [] => False
  | [p] => p.toNat ≠ primitiveId.toNat + sapConfirmOffset
  | p :: f :: payload => payload.length + 2 ≤ maxFrameSize ∧
      (p.toNat = primitiveId.toNat + sapConfirmOffset ∧ f = frameId → payload.length + 2 ≤ sizeofWpcFrame)

/-- What the frame and the payload that passes in it must be for the use to be right. -/
def BufferUse.Covers (bytes payload : List UInt8) : BufferUse → Prop
  | .slipGetBuffer len => payload ≠ [] → slipStuffing.Paired bytes ∧
      (∀ next, (slipStuffing.unstuff next bytes).length < 256) ∧ payload.length ≤ len.toNat
  | .sendRequestLocked primitiveId frameId => ConfirmFits primitiveId frameId payload
  | .handleIndication => payload = [] ∨ (4 ≤ payload.length ∧ payload.length ≤ sizeofWpcFrame)

def BufferUse.Covered (line : List Reading) (use : BufferUse) : Prop :=
  ∀ bytes payload, Passes use.len line bytes payload → use.Covers bytes payload

theorem right_of_negative {line : List Reading} {got : Got} (use : BufferUse) (h : got.result < 0) :
    use.Right line got := by
  have hNone : ∀ len, copied len got.result = 0 := fun len => if_neg fun hCopied => by omega
  cases use with
  | slipGetBuffer len => exact fun hPos => absurd hPos (by omega)
  | sendRequestLocked primitiveId frameId =>
    refine ⟨?_, ?_⟩
    · rw [confirmUses, if_pos h]
      exact nofun
    · rw [copiedToConfirm, if_pos h]
      exact Nat.zero_le _
  | handleIndication =>
    refine ⟨?_, ?_⟩
    · rw [indicationUses, if_pos (by omega)]
      exact nofun
    · rw [hNone]
      exact Nat.zero_le _

theorem copied_of_has {len : UInt32} {got : Got} {payload : List UInt8} (h : got.Has len payload) :
    copied len got.result = if payload.length ≤ len.toNat then payload.length else 0 := by
  rw [copied, h.result, Int.toNat_natCast]
  split
  · next hCopied => rw [if_pos hCopied.2]
  · next hNone =>
    split
    · next hRoom =>
      refine (Nat.le_zero.mp (Nat.not_lt.mp fun hSome => hNone ⟨?_, hRoom⟩)).symm
      omega
    · rfl

theorem Got.Has.cell {len : UInt32} {got : Got} {payload : List UInt8} (h : got.Has len payload)
    (hRoom : payload.length ≤ len.toNat) {k : Nat} (hk : k < payload.length) :
    got.buffer k = payload[k] := by
  have hSome : payload ≠ [] := List.ne_nil_of_length_pos (by omega)
  rw [← Memory.read_eq_iff.mp (h.buffer hSome hRoom) k hk, Int.zero_add]

section Uses

variable (primitiveId frameId : UInt8) {n : Nat} {buffer : Memory UInt8}

theorem zero_mem_confirmUses (primitiveId frameId : UInt8) (n : Nat) (buffer : Memory UInt8) :
    0 ∈ confirmUses primitiveId frameId n buffer := by
  rw [confirmUses, if_neg (Int.not_lt.mpr (Int.natCast_nonneg n))]
  split
  · exact List.mem_cons_self
  · split
    · exact List.mem_cons_self
    · exact List.mem_cons_self

theorem one_mem_confirmUses (hRight : (buffer 0).toNat = primitiveId.toNat + sapConfirmOffset) :
    1 ∈ confirmUses primitiveId frameId n buffer := by
  rw [confirmUses, if_neg (Int.not_lt.mpr (Int.natCast_nonneg n)), if_neg (not_not_intro hRight)]
  split
  · exact List.mem_cons_of_mem _ List.mem_cons_self
  · exact List.mem_cons_of_mem _ List.mem_cons_self

theorem confirmUses_lt (buffer : Memory UInt8) (hTwo : 2 ≤ n) :
    ∀ i ∈ confirmUses primitiveId frameId n buffer, i < n := by
  have hFront : ∀ i ∈ [0, 1], i < n := fun i hi => by
    have hOne : i ≤ 1 := (show ∀ i ∈ [0, 1], i ≤ 1 by decide) i hi
    omega
  rw [confirmUses, if_neg (Int.not_lt.mpr (Int.natCast_nonneg n))]
  split
  · exact fun i hi => hFront i (List.mem_singleton.mp hi ▸ List.mem_cons_self)
  · split
    · exact hFront
    · intro i hi
      rcases List.mem_append.mp hi with hi | hi
      · exact hFront i hi
      · rw [Int.toNat_natCast] at hi
        exact List.mem_range.mp hi

theorem copiedToConfirm_le_iff (n : Nat) (buffer : Memory UInt8) :
    copiedToConfirm primitiveId frameId n buffer ≤ sizeofWpcFrame ↔
      ((buffer 0).toNat = primitiveId.toNat + sapConfirmOffset ∧ buffer 1 = frameId → n ≤ sizeofWpcFrame) := by
  rw [copiedToConfirm, if_neg (Int.not_lt.mpr (Int.natCast_nonneg n))]
  split
  · next hWrong => exact iff_of_true (Nat.zero_le _) fun hMatch => absurd hMatch.1 hWrong
  · next hRight =>
    split
    · next hOther => exact iff_of_true (Nat.zero_le _) fun hMatch => absurd hMatch.2 hOther
    · next hSame =>
      rw [Int.toNat_natCast]
      exact ⟨fun hFits _ => hFits, fun hFits => hFits ⟨not_not.mp hRight, not_not.mp hSame⟩⟩

end Uses

section Right

variable {line : List Reading} {got : Got} {bytes payload : List UInt8}

theorem right_slipGetBuffer_iff {len : UInt32} (hPasses : Passes len line bytes payload)
    (hHas : got.Has len payload) :
    (BufferUse.slipGetBuffer len).Right line got ↔ (BufferUse.slipGetBuffer len).Covers bytes payload := by
  rw [BufferUse.Right, BufferUse.Covers, hHas.result, Int.toNat_natCast]
  constructor
  · intro hRight hSome
    have hPos : 0 < payload.length := List.length_pos_of_ne_nil hSome
    obtain ⟨hRoom, bytes', rest', payload', hFrame', hCarries, hLength, hBuffer⟩ := hRight (by omega)
    obtain ⟨rest, hFrame⟩ := hPasses.2.1
    obtain ⟨rfl, -⟩ := Prod.mk.inj (Option.some.inj (hFrame.symm.trans hFrame'))
    refine ⟨hCarries.paired, fun next => ?_, hRoom⟩
    have hShort := hPasses.length_lt
    rw [hCarries next, List.length_append, length_crcBytes]
    omega
  · intro hCovers hPos
    have hSome : payload ≠ [] := List.ne_nil_of_length_pos (by omega)
    obtain ⟨hPaired, hShort, hRoom⟩ := hCovers hSome
    obtain ⟨rest, hFrame⟩ := hPasses.2.1
    exact ⟨hRoom, bytes, rest, payload, hFrame, hPasses.carries hPaired hShort, rfl,
      hHas.buffer hSome hRoom⟩

theorem right_sendRequestLocked_iff {primitiveId frameId : UInt8} (hHas : got.Has sizeofMaxFrame payload) :
    (BufferUse.sendRequestLocked primitiveId frameId).Right line got ↔
      ConfirmFits primitiveId frameId payload := by
  have hCell : payload.length ≤ maxFrameSize → ∀ k (hk : k < payload.length), got.buffer k = payload[k] :=
    fun hRoom k hk => hHas.cell hRoom hk
  have hSize : sizeofMaxFrame.toNat = maxFrameSize := rfl
  rw [BufferUse.Right, copied_of_has hHas, hSize, hHas.result]
  cases payload with
  | nil =>
    refine iff_of_false ?_ id
    rintro ⟨hUses, -⟩
    exact Nat.not_lt_zero 0 (hUses 0 (zero_mem_confirmUses _ _ _ _))
  | cons p payload =>
    cases payload with
    | nil =>
      have hOne : 1 ≤ maxFrameSize := by decide
      have hFirst : got.buffer 0 = p := hCell hOne 0 Nat.one_pos
      rw [List.length_singleton, if_pos hOne, ConfirmFits]
      constructor
      · rintro ⟨hUses, -⟩ hRight
        exact absurd (hUses 1 (one_mem_confirmUses _ _ (hFirst ▸ hRight))) (Nat.lt_irrefl 1)
      · intro hWrong
        rw [confirmUses, copiedToConfirm, if_neg (by decide), hFirst, if_pos hWrong, if_neg (by decide),
          if_pos hWrong]
        exact ⟨fun i hi => List.mem_singleton.mp hi ▸ Nat.one_pos, Nat.zero_le _⟩
    | cons f payload =>
      rw [List.length_cons, List.length_cons, ConfirmFits]
      by_cases hRoom : payload.length + 2 ≤ maxFrameSize
      · have hFirst : got.buffer 0 = p := hCell hRoom 0 (Nat.succ_pos _)
        have hSecond : got.buffer 1 = f := hCell hRoom 1 (Nat.succ_lt_succ (Nat.succ_pos _))
        rw [if_pos hRoom, and_iff_right (confirmUses_lt _ _ _ (Nat.le_add_left 2 _)),
          and_iff_right hRoom, ← hFirst, ← hSecond]
        exact copiedToConfirm_le_iff _ _ _ _
      · rw [if_neg hRoom]
        refine iff_of_false ?_ fun hFits => hRoom hFits.1
        rintro ⟨hUses, -⟩
        exact Nat.not_lt_zero 0 (hUses 0 (zero_mem_confirmUses _ _ _ _))

theorem right_handleIndication_iff (hHas : got.Has sizeofFrame payload) :
    BufferUse.handleIndication.Right line got ↔ BufferUse.handleIndication.Covers bytes payload := by
  have hSize : sizeofFrame.toNat = sizeofWpcFrame := rfl
  rw [BufferUse.Right, BufferUse.Covers, copied_of_has hHas, hSize, hHas.result, indicationUses]
  cases payload with
  | nil =>
    refine iff_of_true ⟨?_, Nat.zero_le _⟩ (.inl rfl)
    have hNone : ((0 : Nat) : Int) ≤ 0 := Int.le_refl 0
    rw [List.length_nil, if_pos hNone]
    exact nofun
  | cons b payload =>
    have hUsed : ¬ (((b :: payload).length : Nat) : Int) ≤ 0 := by
      rw [List.length_cons]
      omega
    have hSome : b :: payload ≠ [] := nofun
    rw [if_neg hUsed, or_iff_right hSome]
    by_cases hRoom : (b :: payload).length ≤ sizeofWpcFrame
    · rw [if_pos hRoom, and_iff_left hRoom, and_iff_left hRoom]
      constructor
      · exact fun hUses => hUses 3 List.mem_cons_self
      · intro hFour i hi
        have hThree : i ≤ 3 := (show ∀ i ∈ [3, 0, 1], i ≤ 3 by decide) i hi
        omega
    · rw [if_neg hRoom]
      refine iff_of_false ?_ fun hFits => hRoom hFits.2
      rintro ⟨hUses, -⟩
      exact Nat.not_lt_zero 3 (hUses 3 List.mem_cons_self)

end Right

theorem right_iff {line : List Reading} {got : Got} {bytes payload : List UInt8} (use : BufferUse)
    (hPasses : Passes use.len line bytes payload) (hHas : got.Has use.len payload) :
    use.Right line got ↔ use.Covers bytes payload := by
  cases use with
  | slipGetBuffer len => exact right_slipGetBuffer_iff hPasses hHas
  | sendRequestLocked primitiveId frameId => exact right_sendRequestLocked_iff hHas
  | handleIndication => exact right_handleIndication_iff hHas

theorem sound_iff_covered (line : List Reading) (use : BufferUse) :
    use.Sound line ↔ use.Covered line := by
  constructor
  · intro hSound bytes payload hPasses
    obtain ⟨receivingBuffer, buffer, got, hGot, hHas⟩ := hPasses.received
    exact (right_iff use hPasses hHas).mp (hSound _ _ got hGot)
  · intro hCovered receivingBuffer buffer got hGot
    rcases Int.lt_or_le got.result 0 with hNegative | hResult
    · exact right_of_negative use hNegative
    · obtain ⟨bytes, payload, hPasses, hHas⟩ := passes_of_got hGot hResult
      exact (right_iff use hPasses hHas).mpr (hCovered bytes payload hPasses)

def longPayload : List UInt8 := List.replicate 205 0

def longFrame : List Reading :=
  (endSlipOctet :: longPayload ++ crcBytes longPayload ++ [endSlipOctet]).map (Reading.mk 1)

/-- A payload that is one byte longer than a `wpc_frame_t`. -/
theorem passes_longFrame :
    Passes sizeofFrame longFrame (longPayload ++ crcBytes longPayload) longPayload :=
  ⟨by decide +kernel, ⟨[], by decide +kernel⟩, 0, by decide +kernel⟩

theorem longFrame_not_sound : ¬ (BufferUse.slipGetBuffer sizeofFrame).Sound longFrame ∧
    ¬ BufferUse.handleIndication.Sound longFrame := by
  obtain ⟨receivingBuffer, buffer, got, hGot, hHas⟩ := passes_longFrame.received
  have hLong : ¬ longPayload.length ≤ sizeofFrame.toNat := by decide +kernel
  constructor
  · intro hSound
    have hCovers := (right_iff (.slipGetBuffer sizeofFrame) passes_longFrame hHas).mp (hSound _ _ got hGot)
    exact hLong (hCovers (List.cons_ne_nil _ _)).2.2
  · intro hSound
    rcases (right_iff .handleIndication passes_longFrame hHas).mp (hSound _ _ got hGot) with hEmpty | hShort
    · exact absurd hEmpty (List.cons_ne_nil _ _)
    · exact hLong hShort.2

end CMeshApi.Slip
