import CMeshApi.Slip.Decoding

/-!
# Receiving a frame

`Slip_get_buffer` of `slip.c`. It is given what `read_function` returns, one reading after
the other, and takes the first run of at least four bytes between two END octets. Its
receiving buffer is on the stack and holds anything before.
-/

namespace CMeshApi.Slip

/-- The result of `read_function`, and the byte that it reads if the result is 1. -/
structure Reading where
  res : Int
  read : UInt8
deriving DecidableEq, Repr

/-- `MAX_SIZE_ENCODED_BUFFER`, in the `uint32_t` of the length. -/
def maxSizeEncodedBuffer (initialLen : UInt32) : UInt32 := (initialLen <<< 1) + 2 + 4

theorem toNat_maxSizeEncodedBuffer {initialLen : UInt32} (h : initialLen.toNat < 2 ^ 31 - 3) :
    (maxSizeEncodedBuffer initialLen).toNat = 2 * initialLen.toNat + 6 := by
  have hShift : (initialLen <<< 1).toNat = 2 * initialLen.toNat := by
    rw [UInt32.toNat_shiftLeft]
    simp only [UInt32.reduceToNat, Nat.shiftLeft_eq, Nat.reduceMod, Nat.reducePow]
    omega
  rw [maxSizeEncodedBuffer, UInt32.toNat_add, UInt32.toNat_add, hShift]
  simp only [UInt32.reduceToNat]
  omega

/-- The local variables of the loop. -/
structure Receiving where
  startOfFrameDetected : Bool
  size : Nat
  receivingBuffer : Memory UInt8

inductive Round where
  | more (r : Receiving)
  | giveUp (code : Int)
  | frame (r : Receiving)

/-- The byte is stored before its place is compared with the size of the buffer. -/
def Receiving.append (r : Receiving) (read : UInt8) : Receiving where
  startOfFrameDetected := r.startOfFrameDetected
  size := r.size + 1
  receivingBuffer := r.receivingBuffer.store r.size read

def receiveRound (sizeofBuffer : Nat) (r : Receiving) (x : Reading) : Round :=
  if x.res = 0 then .giveUp wpcIntTimeoutError
  else if x.res < 0 ∨ 1 < x.res then .more r
  else if x.read = endSlipOctet then
    if r.startOfFrameDetected then
      -- too few bytes were probably a wrong frame, and this END opens the next one
      if r.size < 4 then .more { r with size := 0 } else .frame r
    else .more { r with startOfFrameDetected := true }
  else if r.startOfFrameDetected then
    if sizeofBuffer < (r.append x.read).size then .giveUp wpcIntGenError else .more (r.append x.read)
  else .more r

/-- `none` while the loop still waits when the line ends. -/
def receiveLoop (sizeofBuffer : Nat) : Receiving → List Reading → Option ((Int ⊕ Receiving) × List Reading)
  | _, [] => none
  | r, x :: line =>
    match receiveRound sizeofBuffer r x with
    | .more r => receiveLoop sizeofBuffer r line
    | .giveUp code => some (.inl code, line)
    | .frame r => some (.inr r, line)

/-- The result, the buffer of the caller, and what is left of the line. -/
structure Got where
  result : Int
  buffer : Memory UInt8
  rest : List Reading

def copyDecoded (len : UInt32) (buffer : Memory UInt8) : Memory UInt8 × Int → Memory UInt8
  | (receivingBuffer, decodedSize) =>
    if 0 < decodedSize ∧ decodedSize.toNat ≤ len.toNat then
      buffer.write 0 (receivingBuffer.read 0 decodedSize.toNat)
    else buffer

def slipGetBuffer (len : UInt32) (receivingBuffer buffer : Memory UInt8) (line : List Reading) :
    Option Got :=
  match receiveLoop (maxSizeEncodedBuffer len).toNat ⟨false, 0, receivingBuffer⟩ line with
  | none => none
  | some (.inl code, rest) => some ⟨code, buffer, rest⟩
  | some (.inr r, rest) =>
    let decoded := slipDecode r.receivingBuffer r.size
    some ⟨decoded.2, copyDecoded len buffer decoded, rest⟩

/-- The runs of bytes without an END, behind the first END and up to the one that is taken
for a frame, which comes with what is left of the line. -/
structure Heard where
  runs : List (List UInt8)
  frame : Option (List UInt8 × List Reading)

/-- What is heard behind a run that has begun, or before the first END. -/
def hear : Option (List UInt8) → List Reading → Heard
  | none, [] => ⟨[], none⟩
  | none, x :: line =>
    if x.res = 0 then ⟨[], none⟩
    else if x.res < 0 ∨ 1 < x.res then hear none line
    else if x.read = endSlipOctet then hear (some []) line
    else hear none line
  | some run, [] => ⟨[run], none⟩
  | some run, x :: line =>
    if x.res = 0 then ⟨[run], none⟩
    else if x.res < 0 ∨ 1 < x.res then hear (some run) line
    else if x.read = endSlipOctet then
      if run.length < 4 then ⟨run :: (hear (some []) line).runs, (hear (some []) line).frame⟩
      else ⟨[run], some (run, line)⟩
    else hear (some (run ++ [x.read])) line

/-- The receiving buffer has room for all of them. -/
def Heard.Fits (h : Heard) (sizeofBuffer : Nat) : Prop := ∀ run ∈ h.runs, run.length ≤ sizeofBuffer

instance (h : Heard) (sizeofBuffer : Nat) : Decidable (h.Fits sizeofBuffer) :=
  inferInstanceAs (Decidable (∀ run ∈ h.runs, _))

theorem Heard.fits_cons_iff {heard : Heard} {bytes : List UInt8} {sizeofBuffer : Nat}
    (h : bytes.length ≤ sizeofBuffer) :
    Heard.Fits ⟨bytes :: heard.runs, heard.frame⟩ sizeofBuffer ↔ heard.Fits sizeofBuffer :=
  List.forall_mem_cons.trans (and_iff_right h)

/-- The state of the loop that has heard the run. Behind it the buffer is as it was before,
but for the three bytes of a run that was too short. -/
structure Hears (before : Memory UInt8) (run : Option (List UInt8)) (r : Receiving) : Prop where
  started : r.startOfFrameDetected = run.isSome
  size : r.size = (run.getD []).length
  content : r.receivingBuffer.read 0 (run.getD []).length = run.getD []
  behind : ∀ i : Nat, r.size ≤ i → 3 ≤ i → r.receivingBuffer i = before i

variable {before : Memory UInt8} {run : Option (List UInt8)} {r : Receiving} {sizeofBuffer : Nat}
  {line : List Reading}

theorem hears_start (before : Memory UInt8) : Hears before none ⟨false, 0, before⟩ :=
  ⟨rfl, rfl, rfl, fun _ _ _ => rfl⟩

theorem Hears.open (h : Hears before none r) :
    Hears before (some []) { r with startOfFrameDetected := true } :=
  ⟨rfl, h.size, rfl, h.behind⟩

theorem Hears.reopen {bytes : List UInt8} (h : Hears before (some bytes) r) (hShort : bytes.length < 4) :
    Hears before (some []) ⟨true, 0, r.receivingBuffer⟩ := by
  refine ⟨rfl, rfl, rfl, fun i _ hThree => h.behind i ?_ hThree⟩
  have hSize : r.size = bytes.length := h.size
  omega

theorem Hears.append {bytes : List UInt8} (h : Hears before (some bytes) r) (read : UInt8) :
    Hears before (some (bytes ++ [read])) (r.append read) := by
  have hSize : r.size = bytes.length := h.size
  have hContent : r.receivingBuffer.read 0 bytes.length = bytes := h.content
  constructor
  case started => exact h.started
  case size =>
    rw [Option.getD_some, List.length_append]
    exact congrArg Nat.succ hSize
  case content =>
    rw [Option.getD_some, List.length_append, List.length_singleton, Memory.read_add, Int.zero_add]
    have hBefore : (r.append read).receivingBuffer.read 0 bytes.length = bytes := by
      rw [← hContent, Memory.length_read]
      exact Memory.read_congr fun k hk => Memory.store_other _ _ _ (by omega)
    have hLast : (r.append read).receivingBuffer.read bytes.length 1 = [read] := by
      rw [← hSize, Memory.read_succ]
      exact congrArg (fun a => [a]) (Memory.store_same _ _ _)
    rw [hBefore, hLast]
  case behind =>
    intro i hi hThree
    have hBehind : r.size + 1 ≤ i := hi
    have hOther : (i : Int) ≠ r.size := by omega
    exact (Memory.store_other _ _ _ hOther).trans (h.behind i (by omega) hThree)

theorem exists_run (bytes : List UInt8) (line : List Reading) :
    ∃ run ∈ (hear (some bytes) line).runs, bytes.length ≤ run.length := by
  induction line generalizing bytes with
  | nil => exact ⟨bytes, List.mem_singleton_self _, Nat.le_refl _⟩
  | cons x line ih =>
    rw [hear]
    split
    · exact ⟨bytes, List.mem_singleton_self _, Nat.le_refl _⟩
    · split
      · exact ih bytes
      · split
        · split
          · exact ⟨bytes, List.mem_cons_self, Nat.le_refl _⟩
          · exact ⟨bytes, List.mem_singleton_self _, Nat.le_refl _⟩
        · obtain ⟨run, hRun, hLength⟩ := ih (bytes ++ [x.read])
          rw [List.length_append] at hLength
          exact ⟨run, hRun, Nat.le_of_add_right_le hLength⟩

/-- A run that is too long is among the runs that are heard. -/
theorem not_fits_of_overflow {bytes : List UInt8} (hFull : sizeofBuffer < bytes.length) :
    ¬ (hear (some bytes) line).Fits sizeofBuffer := by
  intro hFits
  obtain ⟨run, hMem, hLength⟩ := exists_run bytes line
  exact absurd (hFits run hMem) (by omega)

theorem Heard.fits_toList {frame : Option (List UInt8 × List Reading)}
    (hRun : (run.getD []).length ≤ sizeofBuffer) : Heard.Fits ⟨run.toList, frame⟩ sizeofBuffer := by
  intro bytes hMem
  rw [Option.mem_toList] at hMem
  rw [hMem] at hRun
  exact hRun

/-- What a reading does to the loop behind a run, and to what is heard from it on. -/
inductive Hearing (sizeofBuffer : Nat) (r : Receiving) (line : List Reading) :
    Option (List UInt8) → Reading → Round → Heard → Prop
  | timeout (run : Option (List UInt8)) (read : UInt8) :
      Hearing sizeofBuffer r line run ⟨0, read⟩ (.giveUp wpcIntTimeoutError) ⟨run.toList, none⟩
  | error (run : Option (List UInt8)) {x : Reading} (hZero : x.res ≠ 0) (h : x.res < 0 ∨ 1 < x.res) :
      Hearing sizeofBuffer r line run x (.more r) (hear run line)
  | noise {read : UInt8} (h : read ≠ endSlipOctet) :
      Hearing sizeofBuffer r line none ⟨1, read⟩ (.more r) (hear none line)
  | opening :
      Hearing sizeofBuffer r line none ⟨1, endSlipOctet⟩ (.more ⟨true, r.size, r.receivingBuffer⟩)
        (hear (some []) line)
  | reopening {bytes : List UInt8} (hShort : bytes.length < 4) :
      Hearing sizeofBuffer r line (some bytes) ⟨1, endSlipOctet⟩ (.more ⟨true, 0, r.receivingBuffer⟩)
        ⟨bytes :: (hear (some []) line).runs, (hear (some []) line).frame⟩
  | closing {bytes : List UInt8} (hLong : 4 ≤ bytes.length) :
      Hearing sizeofBuffer r line (some bytes) ⟨1, endSlipOctet⟩ (.frame r) ⟨[bytes], some (bytes, line)⟩
  | overflow {bytes : List UInt8} {read : UInt8} (h : read ≠ endSlipOctet)
      (hFull : sizeofBuffer < (bytes ++ [read]).length) :
      Hearing sizeofBuffer r line (some bytes) ⟨1, read⟩ (.giveUp wpcIntGenError)
        (hear (some (bytes ++ [read])) line)
  | byte {bytes : List UInt8} {read : UInt8} (h : read ≠ endSlipOctet)
      (hRoom : (bytes ++ [read]).length ≤ sizeofBuffer) :
      Hearing sizeofBuffer r line (some bytes) ⟨1, read⟩ (.more (r.append read))
        (hear (some (bytes ++ [read])) line)

theorem Hears.hearing (h : Hears before run r) (sizeofBuffer : Nat) (x : Reading) (line : List Reading) :
    Hearing sizeofBuffer r line run x (receiveRound sizeofBuffer r x) (hear run (x :: line)) := by
  obtain ⟨res, read⟩ := x
  rw [receiveRound, h.started]
  by_cases hTimeout : res = 0
  · subst hTimeout
    cases run with
    | none => exact .timeout none read
    | some bytes => exact .timeout (some bytes) read
  by_cases hError : res < 0 ∨ 1 < res
  · have hHear : hear run (⟨res, read⟩ :: line) = hear run line := by
      cases run with
      | none => rw [hear, if_neg hTimeout, if_pos hError]
      | some bytes => rw [hear, if_neg hTimeout, if_pos hError]
    rw [if_neg hTimeout, if_pos hError, hHear]
    exact .error run hTimeout hError
  obtain rfl : res = 1 := by omega
  rw [if_neg hTimeout, if_neg hError]
  cases run with
  | none =>
    rw [hear, if_neg hTimeout, if_neg hError]
    by_cases hEnd : read = endSlipOctet
    · subst hEnd
      exact .opening
    · rw [if_neg hEnd, if_neg hEnd]
      exact .noise hEnd
  | some bytes =>
    have hSize : r.size = bytes.length := h.size
    have hNext : (r.append read).size = (bytes ++ [read]).length := (h.append read).size
    rw [hear, if_neg hTimeout, if_neg hError, Option.isSome_some, if_pos rfl, if_pos rfl, hSize, hNext]
    by_cases hEnd : read = endSlipOctet
    · subst hEnd
      by_cases hShort : bytes.length < 4
      · rw [if_pos rfl, if_pos rfl, if_pos hShort, if_pos hShort]
        exact .reopening hShort
      · rw [if_pos rfl, if_pos rfl, if_neg hShort, if_neg hShort]
        exact .closing (Nat.not_lt.mp hShort)
    · rw [if_neg hEnd, if_neg hEnd]
      by_cases hFull : sizeofBuffer < (bytes ++ [read]).length
      · rw [if_pos hFull]
        exact .overflow hEnd hFull
      · rw [if_neg hFull]
        exact .byte hEnd (Nat.not_lt.mp hFull)

/-- The loop has taken the frame that is heard, or there is none that its buffer has room for. -/
def TakesFrame (before : Memory UInt8) (sizeofBuffer : Nat) (heard : Heard)
    (taken : Option ((Int ⊕ Receiving) × List Reading)) : Prop :=
  (heard.Fits sizeofBuffer ∧ ∃ bytes rest r, heard.frame = some (bytes, rest) ∧
      taken = some (.inr r, rest) ∧ Hears before (some bytes) r) ∨
    (¬ (heard.Fits sizeofBuffer ∧ heard.frame.isSome) ∧ ∀ r rest, taken ≠ some (.inr r, rest))

theorem takesFrame_none {runs : List (List UInt8)} {taken : Option ((Int ⊕ Receiving) × List Reading)}
    (h : ∀ r rest, taken ≠ some (.inr r, rest)) : TakesFrame before sizeofBuffer ⟨runs, none⟩ taken :=
  .inr ⟨fun hHeard => Bool.noConfusion hHeard.2, h⟩

theorem TakesFrame.behind {heard : Heard} {taken : Option ((Int ⊕ Receiving) × List Reading)}
    {bytes : List UInt8} (h : TakesFrame before sizeofBuffer heard taken)
    (hRun : bytes.length ≤ sizeofBuffer) :
    TakesFrame before sizeofBuffer ⟨bytes :: heard.runs, heard.frame⟩ taken := by
  unfold TakesFrame
  rw [Heard.fits_cons_iff hRun]
  exact h

theorem receiveLoop_takesFrame (line : List Reading) (h : Hears before run r) (hRun : (run.getD []).length ≤ sizeofBuffer) :
    TakesFrame before sizeofBuffer (hear run line) (receiveLoop sizeofBuffer r line) := by
  induction line generalizing run r with
  | nil =>
    cases run with
    | none => exact takesFrame_none nofun
    | some bytes => exact takesFrame_none nofun
  | cons x line ih =>
    have hHearing := h.hearing sizeofBuffer x line
    rw [receiveLoop]
    generalize receiveRound sizeofBuffer r x = round at hHearing ⊢
    generalize hear run (x :: line) = heard at hHearing ⊢
    cases hHearing with
    | timeout => exact takesFrame_none nofun
    | error => exact ih h hRun
    | noise => exact ih h hRun
    | opening => exact ih h.open (Nat.zero_le _)
    | @reopening bytes hShort =>
      have hBytes : bytes.length ≤ sizeofBuffer := hRun
      exact (ih (h.reopen hShort) (Nat.zero_le _)).behind hBytes
    | closing => exact .inl ⟨Heard.fits_toList hRun, _, line, r, rfl, rfl, h⟩
    | overflow _ hFull => exact .inr ⟨fun hTaken => not_fits_of_overflow hFull hTaken.1, nofun⟩
    | byte _ hRoom => exact ih (h.append _) hRoom

theorem receiveRound_code {x : Reading} {code : Int} (h : receiveRound sizeofBuffer r x = .giveUp code) :
    code < 0 := by
  unfold receiveRound at h
  split at h
  · cases h
    decide
  · split at h
    · cases h
    · split at h
      · split at h
        · split at h
          · cases h
          · cases h
        · cases h
      · split at h
        · split at h
          · cases h
            decide
          · cases h
        · cases h

theorem receiveLoop_code {code : Int} {rest : List Reading}
    (h : receiveLoop sizeofBuffer r line = some (.inl code, rest)) : code < 0 := by
  induction line generalizing r with
  | nil => cases h
  | cons x line ih =>
    rw [receiveLoop] at h
    split at h
    · exact ih h
    · next hRound =>
      cases h
      exact receiveRound_code hRound
    · cases h

theorem frame_length {bytes : List UInt8} {rest : List Reading}
    (h : (hear run line).frame = some (bytes, rest)) : 4 ≤ bytes.length := by
  fun_induction hear run line with
  | case1 => cases h
  | case2 => cases h
  | case3 _ _ _ _ ih => exact ih h
  | case4 _ _ _ _ _ ih => exact ih h
  | case5 _ _ _ _ _ ih => exact ih h
  | case6 => cases h
  | case7 => cases h
  | case8 _ _ _ _ _ ih => exact ih h
  | case9 _ _ _ _ _ _ _ ih => exact ih h
  | case10 _ _ _ _ _ _ hLong =>
    obtain ⟨rfl, -⟩ := Prod.mk.inj (Option.some.inj h)
    exact Nat.not_lt.mp hLong
  | case11 _ _ _ _ _ _ ih => exact ih h

theorem frame_mem_runs {bytes : List UInt8} {rest : List Reading}
    (h : (hear run line).frame = some (bytes, rest)) : bytes ∈ (hear run line).runs := by
  fun_induction hear run line with
  | case1 => cases h
  | case2 => cases h
  | case3 _ _ _ _ ih => exact ih h
  | case4 _ _ _ _ _ ih => exact ih h
  | case5 _ _ _ _ _ ih => exact ih h
  | case6 => cases h
  | case7 => cases h
  | case8 _ _ _ _ _ ih => exact ih h
  | case9 _ _ _ _ _ _ _ ih => exact List.mem_cons_of_mem _ (ih h)
  | case10 =>
    obtain ⟨rfl, -⟩ := Prod.mk.inj (Option.some.inj h)
    exact List.mem_singleton_self _
  | case11 _ _ _ _ _ _ ih => exact ih h

section Call

variable {len : UInt32} {receivingBuffer buffer : Memory UInt8} {bytes payload : List UInt8}
  {rest : List Reading} {got : Got}

/-- The frame lies in the receiving buffer, and behind it what was there before. -/
theorem slipGetBuffer_of_frame (hFits : (hear none line).Fits (maxSizeEncodedBuffer len).toNat)
    (hFrame : (hear none line).frame = some (bytes, rest)) (receivingBuffer buffer : Memory UInt8) :
    ∃ mem : Memory UInt8, mem.read 0 bytes.length = bytes ∧
      mem bytes.length = receivingBuffer bytes.length ∧
      slipGetBuffer len receivingBuffer buffer line =
        some ⟨(slipDecode mem bytes.length).2, copyDecoded len buffer (slipDecode mem bytes.length), rest⟩ := by
  have hTaken := receiveLoop_takesFrame line (hears_start receivingBuffer)
    (Nat.zero_le (maxSizeEncodedBuffer len).toNat)
  rcases hTaken with ⟨-, bytes', rest', r, hFrame', hLoop, hHears⟩ | ⟨hNone, -⟩
  · obtain ⟨rfl, rfl⟩ := Prod.mk.inj (Option.some.inj (hFrame.symm.trans hFrame'))
    have hSize : r.size = bytes.length := hHears.size
    have hLong := frame_length hFrame
    refine ⟨r.receivingBuffer, hHears.content, ?_, ?_⟩
    · exact hHears.behind bytes.length (Nat.le_of_eq hSize) (by omega)
    · rw [slipGetBuffer, hLoop, ← hSize]
  · exact absurd ⟨hFits, hFrame ▸ rfl⟩ hNone

theorem frame_of_slipGetBuffer (h : slipGetBuffer len receivingBuffer buffer line = some got)
    (hResult : 0 ≤ got.result) :
    (hear none line).Fits (maxSizeEncodedBuffer len).toNat ∧
      ∃ bytes rest, (hear none line).frame = some (bytes, rest) := by
  have hTaken := receiveLoop_takesFrame line (hears_start receivingBuffer)
    (Nat.zero_le (maxSizeEncodedBuffer len).toNat)
  rcases hTaken with ⟨hFits, bytes, rest, -, hFrame, -⟩ | ⟨-, hNone⟩
  · exact ⟨hFits, bytes, rest, hFrame⟩
  · unfold slipGetBuffer at h
    split at h
    · cases h
    · next code rest hLoop =>
      obtain rfl := Option.some.inj h
      exact absurd hResult (Int.not_le.mpr (receiveLoop_code hLoop))
    · next r rest hLoop => exact absurd hLoop (hNone r rest)

end Call

end CMeshApi.Slip
