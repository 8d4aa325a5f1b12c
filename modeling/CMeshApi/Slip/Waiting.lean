import CMeshApi.Slip.Receive

/-!
# Waiting on a closed line

A read that fails with a negative result is logged and tried again. Once the link is closed each
read fails in this way, so that a call returns only if the readings before have already ended it.
-/

namespace CMeshApi.Slip

open Stuffing

/-- The first readings on a line on which the script is followed by failing reads. -/
def closedLine (script : List Reading) (errors : Nat → Reading) (k : Nat) : List Reading :=
  script ++ (List.range k).map errors

/-- The call returns with this result after finitely many readings. -/
def ReturnsWith (len : UInt32) (receivingBuffer buffer : Memory UInt8) (script : List Reading)
    (errors : Nat → Reading) (result : Int) : Prop :=
  ∃ k got, slipGetBuffer len receivingBuffer buffer (closedLine script errors k) = some got ∧
    got.result = result

/-- A timeout, or bytes without an END that the receiving buffer has no room for. -/
def StopsWaiting (len : UInt32) (script : List Reading) : Prop :=
  ¬ (hear none script).Fits (maxSizeEncodedBuffer len).toNat ∨
    (hear none script).frame = none ∧ ∃ x ∈ script, x.res = 0

/-- The frame does not end in its CRC. -/
def WrongFrame (receivingBuffer : Memory UInt8) (script : List Reading) : Prop :=
  ∃ bytes rest, (hear none script).frame = some (bytes, rest) ∧
    ¬ ∃ payload, turned (slipStuffing.unstuff (receivingBuffer bytes.length) bytes) =
      payload ++ crcBytes payload

section Loop

variable {before : Memory UInt8} {run : Option (List UInt8)} {r : Receiving} {sizeofBuffer : Nat}
  {line more : List Reading}

theorem receiveRound_error {x : Reading} (h : x.res < 0) : receiveRound sizeofBuffer r x = .more r := by
  rw [receiveRound, if_neg (Int.ne_of_lt h), if_pos (.inl h)]

theorem receiveLoop_errors (h : ∀ x ∈ line, x.res < 0) : receiveLoop sizeofBuffer r line = none := by
  induction line with
  | nil => rfl
  | cons x line ih =>
    obtain ⟨hHead, hTail⟩ := List.forall_mem_cons.mp h
    rw [receiveLoop, receiveRound_error hHead]
    exact ih hTail

/-- What has ended the loop is not undone by what follows, and errors end nothing. -/
theorem receiveLoop_append_errors (h : ∀ x ∈ more, x.res < 0) :
    receiveLoop sizeofBuffer r (line ++ more) =
      (receiveLoop sizeofBuffer r line).map (Prod.map id (· ++ more)) := by
  induction line generalizing r with
  | nil => exact receiveLoop_errors h
  | cons x line ih =>
    rw [List.cons_append, receiveLoop, receiveLoop]
    cases receiveRound sizeofBuffer r x with
    | more r => exact ih
    | giveUp code => rfl
    | frame r => rfl

/-- The loop waits for more just if all that it heard fits, and it read neither a frame nor a timeout. -/
theorem receiveLoop_eq_none_iff (line : List Reading) (h : Hears before run r)
    (hRun : (run.getD []).length ≤ sizeofBuffer) :
    receiveLoop sizeofBuffer r line = none ↔
      (hear run line).Fits sizeofBuffer ∧ (hear run line).frame = none ∧ ∀ x ∈ line, x.res ≠ 0 := by
  induction line generalizing run r with
  | nil =>
    cases run with
    | none => exact iff_of_true rfl ⟨List.forall_mem_nil _, rfl, List.forall_mem_nil _⟩
    | some bytes => exact iff_of_true rfl ⟨Heard.fits_toList hRun, rfl, List.forall_mem_nil _⟩
  | cons x line ih =>
    have hHearing := h.hearing sizeofBuffer x line
    rw [receiveLoop, List.forall_mem_cons]
    generalize receiveRound sizeofBuffer r x = round at hHearing ⊢
    generalize hear run (x :: line) = heard at hHearing ⊢
    cases hHearing with
    | timeout read => exact iff_of_false (Option.some_ne_none _) fun hWaits => hWaits.2.2.1 rfl
    | error _ hZero =>
      rw [and_iff_right hZero]
      exact ih h hRun
    | noise =>
      rw [and_iff_right Int.one_ne_zero]
      exact ih h hRun
    | opening =>
      rw [and_iff_right Int.one_ne_zero]
      exact ih h.open (Nat.zero_le _)
    | @reopening bytes hShort =>
      have hBytes : bytes.length ≤ sizeofBuffer := hRun
      rw [and_iff_right Int.one_ne_zero, Heard.fits_cons_iff hBytes]
      exact ih (h.reopen hShort) (Nat.zero_le _)
    | closing => exact iff_of_false (Option.some_ne_none _) fun hWaits => Option.some_ne_none _ hWaits.2.1
    | overflow _ hFull => exact iff_of_false (Option.some_ne_none _) fun hWaits => not_fits_of_overflow hFull hWaits.1
    | byte _ hRoom =>
      rw [and_iff_right Int.one_ne_zero]
      exact ih (h.append _) hRoom

end Loop

section Call

variable {len : UInt32} {receivingBuffer buffer : Memory UInt8} {script : List Reading}
  {errors : Nat → Reading}

theorem slipGetBuffer_eq_none_iff :
    slipGetBuffer len receivingBuffer buffer script = none ↔
      (hear none script).Fits (maxSizeEncodedBuffer len).toNat ∧ (hear none script).frame = none ∧
        ∀ x ∈ script, x.res ≠ 0 := by
  rw [← receiveLoop_eq_none_iff script (hears_start receivingBuffer) (Nat.zero_le _), slipGetBuffer]
  cases receiveLoop (maxSizeEncodedBuffer len).toNat ⟨false, 0, receivingBuffer⟩ script with
  | none => exact iff_of_true rfl rfl
  | some taken =>
    obtain ⟨code | r, rest⟩ := taken
    · exact iff_of_false (Option.some_ne_none _) (Option.some_ne_none _)
    · exact iff_of_false (Option.some_ne_none _) (Option.some_ne_none _)

theorem slipGetBuffer_closedLine (hErrors : ∀ i, (errors i).res < 0) (k : Nat) :
    slipGetBuffer len receivingBuffer buffer (closedLine script errors k) =
      (slipGetBuffer len receivingBuffer buffer script).map
        fun got => { got with rest := got.rest ++ (List.range k).map errors } := by
  have hMore : ∀ x ∈ (List.range k).map errors, x.res < 0 := by
    intro x hx
    obtain ⟨i, -, rfl⟩ := List.mem_map.mp hx
    exact hErrors i
  rw [slipGetBuffer, slipGetBuffer, closedLine, receiveLoop_append_errors hMore]
  cases receiveLoop (maxSizeEncodedBuffer len).toNat ⟨false, 0, receivingBuffer⟩ script with
  | none => rfl
  | some taken =>
    obtain ⟨code | r, rest⟩ := taken
    · rfl
    · rfl

/-- The readings before the errors decide. -/
theorem returnsWith_iff (hErrors : ∀ i, (errors i).res < 0) {result : Int} :
    ReturnsWith len receivingBuffer buffer script errors result ↔
      ∃ got, slipGetBuffer len receivingBuffer buffer script = some got ∧ got.result = result := by
  constructor
  · rintro ⟨k, got, hGot, hResult⟩
    rw [slipGetBuffer_closedLine hErrors, Option.map_eq_some_iff] at hGot
    obtain ⟨got', hScript, rfl⟩ := hGot
    exact ⟨got', hScript, hResult⟩
  · rintro ⟨got, hGot, hResult⟩
    exact ⟨0, _, (slipGetBuffer_closedLine hErrors 0).trans (congrArg _ hGot), hResult⟩

variable (len receivingBuffer buffer) in
theorem exists_returned_iff :
    (∃ got, slipGetBuffer len receivingBuffer buffer script = some got) ↔
      StopsWaiting len script ∨ (hear none script).frame.isSome = true := by
  rw [← Option.ne_none_iff_exists', Ne, slipGetBuffer_eq_none_iff, StopsWaiting, ← Option.ne_none_iff_isSome]
  constructor
  · intro hReturns
    by_contra hWaits
    obtain ⟨hStops, hFrame⟩ := not_or.mp hWaits
    obtain ⟨hFits, hQuiet⟩ := not_or.mp hStops
    refine hReturns ⟨not_not.mp hFits, not_not.mp hFrame, fun x hx hTimeout => ?_⟩
    exact hQuiet ⟨not_not.mp hFrame, x, hx, hTimeout⟩
  · rintro ((hLarge | ⟨-, x, hx, hTimeout⟩) | hFrame) ⟨hFits, hNone, hQuiet⟩
    · exact hLarge hFits
    · exact hQuiet x hx hTimeout
    · exact hFrame hNone

/-- A frame that is taken gives a negative result just if it does not end in its CRC. -/
theorem wrongFrame_iff {got : Got} (hGot : slipGetBuffer len receivingBuffer buffer script = some got)
    (hFits : (hear none script).Fits (maxSizeEncodedBuffer len).toNat)
    (hFrame : (hear none script).frame.isSome = true) :
    got.result < 0 ↔ WrongFrame receivingBuffer script := by
  obtain ⟨⟨bytes, rest⟩, hFrame⟩ := Option.isSome_iff_exists.mp hFrame
  obtain ⟨mem, hMem, hNext, hTaken⟩ := slipGetBuffer_of_frame hFits hFrame receivingBuffer buffer
  obtain rfl := Option.some.inj (hGot.symm.trans hTaken)
  rw [← Int.not_le, slipDecode_nonneg_iff hMem hNext]
  constructor
  · exact fun hWrong => ⟨bytes, rest, hFrame, hWrong⟩
  · rintro ⟨bytes', rest', hFrame', hWrong⟩
    obtain ⟨rfl, -⟩ := Prod.mk.inj (Option.some.inj (hFrame.symm.trans hFrame'))
    exact hWrong

variable (len receivingBuffer buffer) in
theorem exists_negative_iff :
    (∃ got, slipGetBuffer len receivingBuffer buffer script = some got ∧ got.result < 0) ↔
      StopsWaiting len script ∨ WrongFrame receivingBuffer script := by
  constructor
  · rintro ⟨got, hGot, hNegative⟩
    rcases (exists_returned_iff len receivingBuffer buffer).mp ⟨got, hGot⟩ with hStops | hFrame
    · exact .inl hStops
    · by_cases hFits : (hear none script).Fits (maxSizeEncodedBuffer len).toNat
      · exact .inr ((wrongFrame_iff hGot hFits hFrame).mp hNegative)
      · exact .inl (.inl hFits)
  · intro h
    have hReturns : ∃ got, slipGetBuffer len receivingBuffer buffer script = some got := by
      refine (exists_returned_iff len receivingBuffer buffer).mpr (h.imp_right ?_)
      rintro ⟨bytes, rest, hFrame, -⟩
      rw [hFrame]
      rfl
    obtain ⟨got, hGot⟩ := hReturns
    refine ⟨got, hGot, ?_⟩
    by_contra hNonneg
    obtain ⟨hFits, bytes, rest, hFrame⟩ := frame_of_slipGetBuffer hGot (Int.not_lt.mp hNonneg)
    have hSome : (hear none script).frame.isSome = true := by rw [hFrame]; rfl
    rcases h with (hLarge | ⟨hNone, -⟩) | hWrong
    · exact hLarge hFits
    · rw [hNone] at hFrame
      cases hFrame
    · exact hNonneg ((wrongFrame_iff hGot hFits hSome).mpr hWrong)

end Call

/-- On a line that is closed behind the script the call returns only with what the script has ended:
with an error after a timeout, too many bytes or a wrong frame, or with the frame it took. -/
theorem closedLine_returns_iff {errors : Nat → Reading} (hErrors : ∀ i, (errors i).res < 0)
    (len : UInt32) (receivingBuffer buffer : Memory UInt8) (script : List Reading) :
    ((∃ result < 0, ReturnsWith len receivingBuffer buffer script errors result) ↔
        StopsWaiting len script ∨ WrongFrame receivingBuffer script) ∧
      ((∃ result, ReturnsWith len receivingBuffer buffer script errors result) ↔
        StopsWaiting len script ∨ (hear none script).frame.isSome = true) := by
  simp only [returnsWith_iff hErrors]
  rw [← exists_negative_iff len receivingBuffer buffer, ← exists_returned_iff len receivingBuffer buffer]
  constructor
  · constructor
    · rintro ⟨result, hNegative, got, hGot, rfl⟩
      exact ⟨got, hGot, hNegative⟩
    · rintro ⟨got, hGot, hNegative⟩
      exact ⟨got.result, hNegative, got, hGot, rfl⟩
  · constructor
    · rintro ⟨result, got, hGot, -⟩
      exact ⟨got, hGot⟩
    · rintro ⟨got, hGot⟩
      exact ⟨got.result, got, hGot, rfl⟩

def problem : Reading := ⟨-1, 0⟩

theorem closedLine_returns_timeout :
    ((∃ result < 0, ReturnsWith 204 (fun _ => 0) (fun _ => 0) [⟨1, 0xC0⟩, ⟨0, 0⟩] (fun _ => problem) result) ↔
        StopsWaiting 204 [⟨1, 0xC0⟩, ⟨0, 0⟩] ∨ WrongFrame (fun _ => 0) [⟨1, 0xC0⟩, ⟨0, 0⟩]) ∧
      ((∃ result, ReturnsWith 204 (fun _ => 0) (fun _ => 0) [⟨1, 0xC0⟩, ⟨0, 0⟩] (fun _ => problem) result) ↔
        StopsWaiting 204 [⟨1, 0xC0⟩, ⟨0, 0⟩] ∨ (hear none [⟨1, 0xC0⟩, ⟨0, 0⟩]).frame.isSome = true) :=
  closedLine_returns_iff (fun _ => by decide) 204 (fun _ => 0) (fun _ => 0) [⟨1, 0xC0⟩, ⟨0, 0⟩]

/-- With the link closed from the start, the call never returns. -/
theorem closedLine_never_returns :
    ¬ ∀ (len : UInt32) (receivingBuffer buffer : Memory UInt8) (script : List Reading)
      (errors : Nat → Reading), (∀ i, (errors i).res < 0) →
        ∃ result < 0, ReturnsWith len receivingBuffer buffer script errors result := by
  intro h
  have hProblem : ∀ _ : Nat, problem.res < 0 := fun _ => by decide
  obtain ⟨result, -, hReturns⟩ := h 204 (fun _ => 0) (fun _ => 0) [] (fun _ => problem) hProblem
  obtain ⟨got, hGot, -⟩ := (returnsWith_iff hProblem).mp hReturns
  have hWaits : slipGetBuffer 204 (fun _ => 0) (fun _ => 0) [] = none := rfl
  rw [hWaits] at hGot
  cases hGot

end CMeshApi.Slip
