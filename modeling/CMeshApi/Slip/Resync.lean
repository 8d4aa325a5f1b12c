import CMeshApi.Slip.Returned
import CMeshApi.Slip.RoundTrip

/-!
# Resynchronization

`Slip_send_buffer` puts three END octets before a frame. The first may close what the
receiver took for a frame, and the second or the third then opens the frame that is sent. So
each frame is received, whatever was on the line before it.
-/

namespace CMeshApi.Slip

open Stuffing

def heard (read : UInt8) : Reading := ⟨1, read⟩

/-- What `Slip_send_buffer` writes. -/
def wireForm (frame : List UInt8) (encodedBuffer : Memory UInt8) (lenOut : UInt32) : List UInt8 :=
  [endSlipOctet, endSlipOctet, endSlipOctet] ++
    (slipEncode frame encodedBuffer lenOut).1.read 0 (slipEncode frame encodedBuffer lenOut).2.toNat ++
    [endSlipOctet]

/-- Between its END octets the noise has fewer than 256 bytes at a time. Of a longer run the
decoder counts the bytes modulo 256, and with a count below 2 its CRC runs over 2 ^ 32 bytes. -/
def ShortRuns (noise : List Reading) : Prop :=
  ∀ run, run <:+: noise → heard endSlipOctet ∉ run → run.countP (·.res = 1) < 256

theorem shortRuns_of_length {noise : List Reading} (h : noise.length < 256) : ShortRuns noise :=
  fun _ hRun _ => Nat.lt_of_le_of_lt (Nat.le_trans List.countP_le_length hRun.length_le) h

/-- The frames, sent with noise before each of them and behind the last one. -/
inductive Sent : List (List UInt8) → List Reading → Prop where
  | noise (noise : List Reading) (hNoise : ShortRuns noise) : Sent [] noise
  | frame (noise : List Reading) (hNoise : ShortRuns noise) (frame : List UInt8)
      (encodedBuffer : Memory UInt8) (lenOut : UInt32)
      (hCapacity : (escaped (frame ++ crcBytes frame)).length ≤ lenOut.toNat)
      {frames : List (List UInt8)} {line : List Reading} (h : Sent frames line) :
      Sent (frame :: frames) (noise ++ (wireForm frame encodedBuffer lenOut).map heard ++ line)

/-- Successive calls, with buffers of an admitted size that hold anything. The last one waits. -/
inductive Calls (Admits : UInt32 → Prop) : List Reading → List Got → Prop where
  | waits {len : UInt32} {receivingBuffer buffer : Memory UInt8} {line : List Reading} (hLen : Admits len)
      (h : slipGetBuffer len receivingBuffer buffer line = none) : Calls Admits line []
  | returns {len : UInt32} {receivingBuffer buffer : Memory UInt8} {line : List Reading} {got : Got}
      {outs : List Got} (hLen : Admits len)
      (h : slipGetBuffer len receivingBuffer buffer line = some got) (hRest : Calls Admits got.rest outs) :
      Calls Admits line (got :: outs)

def Got.returned (got : Got) : List UInt8 := got.buffer.read 0 got.result.toNat

/-- A frame of 255 escaped bytes and an escaped CRC have room in the receiving buffer. -/
structure Roomy (len : UInt32) : Prop where
  frame : sizeofWpcFrame ≤ len.toNat
  escaped : 259 ≤ (maxSizeEncodedBuffer len).toNat

def finish (len : UInt32) (buffer : Memory UInt8) : (Int ⊕ Receiving) × List Reading → Got
  | (.inl code, rest) => ⟨code, buffer, rest⟩
  | (.inr r, rest) =>
    ⟨(slipDecode r.receivingBuffer r.size).2,
      copyDecoded len buffer (slipDecode r.receivingBuffer r.size), rest⟩

theorem slipGetBuffer_eq_finish (len : UInt32) (receivingBuffer buffer : Memory UInt8)
    (line : List Reading) :
    slipGetBuffer len receivingBuffer buffer line =
      (receiveLoop (maxSizeEncodedBuffer len).toNat ⟨false, 0, receivingBuffer⟩ line).map
        (finish len buffer) := by
  rw [slipGetBuffer]
  split
  · next hLoop => rw [hLoop, Option.map_none]
  · next hLoop =>
    rw [hLoop]
    rfl
  · next hLoop =>
    rw [hLoop]
    rfl

structure Listening (Admits : UInt32 → Prop) where
  len : UInt32
  before : Memory UInt8
  buffer : Memory UInt8
  run : Option (List UInt8)
  r : Receiving
  admits : Admits len
  hears : Hears before run r

variable {Admits : UInt32 → Prop}

/-- What this call and the calls after it return on the line. -/
def Listening.Ends (c : Listening Admits) (line : List Reading) (outs : List Got) : Prop :=
  match (receiveLoop (maxSizeEncodedBuffer c.len).toNat c.r line).map (finish c.len c.buffer) with
  | none => outs = []
  | some got => ∃ outs', outs = got :: outs' ∧ Calls Admits got.rest outs'

theorem Calls.listening {line : List Reading} {outs : List Got} (h : Calls Admits line outs) :
    ∃ c : Listening Admits, c.run = none ∧ c.Ends line outs := by
  cases h with
  | @waits len receivingBuffer buffer _ hLen h =>
    refine ⟨⟨len, receivingBuffer, buffer, none, _, hLen, hears_start receivingBuffer⟩, rfl, ?_⟩
    rw [slipGetBuffer_eq_finish] at h
    rw [Listening.Ends, h]
  | @returns len receivingBuffer buffer _ got outs hLen h hRest =>
    refine ⟨⟨len, receivingBuffer, buffer, none, _, hLen, hears_start receivingBuffer⟩, rfl, ?_⟩
    rw [slipGetBuffer_eq_finish] at h
    rw [Listening.Ends, h]
    exact ⟨outs, rfl, hRest⟩

/-- An END opens an empty run or closes a frame, and nothing else closes one. -/
theorem receiveRound_hears {before : Memory UInt8} {run : Option (List UInt8)} {r : Receiving}
    (sizeofBuffer : Nat) (h : Hears before run r) (x : Reading) :
    match receiveRound sizeofBuffer r x with
    | .more r => ∃ run, Hears before run r ∧ (x = heard endSlipOctet → run = some [])
    | .giveUp _ => x ≠ heard endSlipOctet
    | .frame _ => ∃ bytes, run = some bytes ∧ 4 ≤ bytes.length := by
  have hHearing := h.hearing sizeofBuffer x []
  generalize receiveRound sizeofBuffer r x = round at hHearing ⊢
  generalize hear run [x] = heard at hHearing
  cases hHearing with
  | timeout => exact nofun
  | error _ _ hError =>
    refine ⟨run, h, ?_⟩
    rintro rfl
    exact absurd hError (by decide)
  | noise hOther => exact ⟨none, h, fun hEnd => absurd (congrArg Reading.read hEnd) hOther⟩
  | opening => exact ⟨some [], h.open, fun _ => rfl⟩
  | reopening hShort => exact ⟨some [], h.reopen hShort, fun _ => rfl⟩
  | closing hLong => exact ⟨_, rfl, hLong⟩
  | overflow hOther => exact fun hEnd => hOther (congrArg Reading.read hEnd)
  | byte hOther => exact ⟨_, h.append _, fun hEnd => absurd (congrArg Reading.read hEnd) hOther⟩

section Steps

variable {c : Listening Admits} {line : List Reading} {outs : List Got}

/-- One reading further, the call goes on or the next one has begun. -/
theorem Listening.Ends.step {x : Reading} (h : c.Ends (x :: line) outs) :
    ∃ (returned : List Got) (c' : Listening Admits) (outs' : List Got), outs = returned ++ outs' ∧
      c'.Ends line outs' ∧
        (x = heard endSlipOctet → (c'.run = none ∨ c'.run = some []) ∧
          (c.run = none ∨ c.run = some [] → c'.run = some [])) := by
  have hHears := receiveRound_hears (maxSizeEncodedBuffer c.len).toNat c.hears x
  unfold Listening.Ends at h
  rw [receiveLoop] at h
  cases hRound : receiveRound (maxSizeEncodedBuffer c.len).toNat c.r x with
  | more r =>
    rw [hRound] at h hHears
    obtain ⟨run, hRun, hEnd⟩ := hHears
    exact ⟨[], ⟨c.len, c.before, c.buffer, run, r, c.admits, hRun⟩, outs, rfl, h,
      fun hx => ⟨.inr (hEnd hx), fun _ => hEnd hx⟩⟩
  | giveUp code =>
    rw [hRound] at h hHears
    obtain ⟨outs', rfl, hRest⟩ := h
    obtain ⟨c', -, hEnds⟩ := hRest.listening
    exact ⟨[_], c', outs', rfl, hEnds, fun hx => absurd hx hHears⟩
  | frame r =>
    rw [hRound] at h hHears
    obtain ⟨outs', rfl, hRest⟩ := h
    obtain ⟨bytes, hRun, hLong⟩ := hHears
    obtain ⟨c', hNone, hEnds⟩ := hRest.listening
    refine ⟨[_], c', outs', rfl, hEnds, fun _ => ⟨.inl hNone, ?_⟩⟩
    rw [hRun]
    rintro (hEmpty | hEmpty)
    · cases hEmpty
    · obtain rfl := Option.some.inj hEmpty
      exact absurd hLong (by decide)

theorem Listening.Ends.skip (noise : List Reading) (h : c.Ends (noise ++ line) outs) :
    ∃ (returned : List Got) (c' : Listening Admits) (outs' : List Got), outs = returned ++ outs' ∧
      c'.Ends line outs' := by
  induction noise generalizing c outs with
  | nil => exact ⟨[], c, outs, rfl, h⟩
  | cons x noise ih =>
    obtain ⟨returned, c', outs', rfl, hStep, -⟩ := h.step
    obtain ⟨returned', c'', outs'', rfl, hEnds⟩ := ih hStep
    exact ⟨returned ++ returned', c'', outs'', (List.append_assoc _ _ _).symm, hEnds⟩

/-- Two of the END octets before a frame are enough. -/
theorem Listening.Ends.preamble
    (h : c.Ends (heard endSlipOctet :: heard endSlipOctet :: heard endSlipOctet :: line) outs) :
    ∃ (returned : List Got) (c' : Listening Admits) (outs' : List Got), outs = returned ++ outs' ∧
      c'.Ends line outs' ∧ c'.run = some [] := by
  obtain ⟨first, c₁, outs₁, rfl, h₁, hFirst⟩ := h.step
  obtain ⟨second, c₂, outs₂, rfl, h₂, hSecond⟩ := h₁.step
  obtain ⟨third, c₃, outs₃, rfl, h₃, hThird⟩ := h₂.step
  have hOpen : c₂.run = some [] := (hSecond rfl).2 (hFirst rfl).1
  exact ⟨first ++ second ++ third, c₃, outs₃, by simp only [List.append_assoc], h₃,
    (hThird rfl).2 (.inr hOpen)⟩

end Steps

theorem heard_received (read : UInt8) :
    ¬ (heard read).res = 0 ∧ ¬ ((heard read).res < 0 ∨ 1 < (heard read).res) :=
  show ¬ (1 : Int) = 0 ∧ ¬ ((1 : Int) < 0 ∨ (1 : Int) < 1) by decide

theorem hear_bytes (run bytes : List UInt8) (line : List Reading) (h : endSlipOctet ∉ bytes) :
    hear (some run) (bytes.map heard ++ line) = hear (some (run ++ bytes)) line := by
  induction bytes generalizing run with
  | nil => rw [List.append_nil, List.map_nil, List.nil_append]
  | cons b bytes ih =>
    obtain ⟨hHead, hTail⟩ := not_or.mp (List.mem_cons.not.mp h)
    obtain ⟨hSome, hOne⟩ := heard_received b
    have hByte : ¬ (heard b).read = endSlipOctet := fun hEnd => hHead hEnd.symm
    rw [List.map_cons, List.cons_append, hear, if_neg hSome, if_neg hOne, if_neg hByte, ih _ hTail,
      List.append_assoc]
    rfl

theorem hear_frame {bytes : List UInt8} (line : List Reading) (h : endSlipOctet ∉ bytes)
    (hFour : 4 ≤ bytes.length) :
    hear (some []) (bytes.map heard ++ heard endSlipOctet :: line) = ⟨[bytes], some (bytes, line)⟩ := by
  obtain ⟨hSome, hOne⟩ := heard_received endSlipOctet
  have hByte : (heard endSlipOctet).read = endSlipOctet := rfl
  rw [hear_bytes _ _ _ h, List.nil_append, hear, if_neg hSome, if_neg hOne, if_pos hByte,
    if_neg (Nat.not_lt.mpr hFour)]

theorem Got.Has.returned {got : Got} {len : UInt32} {payload : List UInt8} (h : got.Has len payload)
    (hSome : payload ≠ []) (hLen : payload.length ≤ len.toNat) : got.returned = payload := by
  rw [Got.returned, h.result, Int.toNat_natCast]
  exact h.buffer hSome hLen

theorem Listening.Ends.frame {c : Listening Admits} {line : List Reading} {outs : List Got}
    {bytes frame : List UInt8} (hOpen : c.run = some [])
    (h : c.Ends (bytes.map heard ++ heard endSlipOctet :: line) outs) (hBytes : endSlipOctet ∉ bytes)
    (hFour : 4 ≤ bytes.length) (hRoom : bytes.length ≤ (maxSizeEncodedBuffer c.len).toNat)
    (hCorrect : ∀ next, turned (slipStuffing.unstuff next bytes) = frame ++ crcBytes frame)
    (hSome : frame ≠ []) (hLen : frame.length ≤ c.len.toNat) :
    ∃ got outs', outs = got :: outs' ∧ got.returned = frame ∧ Calls Admits line outs' := by
  have hHears : Hears c.before (some []) c.r := hOpen ▸ c.hears
  have hFits : Heard.Fits ⟨[bytes], some (bytes, line)⟩ (maxSizeEncodedBuffer c.len).toNat :=
    fun run hRun => List.mem_singleton.mp hRun ▸ hRoom
  have hTaken := receiveLoop_takesFrame (bytes.map heard ++ heard endSlipOctet :: line) hHears
    (Nat.zero_le (maxSizeEncodedBuffer c.len).toNat)
  rw [hear_frame line hBytes hFour] at hTaken
  rcases hTaken with ⟨-, bytes', rest, r, hFrame, hLoop, hContent⟩ | ⟨hNone, -⟩
  · obtain ⟨rfl, rfl⟩ := Prod.mk.inj (Option.some.inj hFrame)
    have hSize : r.size = bytes.length := hContent.size
    have hMem : r.receivingBuffer.read 0 bytes.length = bytes := hContent.content
    rw [Listening.Ends, hLoop, Option.map_some] at h
    obtain ⟨outs', rfl, hRest⟩ := h
    refine ⟨_, outs', rfl, ?_, hRest⟩
    have hHas : Got.Has (finish c.len c.buffer (.inr r, line)) c.len frame := by
      rw [finish, hSize]
      exact slipDecode_has hMem rfl (hCorrect _)
    exact hHas.returned hSome hLen
  · exact absurd ⟨hFits, rfl⟩ hNone

/-- A frame that the encoder can send. -/
structure Sendable (frame : List UInt8) : Prop where
  two : 2 ≤ frame.length
  size : frame.length ≤ sizeofWpcFrame
  escaped : (escaped frame).length ≤ 255

section Sendable

variable {frame : List UInt8} (h : Sendable frame)
include h

theorem Sendable.wireForm_eq (encodedBuffer : Memory UInt8) {lenOut : UInt32}
    (hCapacity : (Slip.escaped (frame ++ crcBytes frame)).length ≤ lenOut.toNat) :
    wireForm frame encodedBuffer lenOut =
      [endSlipOctet, endSlipOctet, endSlipOctet] ++ Slip.escaped (frame ++ crcBytes frame) ++
        [endSlipOctet] := by
  rw [wireForm, slipEncode_short frame encodedBuffer lenOut hCapacity h.escaped]
  simp only []
  rw [Int.toNat_natCast, Memory.read_write]

theorem Sendable.length_le : (Slip.escaped (frame ++ crcBytes frame)).length ≤ 259 := by
  have hAppend : Slip.escaped (frame ++ crcBytes frame) =
      Slip.escaped frame ++ Slip.escaped (crcBytes frame) := slipStuffing.stuff_append _ _
  have hCrc : (Slip.escaped (crcBytes frame)).length ≤ 2 * (crcBytes frame).length :=
    slipStuffing.length_stuff_le _
  have hFrame := h.escaped
  rw [length_crcBytes] at hCrc
  rw [hAppend, List.length_append]
  omega

theorem Sendable.four_le : 4 ≤ (Slip.escaped (frame ++ crcBytes frame)).length := by
  have hStuff := length_unstuff_le (S := slipStuffing) 0 (Slip.escaped (frame ++ crcBytes frame))
  have hTwo := h.two
  rw [Slip.escaped, unstuff_stuff, List.length_append, length_crcBytes] at hStuff
  rw [Slip.escaped]
  omega

theorem Sendable.correct (next : UInt8) :
    turned (slipStuffing.unstuff next (Slip.escaped (frame ++ crcBytes frame))) =
      frame ++ crcBytes frame := by
  have hSize : frame.length ≤ 204 := h.size
  rw [Slip.escaped, unstuff_stuff, turned_short]
  rw [List.length_append, length_crcBytes]
  omega

end Sendable

theorem receiveLoop_rest {sizeofBuffer : Nat} {r : Receiving} {line rest : List Reading}
    {taken : Int ⊕ Receiving} (h : receiveLoop sizeofBuffer r line = some (taken, rest)) :
    rest.length < line.length := by
  induction line generalizing r with
  | nil => cases h
  | cons x line ih =>
    rw [receiveLoop] at h
    split at h
    · exact Nat.lt_succ_of_lt (ih h)
    · cases h
      exact Nat.lt_succ_self _
    · cases h
      exact Nat.lt_succ_self _

/-- Each call takes something from the line, so that the last one waits. -/
theorem exists_calls {len : UInt32} (hLen : Admits len) (line : List Reading) :
    ∃ outs, Calls Admits line outs := by
  induction hn : line.length using Nat.strongRecOn generalizing line with
  | ind n ih =>
    cases hGot : slipGetBuffer len (fun _ => 0) (fun _ => 0) line with
    | none => exact ⟨[], .waits hLen hGot⟩
    | some got =>
      have hRest : got.rest.length < n := by
        rw [slipGetBuffer_eq_finish, Option.map_eq_some_iff] at hGot
        obtain ⟨⟨taken, rest⟩, hLoop, rfl⟩ := hGot
        cases taken with
        | inl code => exact hn ▸ receiveLoop_rest hLoop
        | inr r => exact hn ▸ receiveLoop_rest hLoop
      obtain ⟨outs, hOuts⟩ := ih _ hRest got.rest rfl
      exact ⟨got :: outs, .returns hLen hGot hOuts⟩

/-- The receiving buffer is large enough for all lengths up to the wrap of its size. -/
theorem roomy_of_le {len : UInt32} (hFrame : sizeofWpcFrame ≤ len.toNat) (hLen : len.toNat < 2 ^ 31 - 3) :
    Roomy len := by
  have hSize : sizeofWpcFrame = 204 := rfl
  have hBuffer := toNat_maxSizeEncodedBuffer hLen
  exact ⟨hFrame, by omega⟩

/-- Each frame is returned by some call, in the order of the frames. -/
theorem frames_sublist_returned {frames : List (List UInt8)} {line : List Reading} {outs : List Got}
    (hFrames : ∀ frame ∈ frames, Sendable frame) (hSent : Sent frames line)
    (hCalls : Calls Roomy line outs) : frames.Sublist (outs.map Got.returned) := by
  induction hSent generalizing outs with
  | noise noise => exact List.nil_sublist _
  | @frame noise hNoise frame encodedBuffer lenOut hCapacity frames line hSent ih =>
    obtain ⟨hFrame, hFrames⟩ := List.forall_mem_cons.mp hFrames
    obtain ⟨c, -, hEnds⟩ := hCalls.listening
    rw [hFrame.wireForm_eq encodedBuffer hCapacity, List.append_assoc] at hEnds
    obtain ⟨spent, c₁, outs₁, rfl, hWire⟩ := hEnds.skip
    simp only [List.map_append, List.map_cons, List.map_nil, List.append_assoc, List.cons_append,
      List.nil_append] at hWire
    obtain ⟨spent', c₂, outs₂, rfl, hBytes, hOpen⟩ := hWire.preamble
    have hRoom : (escaped (frame ++ crcBytes frame)).length ≤ (maxSizeEncodedBuffer c₂.len).toNat :=
      Nat.le_trans hFrame.length_le c₂.admits.escaped
    have hSome : frame ≠ [] := List.ne_nil_of_length_pos (Nat.lt_of_lt_of_le Nat.two_pos hFrame.two)
    obtain ⟨got, outs', rfl, hReturned, hRest⟩ := hBytes.frame hOpen (end_not_mem_escaped _) hFrame.four_le
      hRoom hFrame.correct hSome (Nat.le_trans hFrame.size c₂.admits.frame)
    rw [List.map_append, List.map_append, List.map_cons, hReturned]
    have hLater := (ih hFrames hRest).cons_cons frame
    exact hLater.trans ((List.sublist_append_right _ _).trans (List.sublist_append_right _ _))

def noisyFrame : List Reading :=
  [heard 0x55, heard endSlipOctet, heard 0x07] ++ (wireForm [1, 2] (fun _ => 0) 8).map heard ++ []

theorem noisyFrame_returned :
    ∃ outs, Calls Roomy noisyFrame outs ∧ [[1, 2]].Sublist (outs.map Got.returned) := by
  have hRoomy : Roomy 204 := roomy_of_le (by decide) (by decide)
  have hFrames : ∀ frame ∈ [[1, 2]], Sendable frame :=
    fun frame h => List.mem_singleton.mp h ▸ ⟨by decide, by decide, by decide⟩
  have hSent : Sent [[1, 2]] noisyFrame :=
    .frame _ (shortRuns_of_length (by decide)) [1, 2] (fun _ => 0) 8 (by decide +kernel)
      (.noise [] (shortRuns_of_length (by decide)))
  obtain ⟨outs, hCalls⟩ := exists_calls hRoomy noisyFrame
  exact ⟨outs, hCalls, frames_sublist_returned hFrames hSent hCalls⟩

/-- For a length of 2 ^ 31 the receiving buffer has 6 bytes. -/
theorem wrapped_not_returned : Sendable [1, 2, 3, 4, 5] ∧
    ∃ outs, Calls (sizeofWpcFrame ≤ ·.toNat) ((wireForm [1, 2, 3, 4, 5] (fun _ => 0) 14).map heard) outs ∧
      ¬ [[1, 2, 3, 4, 5]].Sublist (outs.map Got.returned) := by
  have hLarge : sizeofWpcFrame ≤ (0x80000000 : UInt32).toNat := by decide
  have hWire : wireForm [1, 2, 3, 4, 5] (fun _ => 0) 14 =
      [0xC0, 0xC0, 0xC0, 1, 2, 3, 4, 5, 4, 147, 0xC0] := by decide +kernel
  have hGot : slipGetBuffer 0x80000000 (fun _ => 0) (fun _ => 0)
      ((wireForm [1, 2, 3, 4, 5] (fun _ => 0) 14).map heard) =
        some ⟨wpcIntGenError, fun _ => 0, [heard endSlipOctet]⟩ := by
    rw [hWire]
    rfl
  have hWaits : slipGetBuffer 0x80000000 (fun _ => 0) (fun _ => 0) [heard endSlipOctet] = none := by rfl
  refine ⟨⟨by decide, by decide, by decide⟩, _, .returns hLarge hGot (.waits hLarge hWaits), ?_⟩
  decide

end CMeshApi.Slip
