import CMeshApi.Serial.Bytes
import CMeshApi.Slip.Resync

/-!
# Frames through the port

`Slip_get_buffer` with `Serial_read` as its `read_function`. As long as no pause between two
bytes outlasts the attempts of a call, it makes no difference how the system cuts the bytes into
readings, nor what is still in the buffer from earlier ones.
-/

namespace CMeshApi.Serial

open Readers Slip

/-- The bytes that `read_function` leaves alone do not matter, as its result says so. -/
def portReader : Reader (Port × List (Option Chunk)) UInt16 Reading := fun timeoutMs (s, reads) =>
  (serialRead s timeoutMs.toUInt32 reads).map fun (s, out, reads) =>
    (⟨out.result, out.byte.getD 0⟩, s, reads)

def receiveConsumer (sizeofBuffer : Nat) (r : Receiving) (x : Reading) :
    Receiving ⊕ (Int ⊕ Receiving) :=
  match receiveRound sizeofBuffer r x with
  | .more r => .inl r
  | .giveUp code => .inr (.inl code)
  | .frame r => .inr (.inr r)

/-- `Slip_get_buffer` with any `read_function`, for a number of readings at most. -/
def slipGetBufferBy {σ : Type} (readFunction : Reader σ UInt16 Reading) (rounds : Nat) (timeoutMs : UInt16)
    (len : UInt32) (receivingBuffer buffer : Memory UInt8) (s : σ) : Option ((Int × Memory UInt8) × σ) :=
  (consume readFunction timeoutMs (receiveConsumer (maxSizeEncodedBuffer len).toNat) rounds
    ⟨false, 0, receivingBuffer⟩ s).map fun (taken, s) =>
      match taken with
      | .inl code => ((code, buffer), s)
      | .inr r =>
        let decoded := slipDecode r.receivingBuffer r.size
        ((decoded.2, copyDecoded len buffer decoded), s)

/-- What a call is given, and what its receiving buffer holds before. -/
structure BufferCall where
  len : UInt32
  timeoutMs : UInt16
  receivingBuffer : Memory UInt8
  buffer : Memory UInt8

/-- Successive calls on the port, with what each of them returns. The last one waits. -/
inductive PortCalls : Port × List (Option Chunk) → List BufferCall → List (Int × Memory UInt8) → Prop where
  | waits {c : BufferCall} {s : Port × List (Option Chunk)}
      (h : ∀ rounds, slipGetBufferBy portReader rounds c.timeoutMs c.len c.receivingBuffer c.buffer s = none) :
      PortCalls s [c] []
  | returns {rounds : Nat} {c : BufferCall} {cs : List BufferCall} {s s' : Port × List (Option Chunk)}
      {got : Int × Memory UInt8} {gots : List (Int × Memory UInt8)}
      (h : slipGetBufferBy portReader rounds c.timeoutMs c.len c.receivingBuffer c.buffer s = some (got, s'))
      (hRest : PortCalls s' cs gots) : PortCalls s (c :: cs) (got :: gots)

/-- The same calls, given the bytes one by one. -/
inductive LineCalls : List Reading → List BufferCall → List Got → Prop where
  | waits {c : BufferCall} {line : List Reading} (h : slipGetBuffer c.len c.receivingBuffer c.buffer line = none) :
      LineCalls line [c] []
  | returns {c : BufferCall} {cs : List BufferCall} {line : List Reading} {got : Got} {outs : List Got}
      (h : slipGetBuffer c.len c.receivingBuffer c.buffer line = some got)
      (hRest : LineCalls got.rest cs outs) : LineCalls line (c :: cs) (got :: outs)

theorem LineCalls.calls {Admits : UInt32 → Prop} {line : List Reading} {cs : List BufferCall} {outs : List Got}
    (h : LineCalls line cs outs) (hAdmits : ∀ c ∈ cs, Admits c.len) : Calls Admits line outs := by
  induction h with
  | waits hWaits => exact .waits (hAdmits _ List.mem_cons_self) hWaits
  | returns hReturns _ ih =>
    obtain ⟨hLen, hLater⟩ := List.forall_mem_cons.mp hAdmits
    exact .returns hLen hReturns (ih hLater)

/-- After `k` pauses in a row, there are never more than `n` of them before a byte. -/
def Patient (n : Nat) : Nat → List (Option UInt8) → Prop
  | _, [] => True
  | _, some _ :: line => Patient n 0 line
  | k, none :: line => k < n ∧ Patient n (k + 1) line

instance (n : Nat) : (k : Nat) → (line : List (Option UInt8)) → Decidable (Patient n k line)
  | _, [] => isTrue trivial
  | _, some _ :: line => instDecidablePatient n 0 line
  | k, none :: line =>
    have : Decidable (Patient n (k + 1) line) := instDecidablePatient n (k + 1) line
    inferInstanceAs (Decidable (_ ∧ _))

theorem nextByte_patient {n k m : Nat} {line : List (Option UInt8)} (h : Patient n k line)
    (hEnough : n ≤ k + m) :
    match line.reduceOption with
    | [] => nextByte m line = none
    | b :: bytes => ∃ rest, nextByte m line = some (some b, rest) ∧ Patient n 0 rest ∧
        rest.reduceOption = bytes := by
  induction line generalizing k m with
  | nil => cases m <;> rfl
  | cons x line ih =>
    cases x with
    | some b => exact ⟨line, nextByte_some m b line, h, rfl⟩
    | none =>
      obtain ⟨hLess, hLater⟩ := h
      obtain ⟨m, rfl⟩ : ∃ j, m = j + 1 := ⟨m - 1, by omega⟩
      exact ih hLater (by omega)

/-- The port that holds and gets the bytes, with pauses that a call waits for. -/
structure Brings (n : Nat) (x : Port × List (Option Chunk)) (line : List Reading) : Prop where
  isOpen : x.1.fd.isSome
  inside : x.1.Inside
  patient : Patient n 0 (x.1.line x.2)
  bytes : line = ((x.1.line x.2).reduceOption).map heard

theorem portReader_refines (n : Nat) :
    Refines (fun timeoutMs : UInt16 => n ≤ (attempts timeoutMs.toUInt32).toNat) portReader pull
      (Brings n) := by
  rintro timeoutMs ⟨s, reads⟩ line hEnough ⟨hOpen, hInside, hPatient, rfl⟩
  obtain ⟨fd, hFd⟩ := Option.isSome_iff_exists.mp hOpen
  have hRead := serialRead_delivers hFd hInside timeoutMs.toUInt32 reads
  have hNext := nextByte_patient hPatient (show n ≤ 0 + (attempts timeoutMs.toUInt32).toNat by omega)
  dsimp only at hNext ⊢
  cases hBytes : (s.line reads).reduceOption with
  | nil =>
    rw [hBytes] at hNext
    dsimp only at hNext
    rw [hNext] at hRead
    rw [portReader, rel_none_right hRead]
    exact .none
  | cons b bytes =>
    rw [hBytes] at hNext
    obtain ⟨rest, hNext, hRest, rfl⟩ := hNext
    rw [hNext] at hRead
    obtain ⟨⟨s', out, reads'⟩, hServed, hDelivers⟩ := rel_some_right hRead
    dsimp only at hDelivers
    have hReading : (⟨out.result, out.byte.getD 0⟩ : Reading) = heard b := by
      rw [hDelivers.result, hDelivers.byte]
      rfl
    rw [portReader, hServed, Option.map_some]
    refine .some ⟨hReading, ?_, hDelivers.inside, ?_, ?_⟩
    · exact hDelivers.same.1 ▸ hOpen
    · exact hDelivers.line ▸ hRest
    · exact congrArg (fun line => line.reduceOption.map heard) hDelivers.line.symm

/-- With all its readings from the start it is the function on a line. -/
theorem consume_pull_eq (timeoutMs : UInt16) (sizeofBuffer : Nat) {rounds : Nat} (r : Receiving)
    {line : List Reading} (hRounds : line.length ≤ rounds) :
    consume pull timeoutMs (receiveConsumer sizeofBuffer) rounds r line = receiveLoop sizeofBuffer r line := by
  induction line generalizing rounds r with
  | nil => cases rounds <;> rfl
  | cons x line ih =>
    obtain ⟨rounds, rfl⟩ : ∃ j, rounds = j + 1 := ⟨rounds - 1, by simp at hRounds; omega⟩
    rw [consume, receiveLoop]
    dsimp only [pull, Option.bind_some]
    unfold receiveConsumer
    cases receiveRound sizeofBuffer r x with
    | more r => exact ih r (by simpa using hRounds)
    | giveUp code => rfl
    | frame r => rfl

variable {n : Nat} {timeoutMs : UInt16} {len : UInt32} {receivingBuffer buffer : Memory UInt8}
  {x x' : Port × List (Option Chunk)} {line : List Reading} {rounds : Nat}

theorem slipGetBufferBy_waits (h : Brings n x line) (hEnough : n ≤ (attempts timeoutMs.toUInt32).toNat)
    (hWaits : ∀ rounds, slipGetBufferBy portReader rounds timeoutMs len receivingBuffer buffer x = none) :
    slipGetBuffer len receivingBuffer buffer line = none := by
  have hRel := (portReader_refines n).consume hEnough (receiveConsumer (maxSizeEncodedBuffer len).toNat)
    line.length ⟨false, 0, receivingBuffer⟩ h
  rw [Option.map_eq_none_iff.mp (hWaits line.length),
    consume_pull_eq timeoutMs _ _ (Nat.le_refl _)] at hRel
  rw [slipGetBuffer_eq_finish]
  cases hLoop : receiveLoop (maxSizeEncodedBuffer len).toNat ⟨false, 0, receivingBuffer⟩ line with
  | none => rfl
  | some got =>
    rw [hLoop] at hRel
    cases hRel

theorem slipGetBufferBy_returns {got : Int × Memory UInt8} (h : Brings n x line)
    (hEnough : n ≤ (attempts timeoutMs.toUInt32).toNat)
    (hReturns : slipGetBufferBy portReader rounds timeoutMs len receivingBuffer buffer x =
      some (got, x')) :
    ∃ rest, slipGetBuffer len receivingBuffer buffer line = some ⟨got.1, got.2, rest⟩ ∧
      Brings n x' rest := by
  obtain ⟨⟨taken, s'⟩, hTaken, hGot⟩ := Option.map_eq_some_iff.mp hReturns
  have hMore := consume_mono hTaken (Nat.le_max_left rounds line.length)
  have hRel := (portReader_refines n).consume hEnough (receiveConsumer (maxSizeEncodedBuffer len).toNat)
    (max rounds line.length) ⟨false, 0, receivingBuffer⟩ h
  rw [hMore, consume_pull_eq timeoutMs _ _ (Nat.le_max_right _ _)] at hRel
  obtain ⟨⟨taken', rest⟩, hLoop, rfl, hBrings⟩ := rel_some_left hRel
  rw [slipGetBuffer_eq_finish, hLoop, Option.map_some]
  cases taken with
  | inl code =>
    cases hGot
    exact ⟨rest, rfl, hBrings⟩
  | inr r =>
    cases hGot
    exact ⟨rest, rfl, hBrings⟩

theorem PortCalls.heard {cs : List BufferCall} {gots : List (Int × Memory UInt8)}
    (hCalls : PortCalls x cs gots) (hEnough : ∀ c ∈ cs, n ≤ (attempts c.timeoutMs.toUInt32).toNat)
    (h : Brings n x line) :
    ∃ outs, LineCalls line cs outs ∧ outs.map (fun got => (got.result, got.buffer)) = gots := by
  induction hCalls generalizing line with
  | waits hWaits =>
    exact ⟨[], .waits (slipGetBufferBy_waits h (hEnough _ List.mem_cons_self) hWaits), rfl⟩
  | returns hReturns _ ih =>
    obtain ⟨hFirst, hLater⟩ := List.forall_mem_cons.mp hEnough
    obtain ⟨rest, hGot, hBrings⟩ := slipGetBufferBy_returns h hFirst hReturns
    obtain ⟨outs, hOuts, rfl⟩ := ih hLater hBrings
    exact ⟨_, .returns hGot hOuts, rfl⟩

/-- The calls return what they return on the bytes alone, whatever readings these come in. -/
theorem portCalls_eq_calls {Admits : UInt32 → Prop} {s : Port} {reads : List (Option Chunk)} {fd : Nat}
    {cs : List BufferCall} {gots : List (Int × Memory UInt8)} (hOpen : s.fd = some fd) (hInside : s.Inside)
    (hPatient : Patient n 0 (s.line reads)) (hAdmits : ∀ c ∈ cs, Admits c.len)
    (hEnough : ∀ c ∈ cs, n ≤ (attempts c.timeoutMs.toUInt32).toNat)
    (hCalls : PortCalls (s, reads) cs gots) :
    ∃ outs, LineCalls ((s.pending ++ content reads).map Slip.heard) cs outs ∧
      Calls Admits ((s.pending ++ content reads).map Slip.heard) outs ∧
      outs.map (fun got => (got.result, got.buffer)) = gots := by
  have hBytes : (s.pending ++ content reads).map Slip.heard = ((s.line reads).reduceOption).map Slip.heard :=
    congrArg (List.map Slip.heard) (reduceOption_line s reads).symm
  obtain ⟨outs, hLine, hGots⟩ := hCalls.heard hEnough ⟨hOpen ▸ rfl, hInside, hPatient, hBytes⟩
  exact ⟨outs, hLine, hLine.calls hAdmits, hGots⟩

/-- A frame in two readings, with a pause between them. -/
def twoReadings : List (Option Chunk) :=
  [some ⟨[0x55, 0xC0, 0xC0, 0xC0, 1], by decide⟩, none, some ⟨[2, 124, 14, 0xC0], by decide⟩]

/-- The first call returns the frame, the second one waits for another. -/
def twoCalls : List BufferCall :=
  [⟨204, 500, fun _ => 0, fun _ => 0⟩, ⟨204, 500, fun _ => 0, fun _ => 0⟩]

theorem portCalls_eq_calls_twoReadings :
    ∃ buffer outs,
      LineCalls ([0x55, 0xC0, 0xC0, 0xC0, 1, 2, 124, 14, 0xC0].map Slip.heard) twoCalls outs ∧
        Calls (· = 204) ([0x55, 0xC0, 0xC0, 0xC0, 1, 2, 124, 14, 0xC0].map Slip.heard) outs ∧
        outs.map (fun got => (got.result, got.buffer)) = [(2, buffer)] := by
  have hReturns : slipGetBufferBy portReader 9 500 204 (fun _ => 0) (fun _ => 0)
      ({ Port.init with fd := some 3 }, twoReadings) = some ((2, _), _, []) := rfl
  have hCalls : PortCalls ({ Port.init with fd := some 3 }, twoReadings) twoCalls [(2, _)] :=
    .returns hReturns (.waits fun rounds => by cases rounds <;> rfl)
  exact ⟨_, portCalls_eq_calls (n := 4) (s := { Port.init with fd := some 3 }) rfl (Nat.zero_le _) (by decide)
    (by decide) (by decide) hCalls⟩

end CMeshApi.Serial
