import CMeshApi.Foundations.Readers
import CMeshApi.Serial.Port
import Mathlib.Data.List.ReduceOption

/-!
# The bytes that are read

The buffer of the port holds what a `read` has brought and no call has returned. So every byte is
returned once and in its order, whatever else is done to the port in between, and a call returns
what it would return if each `read` brought a single byte.
-/

namespace CMeshApi.Serial

open Readers

/-- What is in the buffer and has not been returned. -/
def Port.pending (s : Port) : List UInt8 := s.buffer.read s.read.toNat s.elem.toNat

/-- The bytes to be returned lie in the buffer. -/
def Port.Inside (s : Port) : Prop := s.read.toNat + s.elem.toNat ≤ sizeofBuffer

def Syscall.bytes : Syscall → List UInt8
  | .received _ bytes => bytes
  | _ => []

/-- All bytes that the calls have brought. -/
def received (calls : List Syscall) : List UInt8 := calls.flatMap Syscall.bytes

@[simp] theorem received_append (calls calls' : List Syscall) :
    received (calls ++ calls') = received calls ++ received calls' := List.flatMap_append

@[simp] theorem received_nil : received [] = [] := rfl

@[simp] theorem received_cons (call : Syscall) (calls : List Syscall) :
    received (call :: calls) = call.bytes ++ received calls := rfl

variable {s s' : Port} {fd : Nat} {out : Outcome} {reads reads' : List (Option Chunk)}

theorem pending_takeByte (h : 0 < s.elem) (hInside : s.Inside) :
    s.pending = s.takeByte.1 :: s.takeByte.2.pending ∧ s.takeByte.2.Inside := by
  have hSize : sizeofBuffer = 128 := rfl
  have hElem : 0 < s.elem.toNat := h
  unfold Port.Inside at hInside ⊢
  have hRead : (s.read + 1).toNat = s.read.toNat + 1 := by
    rw [UInt8.toNat_add]
    simp only [UInt8.reduceToNat]
    omega
  have hLess : (s.elem - 1).toNat = s.elem.toNat - 1 :=
    UInt8.toNat_sub_of_le _ _ (UInt8.le_iff_toNat_le.mpr hElem)
  have hNext : s.takeByte.2.pending = s.buffer.read (s.read.toNat + 1 : Nat) (s.elem.toNat - 1) := by
    rw [← hRead, ← hLess]
    rfl
  constructor
  · rw [hNext, Port.pending]
    obtain ⟨n, hn⟩ := Nat.exists_eq_succ_of_ne_zero (Nat.ne_of_gt hElem)
    rw [hn, Memory.read_succ]
    rfl
  · change (s.read + 1).toNat + (s.elem - 1).toNat ≤ sizeofBuffer
    omega

theorem pending_refilled (s : Port) {bytes : List UInt8} (h : bytes.length ≤ sizeofBuffer) :
    (s.refilled bytes).pending = bytes ∧ (s.refilled bytes).Inside := by
  have hSize : sizeofBuffer = 128 := rfl
  have hLength : (UInt8.ofNat bytes.length).toNat = bytes.length :=
    UInt8.toNat_ofNat_of_lt' (show bytes.length < 2 ^ 8 by omega)
  constructor
  · change (s.buffer.write 0 bytes).read 0 (UInt8.ofNat bytes.length).toNat = bytes
    rw [hLength, Memory.read_write]
  · change 0 + (UInt8.ofNat bytes.length).toNat ≤ sizeofBuffer
    omega

theorem pending_nil (h : ¬ 0 < s.elem) : s.pending = [] := by
  have hElem : s.elem.toNat = 0 := Nat.eq_zero_of_not_pos h
  rw [Port.pending, hElem]
  rfl

theorem refilled_takeByte (s : Port) {b : UInt8} {bytes : List UInt8}
    (h : (b :: bytes).length ≤ sizeofBuffer) :
    (s.refilled (b :: bytes)).takeByte.1 = b ∧ (s.refilled (b :: bytes)).takeByte.2.pending = bytes ∧
      (s.refilled (b :: bytes)).takeByte.2.Inside := by
  obtain ⟨hPending, hInside⟩ := pending_refilled s h
  have hSize : sizeofBuffer = 128 := rfl
  have hElem : 0 < (s.refilled (b :: bytes)).elem := by
    change 0 < (UInt8.ofNat (b :: bytes).length).toNat
    rw [UInt8.toNat_ofNat_of_lt' (show (b :: bytes).length < 2 ^ 8 by omega)]
    exact Nat.succ_pos _
  obtain ⟨hTaken, hInside'⟩ := pending_takeByte hElem hInside
  rw [hPending] at hTaken
  obtain ⟨hFirst, hRest⟩ := List.cons.inj hTaken
  exact ⟨hFirst.symm, hRest.symm, hInside'⟩

def arrival : Option Chunk → List (Option UInt8)
  | some ⟨b :: bytes, _⟩ => (b :: bytes).map some
  | _ => [none]

/-- What the readings bring, byte by byte, with a pause for each of them that brings nothing. -/
def arrivals (reads : List (Option Chunk)) : List (Option UInt8) := reads.flatMap arrival

theorem arrivals_cons_bytes {b : UInt8} {bytes : List UInt8} (hFits : (b :: bytes).length ≤ sizeofBuffer)
    (reads : List (Option Chunk)) :
    arrivals (some ⟨b :: bytes, hFits⟩ :: reads) = some b :: (bytes.map some ++ arrivals reads) := rfl

/-- The next byte, unless there are more pauses before it than the repetitions. -/
def nextByte : Nat → List (Option UInt8) → Option (Option UInt8 × List (Option UInt8))
  | _, [] => none
  | _, some b :: line => some (some b, line)
  | 0, none :: line => some (none, line)
  | n + 1, none :: line => nextByte n line

theorem nextByte_some (n : Nat) (b : UInt8) (line : List (Option UInt8)) :
    nextByte n (some b :: line) = some (some b, line) := by
  cases n <;> rfl

/-- What is still to come: the bytes in the buffer, and behind them those of the readings. -/
def Port.line (s : Port) (reads : List (Option Chunk)) : List (Option UInt8) :=
  s.pending.map some ++ arrivals reads

/-- The call returns the byte, or times out without one; nothing of what it has read is lost. -/
structure Delivers (fd : Nat) (s s' : Port) (out : Outcome) (reads' : List (Option Chunk))
    (b : Option UInt8) (rest : List (Option UInt8)) : Prop where
  byte : out.byte = b
  result : out.result = if b.isSome then 1 else 0
  inside : s'.Inside
  same : s'.fd = s.fd ∧ s'.portName = s.portName ∧ s'.bitrate = s.bitrate
  line : s'.line reads' = rest
  calls : ∀ call ∈ out.calls, ∃ bytes, call = .received fd bytes
  kept : s.pending ++ received out.calls = b.toList ++ s'.pending

theorem Delivers.after {b : Option UInt8} {rest : List (Option UInt8)}
    (h : Delivers fd s s' out reads' b rest) :
    Delivers fd s s' (out.after (.received fd [])) reads' b rest where
  byte := h.byte
  result := h.result
  inside := h.inside
  same := h.same
  line := h.line
  calls := List.forall_mem_cons.mpr ⟨⟨[], rfl⟩, h.calls⟩
  kept := h.kept

theorem delivers_pause (hEmpty : ¬ 0 < s.elem) (hInside : s.Inside) (reads : List (Option Chunk)) :
    Delivers fd s s ⟨0, none, [.received fd []]⟩ reads none (arrivals reads) where
  byte := rfl
  result := rfl
  inside := hInside
  same := ⟨rfl, rfl, rfl⟩
  line := by rw [Port.line, pending_nil hEmpty, List.map_nil, List.nil_append]
  calls := List.forall_mem_cons.mpr ⟨⟨[], rfl⟩, by simp⟩
  kept := by simp [pending_nil hEmpty, Syscall.bytes]

theorem delivers_refilled (hEmpty : ¬ 0 < s.elem) {b : UInt8} {bytes : List UInt8}
    (hFits : (b :: bytes).length ≤ sizeofBuffer) (reads : List (Option Chunk)) :
    Delivers fd s (s.refilled (b :: bytes)).takeByte.2
      ⟨1, some (s.refilled (b :: bytes)).takeByte.1, [.received fd (b :: bytes)]⟩ reads (some b)
      (bytes.map some ++ arrivals reads) := by
  obtain ⟨hFirst, hRest, hInside⟩ := refilled_takeByte s hFits
  constructor
  case byte => exact congrArg some hFirst
  case result => rfl
  case inside => exact hInside
  case same => exact ⟨rfl, rfl, rfl⟩
  case line => rw [Port.line, hRest]
  case calls => exact List.forall_mem_cons.mpr ⟨⟨b :: bytes, rfl⟩, by simp⟩
  case kept => simp [pending_nil hEmpty, hRest, Syscall.bytes]

theorem refill_delivers (hEmpty : ¬ 0 < s.elem) (hInside : s.Inside) (n : UInt16)
    (reads : List (Option Chunk)) :
    Option.Rel (fun x y => Delivers fd s x.1 x.2.1 x.2.2 y.1 y.2) (refill fd s n reads)
      (nextByte n.toNat (arrivals reads)) := by
  induction reads generalizing n with
  | nil =>
    rw [refill, arrivals, List.flatMap_nil, nextByte]
    exact .none
  | cons x reads ih =>
    have hPause : Option.Rel (fun x y => Delivers fd s x.1 x.2.1 x.2.2 y.1 y.2)
        (if 0 < n then
          (refill fd s (n - 1) reads).map fun x => (x.1, x.2.1.after (.received fd []), x.2.2)
          else some (s, ⟨0, none, [.received fd []]⟩, reads))
        (nextByte n.toNat (none :: arrivals reads)) := by
      by_cases hMore : 0 < n
      · have hLess : n.toNat = (n - 1).toNat + 1 := by
          have hPos : 0 < n.toNat := hMore
          have hSub : (n - 1).toNat = n.toNat - 1 :=
            UInt16.toNat_sub_of_le _ _ (UInt16.le_iff_toNat_le.mpr hPos)
          omega
        rw [if_pos hMore, hLess, nextByte]
        exact rel_map_left (ih (n - 1)) fun _ _ h => h.after
      · have hZero : n.toNat = 0 := Nat.eq_zero_of_not_pos hMore
        rw [if_neg hMore, hZero, nextByte]
        exact .some (delivers_pause hEmpty hInside reads)
    rcases x with _ | ⟨_ | ⟨b, bytes⟩, hFits⟩
    · exact hPause
    · exact hPause
    · rw [arrivals_cons_bytes, nextByte_some]
      exact .some (delivers_refilled hEmpty hFits reads)

/-- Reading through the buffer is reading the bytes one by one. -/
theorem serialRead_delivers (hOpen : s.fd = some fd) (hInside : s.Inside) (timeoutMs : UInt32)
    (reads : List (Option Chunk)) :
    Option.Rel (fun x y => Delivers fd s x.1 x.2.1 x.2.2 y.1 y.2) (serialRead s timeoutMs reads)
      (nextByte (attempts timeoutMs).toNat (s.line reads)) := by
  rw [serialRead, hOpen]
  change Option.Rel _ (getSingleChar fd s timeoutMs reads) _
  rw [getSingleChar]
  by_cases hSome : 0 < s.elem
  · obtain ⟨hPending, hInside'⟩ := pending_takeByte hSome hInside
    rw [if_pos hSome, Port.line, hPending, List.map_cons, List.cons_append, nextByte_some]
    refine .some ?_
    exact ⟨rfl, rfl, hInside', ⟨rfl, rfl, rfl⟩, rfl, by simp,
      by rw [hPending, received_nil, List.append_nil]; rfl⟩
  · rw [if_neg hSome, Port.line, pending_nil hSome, List.map_nil, List.nil_append]
    exact refill_delivers hSome hInside _ reads

def Chunk.content (x : Option Chunk) : List UInt8 := (x.map Chunk.bytes).getD []

/-- All bytes of the readings. -/
def content (reads : List (Option Chunk)) : List UInt8 := reads.flatMap Chunk.content

theorem reduceOption_map_some (bytes : List UInt8) : (bytes.map some).reduceOption = bytes := by
  rw [List.reduceOption, List.filterMap_map]
  exact List.filterMap_some

theorem reduceOption_arrivals (reads : List (Option Chunk)) :
    (arrivals reads).reduceOption = content reads := by
  induction reads with
  | nil => rfl
  | cons x reads ih =>
    rw [arrivals, List.flatMap_cons, List.reduceOption_append, ← arrivals, ih, content, content,
      List.flatMap_cons]
    congr 1
    rcases x with _ | ⟨_ | ⟨b, bytes⟩, hFits⟩
    · rfl
    · rfl
    · exact reduceOption_map_some (b :: bytes)

theorem reduceOption_line (s : Port) (reads : List (Option Chunk)) :
    (s.line reads).reduceOption = s.pending ++ content reads := by
  rw [Port.line, List.reduceOption_append, reduceOption_arrivals, reduceOption_map_some]

theorem nextByte_reduceOption {n : Nat} {line rest : List (Option UInt8)} {b : Option UInt8}
    (h : nextByte n line = some (b, rest)) : line.reduceOption = b.toList ++ rest.reduceOption := by
  induction line generalizing n with
  | nil => cases n <;> cases h
  | cons x line ih =>
    cases x with
    | some c =>
      rw [nextByte_some] at h
      cases h
      rfl
    | none =>
      rw [List.reduceOption_cons_of_none]
      cases n with
      | zero =>
        cases h
        rfl
      | succ n => exact ih h

/-- What a call returns, leaves in the buffer and has taken from the readings. -/
structure Accounts (s s' : Port) (out : Outcome) (reads reads' : List (Option Chunk)) : Prop where
  inside : s'.Inside
  returned : s.pending ++ content reads = out.byte.toList ++ (s'.pending ++ content reads')
  received : s.pending ++ received out.calls = out.byte.toList ++ s'.pending

/-- The call neither reads nor touches the buffer. -/
structure Quiet (s s' : Port) (calls : List Syscall) : Prop where
  buffer : s'.buffer = s.buffer
  elem : s'.elem = s.elem
  read : s'.read = s.read
  received : received calls = []

theorem Quiet.refl (s : Port) : Quiet s s [] := ⟨rfl, rfl, rfl, rfl⟩

theorem Quiet.accounts {calls : List Syscall} (h : Quiet s s' calls) (hInside : s.Inside) (result : Int)
    (reads : List (Option Chunk)) : Accounts s s' ⟨result, none, calls⟩ reads reads := by
  have hPending : s'.pending = s.pending := by
    unfold Port.pending
    rw [h.buffer, h.elem, h.read]
  constructor
  · unfold Port.Inside
    rw [h.elem, h.read]
    exact hInside
  · rw [hPending]
    rfl
  · rw [hPending, h.received, List.append_nil]
    rfl

theorem setInterfaceAttribs_received (fd : Nat) (bitrate : UInt64) (o : Opening) :
    received (setInterfaceAttribs fd bitrate o).2 = [] := by
  unfold setInterfaceAttribs
  repeat' split
  all_goals rfl

theorem intOpen_quiet (s : Port) (o : Opening) : Quiet s (intOpen s o).1 (intOpen s o).2.2 := by
  unfold intOpen
  cases o.fd with
  | none => exact ⟨rfl, rfl, rfl, rfl⟩
  | some fd =>
    have hCalls := setInterfaceAttribs_received fd s.bitrate o
    dsimp only
    generalize setInterfaceAttribs fd s.bitrate o = answer at hCalls ⊢
    obtain ⟨set, calls⟩ := answer
    cases set with
    | true => exact ⟨rfl, rfl, rfl, hCalls⟩
    | false =>
      refine ⟨rfl, rfl, rfl, ?_⟩
      cases o.closes <;> exact (received_append calls _).trans (by rw [hCalls]; rfl)

theorem serialOpen_quiet (s : Port) (portName : List UInt8) (bitrate : UInt64) (o : Opening) :
    Quiet s (serialOpen s portName bitrate o).1 (serialOpen s portName bitrate o).2.2 :=
  have h := intOpen_quiet { s with portName, bitrate } o
  ⟨h.buffer, h.elem, h.read, h.received⟩

theorem serialClose_quiet (s : Port) (closes : Bool) :
    Quiet s (serialClose s closes).1 (serialClose s closes).2.2 := by
  unfold serialClose
  cases s.fd with
  | none => exact Quiet.refl s
  | some fd => cases closes <;> exact ⟨rfl, rfl, rfl, rfl⟩

theorem Quiet.trans {s₁ : Port} {calls calls' : List Syscall} (h : Quiet s s₁ calls)
    (h' : Quiet s₁ s' calls') : Quiet s s' (calls ++ calls') :=
  ⟨h'.buffer.trans h.buffer, h'.elem.trans h.elem, h'.read.trans h.read,
    by rw [received_append, h.received, h'.received, List.append_nil]⟩

theorem serialWrite_quiet (s : Port) (buffer : List UInt8) (w : Writing) :
    Quiet s (serialWrite s buffer w).1 (serialWrite s buffer w).2.2 := by
  unfold serialWrite
  have hOpened : Quiet s (if s.fd.isNone then intOpen s w.opening else (s, 0, [])).1
      (if s.fd.isNone then intOpen s w.opening else (s, 0, [])).2.2 := by
    split
    · exact intOpen_quiet s w.opening
    · exact Quiet.refl s
  generalize (if s.fd.isNone then intOpen s w.opening else (s, 0, [])) = opening at hOpened ⊢
  obtain ⟨s₁, opened, calls⟩ := opening
  dsimp only
  split
  · next fd _ _ =>
    have hSent : Quiet s₁ s₁ [.sent fd buffer] := ⟨rfl, rfl, rfl, rfl⟩
    split
    · exact hOpened.trans (hSent.trans (serialClose_quiet s₁ w.closes))
    · exact hOpened.trans hSent
  · exact hOpened

theorem serialRead_accounts {timeoutMs : UInt32} (hInside : s.Inside)
    (h : serialRead s timeoutMs reads = some (s', out, reads')) : Accounts s s' out reads reads' := by
  cases hOpen : s.fd with
  | none =>
    rw [serialRead, hOpen] at h
    cases h
    exact (Quiet.refl s).accounts hInside (-1) reads
  | some fd =>
    have hDelivers := serialRead_delivers hOpen hInside timeoutMs reads
    rw [h] at hDelivers
    obtain ⟨⟨b, rest⟩, hNext, hDelivers⟩ := rel_some_left hDelivers
    dsimp only at hDelivers
    refine ⟨hDelivers.inside, ?_, ?_⟩
    · rw [← reduceOption_line, nextByte_reduceOption hNext, hDelivers.byte, ← hDelivers.line,
        reduceOption_line]
    · rw [hDelivers.byte]
      exact hDelivers.kept

theorem portStep_accounts {op : PortOp} (hInside : s.Inside)
    (h : portStep s reads op = some (s', out, reads')) : Accounts s s' out reads reads' := by
  cases op with
  | «open» portName bitrate o =>
    cases h
    exact (serialOpen_quiet s portName bitrate o).accounts hInside _ reads
  | close closes =>
    cases h
    exact (serialClose_quiet s closes).accounts hInside _ reads
  | read timeoutMs => exact serialRead_accounts hInside h
  | write buffer w =>
    cases h
    exact (serialWrite_quiet s buffer w).accounts hInside _ reads

/-- The bytes that the calls of a run have returned. -/
def returned (outs : List Outcome) : List UInt8 := outs.flatMap fun out => out.byte.toList

theorem portRun_accounts {ops : List PortOp} {outs : List Outcome} (hInside : s.Inside)
    (h : portRun s reads ops = some (s', outs, reads')) :
    s'.Inside ∧ s.pending ++ content reads = returned outs ++ (s'.pending ++ content reads') ∧
      s.pending ++ received (outs.flatMap Outcome.calls) = returned outs ++ s'.pending := by
  induction ops generalizing s reads outs with
  | nil =>
    cases h
    exact ⟨hInside, rfl, List.append_nil _⟩
  | cons op ops ih =>
    obtain ⟨⟨s₁, out, reads₁⟩, hStep, hRest⟩ := Option.bind_eq_some_iff.mp h
    obtain ⟨⟨s₂, outs', reads₂⟩, hRun, hEq⟩ := Option.map_eq_some_iff.mp hRest
    cases hEq
    have hFirst := portStep_accounts hInside hStep
    obtain ⟨hInside', hReturned, hReceived⟩ := ih hFirst.inside hRun
    have hCons : returned (out :: outs') = out.byte.toList ++ returned outs' := List.flatMap_cons
    refine ⟨hInside', ?_, ?_⟩
    · rw [hFirst.returned, hReturned, hCons, List.append_assoc]
    · rw [List.flatMap_cons, received_append, ← List.append_assoc, hFirst.received, List.append_assoc,
        hReceived, hCons, List.append_assoc]

/-- Over every run of the port, whatever is opened, closed and written in it, the calls return the
bytes that were read, each once and in order, but for those that are left in the buffer. -/
theorem portRun_bytes {ops : List PortOp} {outs : List Outcome}
    (h : portRun Port.init reads ops = some (s, outs, reads')) :
    content reads = returned outs ++ s.pending ++ content reads' ∧
      received (outs.flatMap Outcome.calls) = returned outs ++ s.pending ∧
      s.read.toNat + s.elem.toNat ≤ sizeofBuffer := by
  have hInside : Port.init.Inside := Nat.zero_le _
  obtain ⟨hInside', hReturned, hReceived⟩ := portRun_accounts hInside h
  exact ⟨hReturned.trans (List.append_assoc _ _ _).symm, hReceived, hInside'⟩

/-- A link that is reopened after a failed write, with bytes of the first connection in the buffer. -/
def reopened : List PortOp :=
  let opening : Opening := ⟨some 3, true, true, true, true, true⟩
  [.open [0x74] 125000 opening, .read 500, .write [0xC0] ⟨opening, -1, true⟩, .read 500,
    .write [0xC0] ⟨opening, 1, true⟩, .read 500, .read 500]

theorem portRun_bytes_reopened :
    ∃ s outs, portRun Port.init [none, some ⟨[1, 2], by decide⟩, some ⟨[3], by decide⟩] reopened =
        some (s, outs, []) ∧
      content [none, some ⟨[1, 2], by decide⟩, some ⟨[3], by decide⟩] = returned outs ++ s.pending ++ [] ∧
      received (outs.flatMap Outcome.calls) = returned outs ++ s.pending ∧
      s.read.toNat + s.elem.toNat ≤ sizeofBuffer := by
  have hRun : portRun Port.init [none, some ⟨[1, 2], by decide⟩, some ⟨[3], by decide⟩] reopened =
      some (_, _, []) := rfl
  exact ⟨_, _, hRun, portRun_bytes hRun⟩

end CMeshApi.Serial
