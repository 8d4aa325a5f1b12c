import CMeshApi.Foundations.Memory

/-!
# The serial port

`serial.c` and `serial_termios2.c`. What the system calls return comes with the operation,
and a call of the module says which system calls it has made. The bytes of a `read` are kept
in a buffer of the module and handed out one by one.
-/

namespace CMeshApi.Serial

/-- `sizeof(m_buffer)`. -/
def sizeofBuffer : Nat := 128

/-- What one `read` brings: never more than it has been given room for. -/
structure Chunk where
  bytes : List UInt8
  fits : bytes.length ≤ sizeofBuffer
deriving DecidableEq, Repr

/-- What the system calls of an opening return. -/
structure Opening where
  /-- The descriptor, or none where `open` fails. -/
  fd : Option Nat
  tcgetattr : Bool
  tcsetattr : Bool
  tcgets2 : Bool
  tcsets2 : Bool
  /-- Whether the `close` after a failure works. -/
  closes : Bool
deriving DecidableEq, Repr

/-- A system call that has been made on a descriptor. -/
inductive Syscall where
  | opened (fd : Nat) (portName : List UInt8)
  | controls (fd : Nat)
  | setsBitrate (fd : Nat) (bitrate : UInt64)
  | received (fd : Nat) (bytes : List UInt8)
  | sent (fd : Nat) (bytes : List UInt8)
  | closed (fd : Nat)
  /-- The system may have given up the descriptor all the same. -/
  | closeFailed (fd : Nat)
deriving DecidableEq, Repr

/-- The static variables of the module, those of `get_single_char` included. -/
structure Port where
  fd : Option Nat
  portName : List UInt8
  bitrate : UInt64
  buffer : Memory UInt8
  elem : UInt8
  read : UInt8

def Port.init : Port := ⟨none, [], 0, fun _ => 0, 0, 0⟩

/-- Each setting is tried only after the one before it has worked, but for the two of the latency,
which may fail. -/
def setInterfaceAttribs (fd : Nat) (bitrate : UInt64) (o : Opening) : Bool × List Syscall :=
  if !o.tcgetattr then (false, [.controls fd])
  else if !o.tcsetattr then (false, [.controls fd, .controls fd])
  else if !o.tcgets2 then (false, [.controls fd, .controls fd, .controls fd])
  else if !o.tcsets2 then (false, [.controls fd, .controls fd, .controls fd, .controls fd])
  else
    (true, [.controls fd, .controls fd, .controls fd, .setsBitrate fd bitrate, .controls fd,
      .controls fd])

def intOpen (s : Port) (o : Opening) : Port × Int × List Syscall :=
  match o.fd with
  | none => ({ s with fd := none }, -1, [])
  | some fd =>
    match setInterfaceAttribs fd s.bitrate o with
    | (true, calls) => ({ s with fd := some fd }, 0, .opened fd s.portName :: calls)
    | (false, calls) =>
      -- the result of this `close` is not looked at
      ({ s with fd := none }, -1,
        .opened fd s.portName :: calls ++ [if o.closes then .closed fd else .closeFailed fd])

/-- The name is shorter than the 256 bytes of `m_port_name`. -/
def serialOpen (s : Port) (portName : List UInt8) (bitrate : UInt64) (o : Opening) :
    Port × Int × List Syscall :=
  intOpen { s with portName, bitrate } o

/-- The number of a descriptor that could not be closed is kept. -/
def serialClose (s : Port) (closes : Bool) : Port × Int × List Syscall :=
  match s.fd with
  | none => (s, -1, [])
  | some fd => if closes then ({ s with fd := none }, 0, [.closed fd]) else (s, -1, [.closeFailed fd])

/-- How often a `read` of at most 100 ms is repeated after the first one. -/
def attempts (timeoutMs : UInt32) : UInt16 := ((timeoutMs + 99) / 100 - 1).toUInt16

/-- What a call returns: the result, the byte that comes with the result 1, and the system calls. -/
structure Outcome where
  result : Int
  byte : Option UInt8
  calls : List Syscall
deriving DecidableEq, Repr

/-- The next byte of the buffer, which is not empty. -/
def Port.takeByte (s : Port) : UInt8 × Port :=
  (s.buffer s.read.toNat, { s with read := s.read + 1, elem := s.elem - 1 })

def Port.refilled (s : Port) (bytes : List UInt8) : Port :=
  { s with buffer := s.buffer.write 0 bytes, elem := .ofNat bytes.length, read := 0 }

/-- What a call has done before goes on with it. -/
def Outcome.after (call : Syscall) (out : Outcome) : Outcome := { out with calls := call :: out.calls }

/-- The loop of `get_single_char`; each round takes what one `read` returns, which is `none` for an
error. It waits while there is nothing to be returned. -/
def refill (fd : Nat) (s : Port) :
    UInt16 → List (Option Chunk) → Option (Port × Outcome × List (Option Chunk))
  | _, [] => none
  | n, x :: reads =>
    match x with
    | some ⟨b :: bytes, _⟩ =>
      let (c, s) := (s.refilled (b :: bytes)).takeByte
      some (s, ⟨1, some c, [.received fd (b :: bytes)]⟩, reads)
    | _ =>
      if 0 < n then
        (refill fd s (n - 1) reads).map fun (s, out, reads) => (s, out.after (.received fd []), reads)
      else some (s, ⟨0, none, [.received fd []]⟩, reads)

def getSingleChar (fd : Nat) (s : Port) (timeoutMs : UInt32) (reads : List (Option Chunk)) :
    Option (Port × Outcome × List (Option Chunk)) :=
  if 0 < s.elem then
    let (c, s) := s.takeByte
    some (s, ⟨1, some c, []⟩, reads)
  else refill fd s (attempts timeoutMs) reads

/-- `none` while it waits. What is left of the readings is for the next calls. -/
def serialRead (s : Port) (timeoutMs : UInt32) (reads : List (Option Chunk)) :
    Option (Port × Outcome × List (Option Chunk)) :=
  match s.fd with
  | none => some (s, ⟨-1, none, []⟩, reads)
  | some fd => getSingleChar fd s timeoutMs reads

/-- What the system calls of a `Serial_write` return; `write` gives a negative result for an error. -/
structure Writing where
  opening : Opening
  written : Int
  closes : Bool
deriving DecidableEq, Repr

def serialWrite (s : Port) (buffer : List UInt8) (w : Writing) : Port × Int × List Syscall :=
  let (s, opened, calls) := if s.fd.isNone then intOpen s w.opening else (s, 0, [])
  match s.fd, decide (opened < 0) with
  | some fd, false =>
    if w.written < 0 then
      let (s, _, closing) := serialClose s w.closes
      (s, 0, calls ++ .sent fd buffer :: closing)
    else (s, w.written, calls ++ [.sent fd buffer])
  | _, _ => (s, 0, calls)

inductive PortOp where
  | open (portName : List UInt8) (bitrate : UInt64) (o : Opening)
  | close (closes : Bool)
  | read (timeoutMs : UInt32)
  | write (buffer : List UInt8) (w : Writing)
deriving DecidableEq, Repr

def noByte : Port × Int × List Syscall → Port × Outcome
  | (s, result, calls) => (s, ⟨result, none, calls⟩)

/-- The readings are those that the calls of `read` along the run return, in order. -/
def portStep (s : Port) (reads : List (Option Chunk)) :
    PortOp → Option (Port × Outcome × List (Option Chunk))
  | .open portName bitrate o =>
    let (s, out) := noByte (serialOpen s portName bitrate o)
    some (s, out, reads)
  | .close closes =>
    let (s, out) := noByte (serialClose s closes)
    some (s, out, reads)
  | .read timeoutMs => serialRead s timeoutMs reads
  | .write buffer w =>
    let (s, out) := noByte (serialWrite s buffer w)
    some (s, out, reads)

/-- `none` when one of the calls waits. -/
def portRun (s : Port) (reads : List (Option Chunk)) :
    List PortOp → Option (Port × List Outcome × List (Option Chunk))
  | [] => some (s, [], reads)
  | op :: ops =>
    (portStep s reads op).bind fun (s, out, reads) =>
      (portRun s reads ops).map fun (s, outs, reads) => (s, out :: outs, reads)

end CMeshApi.Serial
