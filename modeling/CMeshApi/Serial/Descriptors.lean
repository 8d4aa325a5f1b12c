import CMeshApi.Foundations.Machine
import CMeshApi.Serial.Bytes

/-!
# The descriptor of the link

The system calls of the port, in the order in which they are made, follow one connection after
the other: it is opened, its bitrate is set, bytes are transferred on it, and it is closed before
the next one is opened. The static variable of the module says which one is open.
-/

namespace CMeshApi.Serial

open Machine

structure Connection where
  fd : Nat
  portName : List UInt8
  /-- Once it has been set. -/
  bitrate : Option UInt64
deriving DecidableEq, Repr

/-- A system call that is in order for the open connection, if there is one. -/
def follow : Step (Option Connection) Syscall
  | none, .opened fd portName => some (some ⟨fd, portName, none⟩)
  | none, _ => none
  | some _, .opened _ _ => none
  | some c, .controls fd => if c.fd = fd then some (some c) else none
  | some c, .setsBitrate fd bitrate =>
    if c.fd = fd then some (some { c with bitrate := some bitrate }) else none
  | some c, .received fd _ => if c.fd = fd ∧ c.bitrate.isSome then some (some c) else none
  | some c, .sent fd _ => if c.fd = fd ∧ c.bitrate.isSome then some (some c) else none
  | some c, .closed fd => if c.fd = fd then some none else none
  | some _, .closeFailed _ => none

/-- The connection that the static variables speak of. -/
def Port.connection (s : Port) : Option Connection :=
  s.fd.map fun fd => ⟨fd, s.portName, some s.bitrate⟩

/-- The link is only opened when it is closed, and descriptors can be closed. -/
def PortOp.Contract (s : Port) : PortOp → Prop
  | .open _ _ o => s.fd = none ∧ o.closes = true
  | .close closes => closes = true
  | .read _ => True
  | .write _ w => w.opening.closes = true ∧ w.closes = true

def KeepsContract (s : Port) (reads : List (Option Chunk)) : List PortOp → Prop
  | [] => True
  | op :: ops => op.Contract s ∧
    match portStep s reads op with
    | some (s, _, reads) => KeepsContract s reads ops
    | none => True

variable {s s' : Port} {out : Outcome} {reads reads' : List (Option Chunk)}

theorem intOpen_follows (s : Port) {o : Opening} (hCloses : o.closes = true) :
    run follow none (intOpen s o).2.2 = some (intOpen s o).1.connection ∧
      ((intOpen s o).2.1 < 0 ↔ (intOpen s o).1.fd = none) := by
  unfold intOpen setInterfaceAttribs
  obtain ⟨fd, tcgetattr, tcsetattr, tcgets2, tcsets2, closes⟩ := o
  cases fd with
  | none => exact ⟨rfl, by simp⟩
  | some fd =>
    obtain rfl : closes = true := hCloses
    cases tcgetattr <;> cases tcsetattr <;> cases tcgets2 <;> cases tcsets2 <;>
      simp [run_cons, follow, Port.connection]

theorem serialClose_follows (s : Port) {closes : Bool} (hCloses : closes = true) :
    run follow s.connection (serialClose s closes).2.2 = some (serialClose s closes).1.connection := by
  obtain rfl := hCloses
  unfold serialClose Port.connection
  cases hFd : s.fd with
  | none => simp [hFd]
  | some fd => simp [run_cons, follow]

theorem connection_of_open {fd : Nat} (h : s.fd = some fd) :
    s.connection = some ⟨fd, s.portName, some s.bitrate⟩ := by
  rw [Port.connection, h, Option.map_some]

theorem connection_of_closed (h : s.fd = none) : s.connection = none := by
  rw [Port.connection, h, Option.map_none]

theorem serialWrite_follows (s : Port) (buffer : List UInt8) {w : Writing}
    (hOpening : w.opening.closes = true) (hCloses : w.closes = true) :
    run follow s.connection (serialWrite s buffer w).2.2 = some (serialWrite s buffer w).1.connection := by
  unfold serialWrite
  have hOpened : ∀ x, x = (if s.fd.isNone then intOpen s w.opening else (s, 0, [])) →
      run follow s.connection x.2.2 = some x.1.connection ∧ (x.2.1 < 0 ↔ x.1.fd = none) := by
    rintro x rfl
    cases hFd : s.fd with
    | none =>
      rw [connection_of_closed hFd]
      exact intOpen_follows s hOpening
    | some fd => exact ⟨rfl, by simp [hFd]⟩
  generalize (if s.fd.isNone then intOpen s w.opening else (s, 0, [])) = x at hOpened ⊢
  obtain ⟨s₁, opened, calls⟩ := x
  obtain ⟨hRun, hIff⟩ := hOpened _ rfl
  dsimp only at hRun hIff ⊢
  cases hFd : s₁.fd with
  | none =>
    rw [decide_eq_true (hIff.mpr hFd)]
    exact hRun
  | some fd =>
    have hNot : ¬ opened < 0 := fun hLess => by
      rw [hIff.mp hLess] at hFd
      cases hFd
    have hSent : ∀ later, run follow s₁.connection (.sent fd buffer :: later) =
        run follow s₁.connection later := by
      intro later
      simp [run_cons, connection_of_open hFd, follow]
    rw [decide_eq_false hNot]
    dsimp only
    split
    · rw [run_append, hRun, Option.bind_some, hSent]
      exact serialClose_follows s₁ hCloses
    · rw [run_append, hRun, Option.bind_some, hSent]
      rfl

theorem received_follow {fd : Nat} (hOpen : s.fd = some fd) {calls : List Syscall}
    (hCalls : ∀ call ∈ calls, ∃ bytes, call = .received fd bytes) :
    run follow s.connection calls = some s.connection := by
  induction calls with
  | nil => rfl
  | cons call calls ih =>
    obtain ⟨⟨bytes, rfl⟩, hLater⟩ := List.forall_mem_cons.mp hCalls
    have hStep : follow s.connection (.received fd bytes) = some s.connection := by
      simp [connection_of_open hOpen, follow]
    rw [run_cons, hStep, Option.bind_some]
    exact ih hLater

theorem serialRead_follows {timeoutMs : UInt32} (hInside : s.Inside)
    (h : serialRead s timeoutMs reads = some (s', out, reads')) :
    run follow s.connection out.calls = some s'.connection := by
  cases hOpen : s.fd with
  | none =>
    rw [serialRead, hOpen] at h
    cases h
    rfl
  | some fd =>
    have hRel := serialRead_delivers hOpen hInside timeoutMs reads
    rw [h] at hRel
    obtain ⟨⟨b, rest⟩, -, hDelivers⟩ := Readers.rel_some_left hRel
    obtain ⟨hFd, hName, hBitrate⟩ := hDelivers.same
    have hSame : s'.connection = s.connection := by
      unfold Port.connection
      dsimp only at hFd hName hBitrate
      rw [hFd, hName, hBitrate]
    rw [hSame]
    exact received_follow hOpen hDelivers.calls

theorem portStep_follows {op : PortOp} (hInside : s.Inside) (hContract : op.Contract s)
    (h : portStep s reads op = some (s', out, reads')) :
    run follow s.connection out.calls = some s'.connection := by
  cases op with
  | «open» portName bitrate o =>
    cases h
    rw [connection_of_closed hContract.1]
    exact (intOpen_follows { s with portName, bitrate } hContract.2).1
  | close closes =>
    cases h
    exact serialClose_follows s hContract
  | read timeoutMs => exact serialRead_follows hInside h
  | write buffer w =>
    cases h
    exact serialWrite_follows s buffer hContract.1 hContract.2

theorem portRun_follows {ops : List PortOp} {outs : List Outcome} (hInside : s.Inside)
    (hContract : KeepsContract s reads ops) (h : portRun s reads ops = some (s', outs, reads')) :
    run follow s.connection (outs.flatMap Outcome.calls) = some s'.connection := by
  induction ops generalizing s reads outs with
  | nil =>
    cases h
    rfl
  | cons op ops ih =>
    obtain ⟨⟨s₁, out, reads₁⟩, hStep, hRest⟩ := Option.bind_eq_some_iff.mp h
    obtain ⟨⟨s₂, outs', reads₂⟩, hRun, hEq⟩ := Option.map_eq_some_iff.mp hRest
    cases hEq
    obtain ⟨hOp, hLater⟩ := hContract
    rw [hStep] at hLater
    rw [List.flatMap_cons, run_append, portStep_follows hInside hOp hStep, Option.bind_some]
    exact ih (portStep_accounts hInside hStep).inside hLater hRun

/-- Over every run of the port the system calls are in order, and the connection that is open at
the end is the one that the static variables speak of: none is left behind. -/
theorem portRun_connection {ops : List PortOp} {outs : List Outcome}
    (hContract : KeepsContract Port.init reads ops)
    (h : portRun Port.init reads ops = some (s, outs, reads')) :
    run follow none (outs.flatMap Outcome.calls) = some s.connection :=
  portRun_follows (Nat.zero_le _) hContract h

theorem portRun_connection_reopened :
    ∃ s outs, portRun Port.init [some ⟨[1, 2], by decide⟩, some ⟨[3], by decide⟩] reopened =
        some (s, outs, []) ∧
      run follow none (outs.flatMap Outcome.calls) = some (some ⟨3, [0x74], some 125000⟩) := by
  have hRun : portRun Port.init [some ⟨[1, 2], by decide⟩, some ⟨[3], by decide⟩] reopened =
      some (_, _, []) := rfl
  have hContract : KeepsContract Port.init [some ⟨[1, 2], by decide⟩, some ⟨[3], by decide⟩] reopened :=
    ⟨⟨rfl, rfl⟩, trivial, ⟨rfl, rfl⟩, trivial, ⟨rfl, rfl⟩, trivial, trivial, trivial⟩
  exact ⟨_, _, hRun, portRun_connection hContract hRun⟩

end CMeshApi.Serial
