import CMeshApi.Proto.Frames

/-!
# The autostart of a running stack

Three handlers clear the autostart before they stop the stack, and set it again only
after a start that succeeded. A stack that refuses the stop is still running then, the
start answers that it is, and the autostart stays cleared.
-/

namespace CMeshApi.Proto

open Programs Wpc

/-- What counts of the node: `refusesStop` tells for each stop request to come whether a running
stack refuses it, `updateWhileRunning` what a running stack answers to the next update. -/
structure Power where
  running : Bool
  autostart : UInt8
  refusesStop : Nat → Bool
  updateWhileRunning : Int

def Power.stop (p : Power) : Power :=
  { p with
    running := p.running && p.refusesStop 0
    refusesStop := fun k => p.refusesStop (k + 1) }

def Power.start (p : Power) : Power := { p with running := true }

def Power.setAutostart (p : Power) (v : UInt8) : Power := { p with autostart := v }

def Power.Kept (p : Power) : Prop := p.running = true → p.autostart = 1

def Power.Lost (p : Power) : Prop := p.running = true ∧ p.autostart = 0

theorem Power.Lost.not_kept {p : Power} (h : p.Lost) : ¬ p.Kept := by
  intro hKept
  exact absurd (h.2.symm.trans (hKept h.1)) (by decide)

theorem Power.lost_of_refused {p : Power} (hRunning : p.running = true)
    (hRefused : p.refusesStop 0 = true) : (p.setAutostart 0).stop.Lost :=
  ⟨Bool.and_eq_true_iff.mpr ⟨hRunning, hRefused⟩, rfl⟩

theorem Power.kept_of_stopped {p : Power} (h : ¬ (p.running = true ∧ p.refusesStop 0 = true)) :
    (p.setAutostart 0).stop.Kept := fun hRunning => absurd (Bool.and_eq_true_iff.mp hRunning) h

theorem Power.Kept.stop {p : Power} (h : p.Kept) : p.stop.Kept :=
  fun hRunning => h (Bool.and_eq_true_iff.mp hRunning).1

/-- The autostart is lost just under the condition, and otherwise kept. -/
def Power.LostIff (p : Power) (c : Prop) : Prop := (c → p.Lost) ∧ (¬ c → p.Kept)

theorem Power.LostIff.kept_iff {p : Power} {c : Prop} (h : p.LostIff c) : p.Kept ↔ ¬ c :=
  ⟨fun hKept hCond => (h.1 hCond).not_kept hKept, h.2⟩

/-- The first stop that the handler asks for is refused by a running stack. -/
def FirstRefused (p : Power) : Prop := p.running = true ∧ p.refusesStop 0 = true

/-- Without a stop the autostart stays, and with one it hangs on the answer to it. -/
theorem Power.LostIff.of_end {p q : Power} {c : Prop}
    (hEnd : (p.Kept → q.Kept) ∧ (p.Lost → q.Lost)) (hLost : c → p.Lost) (hKept : ¬ c → p.Kept) :
    q.LostIff c := ⟨fun h => hEnd.2 (hLost h), fun h => hEnd.1 (hKept h)⟩

/-- The requests that may change the running flag, the autostart, or the answers to come. -/
def setsPower (q : Request) : Bool :=
  q.primitiveId == msapStackStartRequestId || q.primitiveId == msapStackStopRequestId ||
    q.primitiveId == msapScratchUpdateRequestId ||
    match q.payload with
    | .attributeWrite id _ _ => q.primitiveId == Sap.msap.writeRequest && id == msapAutostart
    | _ => false

section Node

variable {ν : Type}

def SamePower (power : ν → Power) (w t : World Gateway ν) : Prop := power t.node = power w.node

/-- A node with a running flag and an autostart attribute. Of a stop it is left open what is
answered; of a start that is accepted the status can be read at once. -/
structure PoweredNode (env : Environment ν) (power : ν → Power) : Prop where
  keeps : Keeps env power
  other : ∀ q, setsPower q = false → ∀ n, power (env.request q n).2 = power n
  autostart : ∀ v n, (env.request (attributeWrite .msap msapAutostart [v]) n).1 = 0 ∧
    power (env.request (attributeWrite .msap msapAutostart [v]) n).2 = (power n).setAutostart v
  stop : ∀ n, power (env.request stackStop n).2 = (power n).stop
  startRunning : ∀ n, (power n).running = true →
    startResult (env.request (stackStart 0) n).1 = some .stackAlreadyStarted ∧
      power (env.request (stackStart 0) n).2 = power n
  startStopped : ∀ n, (power n).running = false →
    ((env.request (stackStart 0) n).1 = 0 ∧ power (env.request (stackStart 0) n).2 = (power n).start) ∨
      ((env.request (stackStart 0) n).1 ≠ 0 ∧ power (env.request (stackStart 0) n).2 = power n)
  update : ∀ n, ((power n).running = true →
      (env.request scratchpadUpdate n).1 = (power n).updateWhileRunning) ∧
    ∃ answer, power (env.request scratchpadUpdate n).2 =
      { power n with updateWhileRunning := answer }
  status : ∀ n, (power n).running = true →
    ∃ status, (env.attributeRead .msap msapStackStatus n).1 = (0, [status])
  clock : ∀ n, (env.timestampMsMonotonic (env.timestampMsMonotonic n).2).1 <
    (env.timestampMsMonotonic n).1 + 2000

variable {env : Environment ν} {power : ν → Power} (node : PoweredNode env power)

include node

theorem PoweredNode.asks : Asks env (SamePower power) :=
  node.keeps.asks (composes_eq fun w : World Gateway ν => power w.node) fun _ _ h => h

theorem PoweredNode.refreshes : Refreshes env (SamePower power) :=
  refreshes_of_stores node.asks (fun _ _ => rfl) fun _ _ => rfl

theorem PoweredNode.setAutostart {v : UInt8} {w t : World Gateway ν} {res : AppRes}
    (h : Returns (wpcSetAutostart env v) w res t) :
    power t.node = (power w.node).setAutostart v := by
  unfold wpcSetAutostart writeAttribute attributeWriteRequest at h
  simp only [returns_bind, returns_ite, returns_ask, returns_pure] at h
  obtain ⟨_, _, hRequest, -, rfl⟩ := h
  rcases hRequest with ⟨hLong, -, -⟩ | ⟨-, -, rfl⟩
  · exact absurd hLong (Nat.not_lt.mpr (show 1 ≤ 40 by omega))
  · exact (node.autostart v w.node).2

/-- The stop ends with its request; the wait and the polls that follow change nothing. -/
theorem PoweredNode.stopStack {w t : World Gateway ν} {res : AppRes}
    (h : Returns (wpcStopStack env) w res t) : power t.node = (power w.node).stop :=
  (node.asks.returns_wpcStopStack h).trans (node.stop w.node)

theorem PoweredNode.getStackStatus {w t : World Gateway ν} {b : Bool}
    (hRunning : (power w.node).running = true) (h : Returns (getStackStatus env 2) w b t) :
    b = true := by
  unfold Wpc.getStackStatus getStackStatusBy at h
  simp only [returns_bind, returns_ask] at h
  obtain ⟨now, u, ⟨rfl, rfl⟩, hPoll⟩ := h
  cases hRounds : env.rounds with
  | zero =>
    rw [hRounds] at hPoll
    exact absurd hPoll not_returns_unfinished
  | succ n =>
    rw [hRounds] at hPoll
    unfold pollStackStatusBy at hPoll
    simp only [returns_bind, returns_ask] at hPoll
    obtain ⟨now, v, ⟨rfl, rfl⟩, hStep⟩ := hPoll
    have hClock : (env.timestampMsMonotonic (env.timestampMsMonotonic w.node).2).1 <
        (env.timestampMsMonotonic w.node).1 + UInt16.toNat 2 * 1000 := node.clock w.node
    rw [if_pos hClock, returns_bind] at hStep
    obtain ⟨result, v, hRead, hResult⟩ := hStep
    have hSame : power (env.timestampMsMonotonic (env.timestampMsMonotonic w.node).2).2 =
        power w.node :=
      (node.asks.timestampMsMonotonic _).trans (node.asks.timestampMsMonotonic w)
    obtain ⟨status, hStatus⟩ := node.status _ ((congrArg Power.running hSame).trans hRunning)
    have hOk := ((returns_readAttribute env).mp hRead).1
    dsimp only at hOk
    rw [hStatus] at hOk
    subst hOk
    exact (returns_pure.mp hResult).1

/-- A start succeeds on a stack that is stopped, or changes nothing. -/
theorem PoweredNode.startStack {w t : World Gateway ν} {res : AppRes}
    (h : Returns (startStack env) w res t) :
    (res = .ok ∧ (power w.node).running = false ∧ power t.node = (power w.node).start) ∨
      (res ≠ .ok ∧ power t.node = power w.node) := by
  obtain ⟨g, v, hGateway, hStart⟩ := returns_bind.mp h
  rw [(returns_read.mp hGateway).2] at hStart
  obtain ⟨answer, u, hRequest, hRest⟩ := returns_bind.mp hStart
  obtain ⟨rfl, hCallback⟩ := (returns_msapStackStartRequest env).mp hRequest
  have hPower : power u.node = power (env.request (stackStart 0) w.node).2 := by
    cases hRegistered : g.stackStatusCb with
    | false =>
      rw [hRegistered] at hCallback
      rw [show u = _ from hCallback]
    | true =>
      rw [hRegistered, if_pos rfl] at hCallback
      dsimp only at hCallback
      split at hCallback
      · exact (node.refreshes.onStackStatusReceived 0).returns hCallback
      · rw [show u = _ from hCallback]
  cases hRunning : (power w.node).running with
  | true =>
    obtain ⟨hAnswer, hSame⟩ := node.startRunning w.node hRunning
    rw [hAnswer] at hRest
    obtain ⟨rfl, rfl⟩ := returns_pure.mp hRest
    exact .inr ⟨nofun, hPower.trans hSame⟩
  | false =>
    rcases node.startStopped w.node hRunning with ⟨hAnswer, hStarted⟩ | ⟨hAnswer, hSame⟩
    · rw [startResult_eq_none.mpr hAnswer] at hRest
      rw [hStarted] at hPower
      obtain ⟨told, v, hPoll, hResult⟩ := returns_bind.mp hRest
      have hTold := node.getStackStatus (congrArg Power.running hPower) hPoll
      have hAfter : power v.node = power u.node := (node.asks.getStackStatus 2).returns hPoll
      rw [hTold] at hResult
      obtain ⟨rfl, rfl⟩ := returns_pure.mp hResult
      exact .inl ⟨rfl, rfl, hAfter.trans hPower⟩
    · cases hError : startResult (env.request (stackStart 0) w.node).1 with
      | none => exact absurd (startResult_eq_none.mp hError) hAnswer
      | some error =>
        rw [hError] at hRest
        obtain ⟨rfl, rfl⟩ := returns_pure.mp hRest
        refine .inr ⟨?_, hPower.trans hSame⟩
        rintro rfl
        exact startResult_ne_ok _ hError

theorem PoweredNode.restarted {w u t : World Gateway ν} {res : AppRes}
    (hStart : Returns (Proto.startStack env) w res u)
    (hAfter : (res = .ok ∧ ∃ res', Returns (wpcSetAutostart env 1) u res' t) ∨ (res ≠ .ok ∧ t = u)) :
    ((power w.node).Kept → (power t.node).Kept) ∧ ((power w.node).Lost → (power t.node).Lost) := by
  rcases node.startStack hStart with ⟨hOk, hStopped, hStarted⟩ | ⟨hRefused, hSame⟩
  · rcases hAfter with ⟨-, _, hAutostart⟩ | ⟨hNotOk, -⟩
    · have hPower := node.setAutostart hAutostart
      constructor
      · intro _ _
        rw [hPower]
        rfl
      · intro hLost
        exact absurd (hLost.1.symm.trans hStopped) (by decide)
    · exact absurd hOk hNotOk
  · rcases hAfter with ⟨hOk, -⟩ | ⟨-, rfl⟩
    · exact absurd hOk hRefused
    · rw [hSame]
      exact ⟨id, id⟩

theorem PoweredNode.startWithAutostart {w t : World Gateway ν} {res : AppRes}
    (h : Returns (startWithAutostart env) w res t) :
    ((power w.node).Kept → (power t.node).Kept) ∧ ((power w.node).Lost → (power t.node).Lost) := by
  obtain ⟨res', u, hStart, hRest⟩ := returns_bind.mp h
  rcases returns_ite.mp hRest with ⟨hFailed, hPure⟩ | ⟨hOk, hAutostart⟩
  · exact node.restarted hStart (.inr ⟨hFailed, (returns_pure.mp hPure).2⟩)
  · obtain ⟨_, v, hWrite, hPure⟩ := returns_bind.mp hAutostart
    obtain ⟨-, rfl⟩ := returns_pure.mp hPure
    exact node.restarted hStart (.inl ⟨by_contra hOk, _, hWrite⟩)

theorem PoweredNode.restartForConfig {p p' : Progress} {w t : World Gateway ν}
    (h : Returns (restartForConfig env p) w p' t) :
    ((power w.node).Kept → (power t.node).Kept) ∧ ((power w.node).Lost → (power t.node).Lost) := by
  obtain ⟨res', u, hStart, hRest⟩ := returns_bind.mp h
  rcases returns_ite.mp hRest with ⟨hFailed, hPure⟩ | ⟨hOk, hAutostart⟩
  · exact node.restarted hStart (.inr ⟨hFailed, (returns_pure.mp hPure).2⟩)
  · obtain ⟨_, v, hWrite, hStore⟩ := returns_bind.mp hAutostart
    obtain ⟨_, x, hChange, hPure⟩ := returns_bind.mp hStore
    obtain ⟨-, rfl⟩ := returns_pure.mp hPure
    have hSame : power t.node = power v.node := (node.refreshes.stackStatus _).changeConfig.returns hChange
    rw [hSame]
    exact node.restarted hStart (.inl ⟨by_contra hOk, _, hWrite⟩)

theorem PoweredNode.stopIfRunning {w t : World Gateway ν} {stopped : Bool}
    (h : Returns (stopIfRunning env) w stopped t) :
    (stopped = true ∧ statusRead env w.node = .ok 0 ∧
        power t.node = ((power w.node).setAutostart 0).stop) ∨
      (stopped = false ∧ statusRead env w.node ≠ .ok 0 ∧ power t.node = power w.node) := by
  obtain ⟨running, u, hRunning, hRest⟩ := returns_bind.mp h
  have hSame : power u.node = power w.node := (Reading.stackRunning node.asks).returns hRunning
  have hTold := stackRunning_iff env hRunning
  rcases returns_ite.mp hRest with ⟨hYes, hStop⟩ | ⟨hNo, hPure⟩
  · obtain ⟨_, x, hAutostart, hStop⟩ := returns_bind.mp hStop
    obtain ⟨_, y, hStop, hPure⟩ := returns_bind.mp hStop
    obtain ⟨rfl, rfl⟩ := returns_pure.mp hPure
    refine .inl ⟨rfl, hTold.mp hYes, ?_⟩
    rw [node.stopStack hStop, node.setAutostart hAutostart, hSame]
  · obtain ⟨rfl, rfl⟩ := returns_pure.mp hPure
    exact .inr ⟨rfl, fun hOk => hNo (hTold.mpr hOk), hSame⟩

theorem PoweredNode.setFields (cfg : SinkNewConfig) (p : Progress) :
    Moves (SamePower power) (setFields env cfg p) := by
  apply node.refreshes.setFields fun _ _ => rfl
  · unfold configAttributes
    simp only [List.forall_mem_cons]
    exact ⟨fun _ _ => node.other _ rfl _, fun _ _ => node.other _ rfl _, fun _ _ => node.other _ rfl _,
      fun _ _ => node.other _ rfl _, fun _ _ => node.other _ rfl _, fun _ _ => node.other _ rfl _,
      fun _ _ => node.other _ rfl _, nofun⟩
  · exact fun _ _ _ _ => node.other _ rfl _

theorem PoweredNode.updateScratchpad (req : UploadScratchpadReq) :
    Moves (SamePower power) (updateScratchpad env req) :=
  node.refreshes.updateScratchpad (fun _ => Moves.change fun _ => rfl) (fun _ _ _ => node.other _ rfl _)
    (fun _ _ _ => node.other _ rfl _) (fun _ => node.other _ rfl _) req

theorem PoweredNode.stopForConfig {p p' : Progress} {w t : World Gateway ν}
    (h : Returns (stopForConfig env p) w p' t) :
    power t.node = ((power w.node).setAutostart 0).stop := by
  obtain ⟨_, u, hClear, hSetValue⟩ := returns_bind.mp h
  obtain ⟨_, v, hRequest, hStored⟩ := returns_bind.mp hSetValue
  have hAfter : power t.node = power v.node := by
    rcases returns_ite.mp hStored with ⟨-, hPure⟩ | ⟨-, hChange⟩
    · exact congrArg (fun s : World Gateway ν => power s.node) (returns_pure.mp hPure).2
    · obtain ⟨_, x, hChange, hPure⟩ := returns_bind.mp hChange
      obtain ⟨-, rfl⟩ := returns_pure.mp hPure
      exact (node.refreshes.stackStatus _).changeConfig.returns hChange
  rw [hAfter, node.stopStack hRequest, node.setAutostart hClear]

omit node in
theorem cached_statusRead {w t : World Gateway ν} {b : Bool} {status : UInt8}
    (h : Returns (getValueFromNode (wpcGetStackStatus env) fun v c => { c with stackStatus := v }) w b t)
    (hOk : statusRead env w.node = .ok status) : t.gateway.sinkConfig.stackStatus = status := by
  obtain ⟨result, u, hResult, hStore⟩ := returns_bind.mp h
  have hEq : result = .ok status := ((returns_readAttribute env).mp hResult).1.trans hOk
  subst hEq
  obtain ⟨_, v, hChange, hPure⟩ := returns_bind.mp hStore
  obtain ⟨-, rfl⟩ := returns_pure.mp hPure
  rw [returns_change.mp hChange]

theorem PoweredNode.statusRead {n : ν} (h : (power n).running = true) :
    ∃ status, statusRead env n = .ok status := by
  obtain ⟨status, hAnswer⟩ := node.status n h
  refine ⟨status, ?_⟩
  rw [Proto.statusRead, hAnswer]
  rfl

theorem PoweredNode.applyConfig {cfg : SinkNewConfig} {w t : World Gateway ν} {res : AppRes}
    (hAutostart : (power w.node).autostart = 1) (h : Returns (applyConfig env cfg) w res t) :
    (power t.node).LostIff (FirstRefused (power w.node) ∧
      ∃ status, Proto.statusRead env w.node = .ok status ∧
        (stackActions status cfg).stopStack = true) := by
  obtain ⟨_, u, hStatus, hRest⟩ := returns_bind.mp h
  obtain ⟨g, u', hGateway, hRest⟩ := returns_bind.mp hRest
  obtain ⟨rfl, rfl⟩ := returns_read.mp hGateway
  obtain ⟨p, v, hStop, hRest⟩ := returns_bind.mp hRest
  obtain ⟨p', x, hFields, hRest⟩ := returns_bind.mp hRest
  obtain ⟨_, y, hRestart, hRest⟩ := returns_bind.mp hRest
  obtain ⟨_, z, hReport, hRest⟩ := returns_bind.mp hRest
  obtain ⟨-, rfl⟩ := returns_pure.mp hRest
  have hRead : power u'.node = power w.node :=
    (Reading.getValueFromNode node.asks (node.asks.readAttribute _ _ _ _) fun _ =>
      node.refreshes.stackStatus _).returns hStatus
  have hSet : power x.node = power v.node := (node.setFields cfg p).returns hFields
  have hReported : power t.node = power y.node := by
    refine Moves.returns (r := SamePower power) ?_ hReport
    exact Moves.ite (node.refreshes.onStackStatusReceived _) (.pure node.asks.composes _)
  have hEnd : ((power v.node).Kept → (power t.node).Kept) ∧
      ((power v.node).Lost → (power t.node).Lost) := by
    rw [hReported, ← hSet]
    rcases returns_ite.mp hRestart with ⟨-, hStart⟩ | ⟨-, hPure⟩
    · exact node.restartForConfig hStart
    · obtain ⟨-, rfl⟩ := returns_pure.mp hPure
      exact ⟨id, id⟩
  rcases returns_ite.mp hStop with ⟨hStops, hStopped⟩ | ⟨hStays, hPure⟩
  · rw [node.stopForConfig hStopped, hRead] at hEnd
    apply Power.LostIff.of_end hEnd
    · rintro ⟨⟨hRunning, hRefused⟩, -⟩
      exact Power.lost_of_refused hRunning hRefused
    · intro hNot
      apply Power.kept_of_stopped
      rintro ⟨hRunning, hRefused⟩
      -- of a running stack the status was read, so that the decision to stop rests on it
      obtain ⟨status, hOk⟩ := node.statusRead hRunning
      exact hNot ⟨⟨hRunning, hRefused⟩, status, hOk, cached_statusRead hStatus hOk ▸ hStops⟩
  · obtain ⟨-, rfl⟩ := returns_pure.mp hPure
    rw [hRead] at hEnd
    apply Power.LostIff.of_end hEnd
    · rintro ⟨-, status, hOk, hStops⟩
      exact absurd (cached_statusRead hStatus hOk ▸ hStops) hStays
    · exact fun _ _ => hAutostart

/-- What a stop at the beginning of a handler leaves, if the rest of it keeps what is kept and
loses what is lost. -/
theorem PoweredNode.stopIfRunning_lostIff {w u : World Gateway ν} {q : Power} {stopped : Bool}
    (hAutostart : (power w.node).autostart = 1) (hStop : Returns (Proto.stopIfRunning env) w stopped u)
    (hEnd : ((power u.node).Kept → q.Kept) ∧ ((power u.node).Lost → q.Lost)) :
    q.LostIff (FirstRefused (power w.node) ∧ Proto.statusRead env w.node = .ok 0) := by
  rcases node.stopIfRunning hStop with ⟨-, hRead, hPower⟩ | ⟨-, hRead, hPower⟩
  · rw [hPower] at hEnd
    apply Power.LostIff.of_end hEnd
    · rintro ⟨⟨hRunning, hRefused⟩, -⟩
      exact Power.lost_of_refused hRunning hRefused
    · intro hNot
      exact Power.kept_of_stopped fun hFirst => hNot ⟨hFirst, hRead⟩
  · rw [hPower] at hEnd
    apply Power.LostIff.of_end hEnd
    · rintro ⟨-, hOk⟩
      exact absurd hOk hRead
    · exact fun _ _ => hAutostart

theorem PoweredNode.uploadScratchpad {req : UploadScratchpadReq} {w t : World Gateway ν} {res : AppRes}
    (hAutostart : (power w.node).autostart = 1) (h : Returns (uploadScratchpad env req) w res t) :
    (power t.node).LostIff
      (FirstRefused (power w.node) ∧ Proto.statusRead env w.node = .ok 0) := by
  obtain ⟨stopped, u, hStop, hRest⟩ := returns_bind.mp h
  obtain ⟨_, u', hFlag, hRest⟩ := returns_bind.mp hRest
  obtain ⟨res', v, hUpdate, hRest⟩ := returns_bind.mp hRest
  have hFlagged : power u'.node = power u.node := by
    refine Moves.returns (r := SamePower power) ?_ hFlag
    exact Moves.ite (Moves.change fun _ => rfl) (.pure node.asks.composes _)
  have hUpdated : power v.node = power u.node :=
    ((node.updateScratchpad req).returns hUpdate).trans hFlagged
  apply node.stopIfRunning_lostIff hAutostart hStop
  rw [← hUpdated]
  obtain ⟨g, v', hGateway, hRest⟩ := returns_bind.mp hRest
  obtain ⟨rfl, rfl⟩ := returns_read.mp hGateway
  rcases returns_ite.mp hRest with ⟨-, hRestart⟩ | ⟨-, hPure⟩
  · obtain ⟨_, x, hStart, hRest⟩ := returns_bind.mp hRestart
    obtain ⟨_, y, hClear, hPure⟩ := returns_bind.mp hRest
    obtain ⟨-, rfl⟩ := returns_pure.mp hPure
    have hSame : power t.node = power x.node := by rw [returns_change.mp hClear]
    rw [hSame]
    exact node.startWithAutostart hStart
  · obtain ⟨-, rfl⟩ := returns_pure.mp hPure
    exact ⟨id, id⟩

/-- An update that a running stack accepts is followed by another stop. -/
theorem PoweredNode.updateAndReboot {w t : World Gateway ν} {res : AppRes}
    (h : Returns (updateAndReboot env) w res t) :
    ((power w.node).Kept → (power t.node).Kept) ∧
      ((power w.node).Lost → (power t.node).LostIff
        (convertErrorCode scratchpadUpdateLocalErrorCodeLut (power w.node).updateWhileRunning ≠ .ok ∨
          (power w.node).refusesStop 0 = true)) := by
  obtain ⟨res', u, hUpdate, hRest⟩ := returns_bind.mp h
  obtain ⟨answer, u', hRequest, hPure⟩ := returns_bind.mp hUpdate
  obtain ⟨rfl, rfl⟩ := returns_pure.mp hPure
  obtain ⟨rfl, hNode⟩ := returns_ask.mp hRequest
  obtain ⟨hAnswer, next, hPower⟩ := node.update w.node
  have hUpdated : power u.node = { power w.node with updateWhileRunning := next } := by
    rw [hNode]
    exact hPower
  rcases returns_ite.mp hRest with ⟨hFailed, hPure⟩ | ⟨hOk, hStop⟩
  · obtain ⟨-, rfl⟩ := returns_pure.mp hPure
    rw [hUpdated]
    refine ⟨id, fun hLost => ⟨fun _ => hLost, fun hNot => absurd (.inl ?_) hNot⟩⟩
    rw [← hAnswer hLost.1]
    exact hFailed
  · rw [node.stopStack hStop, hUpdated]
    refine ⟨Power.Kept.stop, fun hLost => ⟨?_, ?_⟩⟩
    · rintro (hFailed | hRefused)
      · rw [← hAnswer hLost.1] at hFailed
        exact absurd (by_contra hOk) hFailed
      · exact ⟨Bool.and_eq_true_iff.mpr ⟨hLost.1, hRefused⟩, hLost.2⟩
    · intro hNot hRunning
      exact absurd (.inr (Bool.and_eq_true_iff.mp hRunning).2) hNot

theorem PoweredNode.processScratchpad {w t : World Gateway ν} {res : AppRes}
    (hAutostart : (power w.node).autostart = 1) (h : Returns (processScratchpad env) w res t) :
    (power t.node).LostIff ((FirstRefused (power w.node) ∧ Proto.statusRead env w.node = .ok 0) ∧
      (convertErrorCode scratchpadUpdateLocalErrorCodeLut (power w.node).updateWhileRunning ≠ .ok ∨
        (power w.node).refusesStop 1 = true)) := by
  obtain ⟨stopped, u, hStop, hRest⟩ := returns_bind.mp h
  obtain ⟨res', v, hUpdate, hRest⟩ := returns_bind.mp hRest
  have hEnd : ((power v.node).Kept → (power t.node).Kept) ∧
      ((power v.node).Lost → (power t.node).Lost) := by
    rcases returns_ite.mp hRest with ⟨-, hRestart⟩ | ⟨-, hPure⟩
    · obtain ⟨_, x, hStart, hPure⟩ := returns_bind.mp hRestart
      obtain ⟨-, rfl⟩ := returns_pure.mp hPure
      exact node.startWithAutostart hStart
    · obtain ⟨-, rfl⟩ := returns_pure.mp hPure
      exact ⟨id, id⟩
  have hFirst := node.stopIfRunning_lostIff hAutostart hStop ⟨id, id⟩
  have hSecond := node.updateAndReboot hUpdate
  apply Power.LostIff.of_end hEnd
  · rintro ⟨hRefused, hAgain⟩
    have hLost := hFirst.1 hRefused
    apply (hSecond.2 hLost).1
    rcases node.stopIfRunning hStop with ⟨-, -, hPower⟩ | ⟨-, hRead, -⟩
    · rw [hPower]
      exact hAgain
    · exact absurd hRefused.2 hRead
  · intro hNot
    by_cases hRefused : FirstRefused (power w.node) ∧ Proto.statusRead env w.node = .ok 0
    · have hLost := hFirst.1 hRefused
      apply (hSecond.2 hLost).2
      rcases node.stopIfRunning hStop with ⟨-, -, hPower⟩ | ⟨-, hRead, -⟩
      · rw [hPower]
        exact fun hAgain => hNot ⟨hRefused, hAgain⟩
      · exact absurd hRefused.2 hRead
    · exact hSecond.1 (hFirst.2 hRefused)

end Node

/-- The requests whose handlers stop the stack. -/
inductive StackRequest where
  | setConfig (req : SetConfigReq) (resp : Raw.SetConfigResp)
  | uploadScratchpad (req : UploadScratchpadReq) (resp : Raw.UploadScratchpadResp)
  | processScratchpad (req : ProcessScratchpadReq) (resp : Raw.ProcessScratchpadResp)

section Requests

variable {ν : Type}

def StackRequest.handle (env : Environment ν) : StackRequest → Call Gateway ν Unit
  | .setConfig req resp => do let _ ← protoConfigHandleSetConfig env req resp
  | .uploadScratchpad req resp => do let _ ← protoOtapHandleUploadScratchpad env req resp
  | .processScratchpad req resp => do let _ ← protoOtapHandleProcessScratchpad env req resp

/-- If the autostart was set before, it is set after for a stack that is running. -/
def KeepsAutostart (power : ν → Power) (w t : World Gateway ν) : Prop :=
  (power w.node).autostart = 1 → (power t.node).Kept

/-- The handler finds the stack running and tells it to stop, and the stack refuses; after an update
that a running stack accepts, it refuses the second stop as well. -/
def StopRefused (env : Environment ν) (power : ν → Power) (w : World Gateway ν) : StackRequest → Prop
  | .setConfig req _ =>
    req.config.sinkId.chars = w.gateway.ids.sinkId.chars ∧ FirstRefused (power w.node) ∧
      ∃ status, statusRead env w.node = .ok status ∧
        (stackActions status req.config).stopStack = true
  | .uploadScratchpad req _ =>
    req.seq ≤ 0xff ∧ FirstRefused (power w.node) ∧ statusRead env w.node = .ok 0
  | .processScratchpad _ _ =>
    (FirstRefused (power w.node) ∧ statusRead env w.node = .ok 0) ∧
      (convertErrorCode scratchpadUpdateLocalErrorCodeLut (power w.node).updateWhileRunning ≠ .ok ∨
        (power w.node).refusesStop 1 = true)

variable {env : Environment ν} {power : ν → Power} (node : PoweredNode env power)

include node

theorem PoweredNode.handle_lostIff {request : StackRequest} {w t : World Gateway ν}
    (hAutostart : (power w.node).autostart = 1) (h : Returns (request.handle env) w () t) :
    (power t.node).LostIff (StopRefused env power w request) := by
  cases request with
  | setConfig req resp =>
    obtain ⟨_, u, hHandler, hPure⟩ := returns_bind.mp h
    obtain ⟨-, rfl⟩ := returns_pure.mp hPure
    obtain ⟨g, w', hGateway, hRest⟩ := returns_bind.mp hHandler
    obtain ⟨rfl, rfl⟩ := returns_read.mp hGateway
    rcases returns_ite.mp hRest with ⟨hOther, hHeader⟩ | ⟨hSink, hApply⟩
    · obtain ⟨_, v, hHeader, hPure⟩ := returns_bind.mp hHeader
      obtain ⟨-, rfl⟩ := returns_pure.mp hPure
      have hSame : power t.node = power w'.node :=
        (Reading.fillResponseHeader node.asks _ _).returns hHeader
      exact ⟨fun hRefused => absurd hRefused.1 hOther, fun _ _ => hSame ▸ hAutostart⟩
    · obtain ⟨res, v, hApply, hRest⟩ := returns_bind.mp hApply
      obtain ⟨_, x, hHeader, hRest⟩ := returns_bind.mp hRest
      obtain ⟨_, y, hConfig, hPure⟩ := returns_bind.mp hRest
      obtain ⟨-, rfl⟩ := returns_pure.mp hPure
      have hSame : power t.node = power v.node :=
        ((Reading.fillSinkReadConfig node.asks).returns hConfig).trans
          ((Reading.fillResponseHeader node.asks _ _).returns hHeader)
      have hApplied := node.applyConfig hAutostart hApply
      rw [hSame]
      exact ⟨fun hRefused => hApplied.1 hRefused.2,
        fun hNot => hApplied.2 fun hRefused => hNot ⟨by_contra hSink, hRefused⟩⟩
  | uploadScratchpad req resp =>
    obtain ⟨_, u, hHandler, hPure⟩ := returns_bind.mp h
    obtain ⟨-, rfl⟩ := returns_pure.mp hPure
    obtain ⟨res, v, hUpload, hRest⟩ := returns_bind.mp hHandler
    obtain ⟨_, x, hHeader, hPure⟩ := returns_bind.mp hRest
    obtain ⟨-, rfl⟩ := returns_pure.mp hPure
    have hSame : power t.node = power v.node :=
      (Reading.fillResponseHeader node.asks _ _).returns hHeader
    rw [hSame]
    rcases returns_ite.mp hUpload with ⟨hLarge, hPure⟩ | ⟨hInRange, hUpload⟩
    · obtain ⟨-, rfl⟩ := returns_pure.mp hPure
      exact ⟨fun hRefused => absurd hRefused.1 (UInt32.not_le.mpr hLarge), fun _ _ => hAutostart⟩
    · have hUploaded := node.uploadScratchpad hAutostart hUpload
      exact ⟨fun hRefused => hUploaded.1 hRefused.2,
        fun hNot => hUploaded.2 fun hRefused => hNot ⟨UInt32.not_lt.mp hInRange, hRefused⟩⟩
  | processScratchpad req resp =>
    obtain ⟨_, u, hHandler, hPure⟩ := returns_bind.mp h
    obtain ⟨-, rfl⟩ := returns_pure.mp hPure
    obtain ⟨res, v, hProcess, hRest⟩ := returns_bind.mp hHandler
    obtain ⟨_, x, hHeader, hPure⟩ := returns_bind.mp hRest
    obtain ⟨-, rfl⟩ := returns_pure.mp hPure
    have hSame : power t.node = power v.node :=
      (Reading.fillResponseHeader node.asks _ _).returns hHeader
    rw [hSame]
    exact node.processScratchpad hAutostart hProcess

theorem keepsAutostart_iff_not_refused {request : StackRequest} {w t : World Gateway ν}
    (h : Returns (request.handle env) w () t) :
    KeepsAutostart power w t ↔
      ((power w.node).autostart = 1 → ¬ StopRefused env power w request) := by
  constructor
  · intro hKeeps hAutostart
    exact (node.handle_lostIff hAutostart h).kept_iff.mp (hKeeps hAutostart)
  · intro hNot hAutostart
    exact (node.handle_lostIff hAutostart h).kept_iff.mpr (hNot hAutostart)

end Requests

/-- A node with a clock that tells its stack status and no more. -/
def switchNode : Environment (Nat × Power) where
  request q n :=
    if q = stackStop then
      (if n.2.running then (if n.2.refusesStop 0 then 128 else 0) else 1, (n.1, n.2.stop))
    else if q = stackStart 0 then
      if n.2.running then (1, n) else (0, (n.1, n.2.start))
    else if q = scratchpadUpdate then (n.2.updateWhileRunning, n)
    else if q.primitiveId = Sap.msap.writeRequest then
      match q.payload with
      | .attributeWrite id _ [v] =>
        if id = msapAutostart then (0, (n.1, n.2.setAutostart v)) else (0, n)
      | _ => (0, n)
    else (0, n)
  attributeRead sap id n :=
    if sap = .msap ∧ id = msapStackStatus then ((0, [if n.2.running then 0 else 1]), n)
    else ((4, []), n)
  appConfigDataRead n := ((1, ⟨0, 0, []⟩), n)
  scratchpadStatus n := ((0, ⟨0, 0, 0, 0, 0, 0, 0, 0, 0⟩), n)
  scratchpadTargetRead n := ((1, ⟨0, 0, 0, 0⟩), n)
  timestampMsMonotonic n := (n.1, (n.1 + 500, n.2))
  timestampMsEpoch n := (n.1, n)
  malloc n := (false, n)
  rand n := (0, n)
  rounds := 2

theorem switchNode_powered : PoweredNode switchNode Prod.snd where
  keeps :=
    { attributeRead := by
        intro sap id n
        unfold switchNode
        dsimp only
        split
        · rfl
        · rfl
      appConfigDataRead := fun _ => rfl
      scratchpadStatus := fun _ => rfl
      scratchpadTargetRead := fun _ => rfl
      timestampMsMonotonic := fun _ => rfl
      timestampMsEpoch := fun _ => rfl
      malloc := fun _ => rfl
      rand := fun _ => rfl }
  other := by
    intro q hQuiet n
    have hStop : q ≠ stackStop := by
      rintro rfl
      cases hQuiet
    have hStart : q ≠ stackStart 0 := by
      rintro rfl
      cases hQuiet
    have hUpdate : q ≠ scratchpadUpdate := by
      rintro rfl
      cases hQuiet
    unfold switchNode
    dsimp only
    rw [if_neg hStop, if_neg hStart, if_neg hUpdate]
    split
    · next hPrimitive =>
      split
      · next id _ v hPayload =>
        split
        · next hId =>
          unfold setsPower at hQuiet
          rw [hPayload, hPrimitive, hId] at hQuiet
          cases hQuiet
        · rfl
      · rfl
    · rfl
  autostart v n := ⟨rfl, rfl⟩
  stop n := rfl
  startRunning n hRunning := by
    have hAnswer : switchNode.request (stackStart 0) n = (1, n) := if_pos hRunning
    rw [hAnswer]
    exact ⟨show startResult 1 = _ by decide, rfl⟩
  startStopped n hStopped := by
    have hAnswer : switchNode.request (stackStart 0) n = (0, (n.1, n.2.start)) :=
      if_neg (by rw [hStopped]; decide)
    rw [hAnswer]
    exact .inl ⟨rfl, rfl⟩
  update n := ⟨fun _ => rfl, n.2.updateWhileRunning, rfl⟩
  status n hRunning := ⟨_, rfl⟩
  clock n := show n.1 + 500 < n.1 + 2000 by omega

def runningStack (refusesStop : Nat → Bool) : World Gateway (Nat × Power) where
  statics := ⟨60, 102⟩
  gateway :=
    { ids := commonInit [0x67] [] [] [0x73]
      sinkConfig := SinkConfig.zero
      onProtoEventStatusCb := false
      statusEvents := []
      rxEventCb := false
      stackStatusCb := true
      scratchpadLoadCurrentSeq := invalidCurrentSeq
      restartAfterLoad := false }
  node := (0, ⟨true, 1, refusesStop, 0⟩)

def processRequest : StackRequest := .processScratchpad ⟨⟨1⟩⟩ ⟨zeroHeader⟩

def clearRequest : StackRequest := .uploadScratchpad ⟨⟨1⟩, 0, none, none⟩ ⟨zeroHeader⟩

theorem keepsAutostart_iff_not_refused_process :
    Returns (processRequest.handle switchNode) (runningStack fun _ => false) ()
        (processRequest.handle switchNode (runningStack fun _ => false)).2 ∧
      (KeepsAutostart Prod.snd (runningStack fun _ => false)
          (processRequest.handle switchNode (runningStack fun _ => false)).2 ↔
        ((runningStack fun _ => false).node.2.autostart = 1 →
          ¬ StopRefused switchNode Prod.snd (runningStack fun _ => false) processRequest)) :=
  have hReturns := returns_of_fst (p := processRequest.handle switchNode)
    (s := runningStack fun _ => false) (a := ()) (by decide +kernel)
  ⟨hReturns, keepsAutostart_iff_not_refused switchNode_powered hReturns⟩

/-- A refused stop leaves the stack running without its autostart. -/
theorem refused_stop_loses_autostart :
    PoweredNode switchNode Prod.snd ∧
      Returns (clearRequest.handle switchNode) (runningStack fun _ => true) ()
        (clearRequest.handle switchNode (runningStack fun _ => true)).2 ∧
      ¬ KeepsAutostart Prod.snd (runningStack fun _ => true)
        (clearRequest.handle switchNode (runningStack fun _ => true)).2 := by
  refine ⟨switchNode_powered, returns_of_fst (by decide +kernel), ?_⟩
  intro hKeeps
  have hRunning : ((clearRequest.handle switchNode (runningStack fun _ => true)).2.node.2).running =
      true := by decide +kernel
  have hCleared : ((clearRequest.handle switchNode (runningStack fun _ => true)).2.node.2).autostart ≠
      1 := by decide +kernel
  exact hCleared (hKeeps rfl hRunning)

end CMeshApi.Proto
