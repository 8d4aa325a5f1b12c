import CMeshApi.Proto.Config

/-!
# The scratchpad of the sink

`proto_otap.c`: a scratchpad is loaded in one request or chunk by chunk, with the
sequence of the load that is under way in a static variable, and the stack is stopped
before and started after it.
-/

namespace CMeshApi.Proto

open Programs Wpc

section Handlers

variable {ν : Type} (env : Environment ν)

def setCurrentSeq (seq : UInt32) : Call Gateway ν Unit :=
  .change fun w => { w with gateway.scratchpadLoadCurrentSeq := seq }

def setRestartAfterLoad (restart : Bool) : Call Gateway ν Unit :=
  .change fun w => { w with gateway.restartAfterLoad := restart }

/-- The parameters are read again, unless the start of the stack will do that. -/
def forceParametersUpdate : Call Gateway ν Unit := do
  let g ← gateway
  if g.restartAfterLoad then return () else protoConfigRefreshOtapInfos env

/-- The first chunk starts a load, also while another is under way. -/
def startLoad (totalSize : UInt32) (seq : UInt32) : Call Gateway ν AppRes := do
  setCurrentSeq seq
  let res ← wpcStartLocalScratchpadUpdate env totalSize seq.toUInt8
  forceParametersUpdate env
  if res ≠ .ok then
    setCurrentSeq invalidCurrentSeq
    return res
  else return .ok

/-- A chunk of the scratchpad that is being loaded. -/
def loadChunk (chunk : List UInt8) (offset totalSize seq : UInt32) : Call Gateway ν AppRes := do
  let g ← gateway
  if seq ≠ g.scratchpadLoadCurrentSeq then return .invalidSeq
  else
    let res ← wpcUploadLocalBlockScratchpad env chunk offset
    if res ≠ .ok then return res
    else
      if offset.toNat + chunk.length = totalSize.toNat then
        setCurrentSeq invalidCurrentSeq
        forceParametersUpdate env
        return .ok
      else return .ok

def handleScratchpadChunk (chunk : List UInt8) (offset totalSize seq : UInt32) :
    Call Gateway ν AppRes := do
  let res ← (if offset = 0 then startLoad env totalSize seq else pure .ok)
  if res ≠ .ok then return res else loadChunk env chunk offset totalSize seq

/-- The stack is running if its status is read and has no bit set. -/
def stackRunning : Call Gateway ν Bool := do
  match ← wpcGetStackStatus env with
  | .ok status => return status == 0
  | .error _ => return false

/-- What the stack status reads as in this state of the node. -/
def statusRead (n : ν) : Except AppRes UInt8 :=
  readResult 1 byteDecode (env.attributeRead .msap msapStackStatus n).1

theorem stackRunning_iff {w t : World Gateway ν} {running : Bool}
    (h : Returns (stackRunning env) w running t) :
    running = true ↔ statusRead env w.node = .ok 0 := by
  obtain ⟨result, u, hRead, hResult⟩ := returns_bind.mp h
  obtain rfl : result = statusRead env w.node := ((returns_readAttribute env).mp hRead).1
  cases hStatus : statusRead env w.node with
  | error error =>
    rw [hStatus] at hResult
    obtain ⟨rfl, -⟩ := returns_pure.mp hResult
    exact ⟨nofun, nofun⟩
  | ok status =>
    rw [hStatus] at hResult
    obtain ⟨rfl, -⟩ := returns_pure.mp hResult
    rw [beq_iff_eq, Except.ok.injEq]

/-- A running stack is stopped, or at least told to. -/
def stopIfRunning : Call Gateway ν Bool := do
  if ← stackRunning env then
    let _ ← wpcSetAutostart env 0
    let _ ← wpcStopStack env
    return true
  else return false

theorem stopped_iff {w t : World Gateway ν} {stopped : Bool}
    (h : Returns (stopIfRunning env) w stopped t) :
    stopped = true ↔ statusRead env w.node = .ok 0 := by
  obtain ⟨running, u, hRunning, hRest⟩ := returns_bind.mp h
  rw [← stackRunning_iff env hRunning]
  rcases returns_ite.mp hRest with ⟨hYes, hStop⟩ | ⟨hNo, hPure⟩
  · obtain ⟨_, v, hAutostart, hStop⟩ := returns_bind.mp hStop
    obtain ⟨_, x, hStop, hPure⟩ := returns_bind.mp hStop
    obtain ⟨rfl, -⟩ := returns_pure.mp hPure
    exact ⟨fun _ => hYes, fun _ => rfl⟩
  · obtain ⟨rfl, -⟩ := returns_pure.mp hPure
    exact ⟨nofun, fun hYes => absurd hYes hNo⟩

def updateScratchpad (req : UploadScratchpadReq) : Call Gateway ν AppRes :=
  match req.scratchpad with
  | some scratchpad =>
    match req.chunkInfo with
    | some chunk =>
      handleScratchpadChunk env scratchpad chunk.startOffset chunk.scratchpadTotalSize req.seq
    | none => do
      let res ← wpcUploadLocalScratchpad env scratchpad req.seq.toUInt8
      setCurrentSeq invalidCurrentSeq
      forceParametersUpdate env
      return res
  | none => do
    let res ← wpcClearLocalScratchpad env
    setCurrentSeq invalidCurrentSeq
    return res

/-- `WPC_start_stack`, and the autostart of a stack that started. -/
def startWithAutostart : Call Gateway ν AppRes := do
  let res ← startStack env
  if res ≠ .ok then return res
  else
    let _ ← wpcSetAutostart env 1
    return .ok

/-- The stack is started again as soon as no load is in progress. -/
def restartAfterLoad (res : AppRes) : Call Gateway ν AppRes := do
  let g ← gateway
  if g.restartAfterLoad ∧ g.scratchpadLoadCurrentSeq = invalidCurrentSeq then
    let restartRes ← startWithAutostart env
    setRestartAfterLoad false
    return if res = .ok then restartRes else res
  else return res

/-- A request with a valid sequence, up to its response. -/
def uploadScratchpad (req : UploadScratchpadReq) : Call Gateway ν AppRes := do
  let stopped ← stopIfRunning env
  (if stopped then setRestartAfterLoad true else pure ())
  let res ← updateScratchpad env req
  restartAfterLoad env res

def protoOtapHandleUploadScratchpad (req : UploadScratchpadReq) (resp : Raw.UploadScratchpadResp) :
    Call Gateway ν (AppProtoRes × Raw.UploadScratchpadResp) := do
  let res ← (if 0xff < req.seq then pure .invalidValue else uploadScratchpad env req)
  let header ← fillResponseHeader env req.header (commonConvertErrorCode res)
  return (.ok, { resp with header := header })

/-- The update, and the stop that reboots the node to process the scratchpad. -/
def updateAndReboot : Call Gateway ν AppRes := do
  let res ← wpcUpdateLocalScratchpad env
  if res ≠ .ok then return res else wpcStopStack env

def processScratchpad : Call Gateway ν AppRes := do
  let restart ← stopIfRunning env
  let globalRes ← updateAndReboot env
  if restart then
    let res ← startWithAutostart env
    return if globalRes = .ok then res else globalRes
  else return globalRes

def protoOtapHandleProcessScratchpad (req : ProcessScratchpadReq)
    (resp : Raw.ProcessScratchpadResp) :
    Call Gateway ν (AppProtoRes × Raw.ProcessScratchpadResp) := do
  let globalRes ← processScratchpad env
  let header ← fillResponseHeader env req.header (commonConvertErrorCode globalRes)
  return (.ok, { resp with header := header })

end Handlers

end CMeshApi.Proto
