import CMeshApi.Wpc.Environment

/-!
# Managing the node

The requests of `attribute.c`, `csap.h` and `msap.c`, and the functions of `wpc.c`
over them that the gateway layer calls. A function that stores a value through a
pointer when it succeeds returns the value or the error here.
-/

namespace CMeshApi.Wpc

open Programs

def cNodeAddressId : UInt16 := 1
def cNetworkAddressId : UInt16 := 2
def cNetworkChannelId : UInt16 := 3
def cNodeRoleId : UInt16 := 4
def cMtuId : UInt16 := 5
def cPduBufferSizeId : UInt16 := 6
def cFirmwareIds : List UInt16 := [9, 10, 11, 12]
def cCipherKeyId : UInt16 := 13
def cAuthKeyId : UInt16 := 14
def cChannelLimId : UInt16 := 15
def cAppConfigDataSizeId : UInt16 := 16
def cHwMagic : UInt16 := 17
def cStackProfile : UInt16 := 18

def msapStackStatus : UInt16 := 1
def msapAutostart : UInt16 := 6
def msapAccessCycleRange : UInt16 := 9
def msapAccessCycleLimits : UInt16 := 10
def msapScratchpadBlockMax : UInt16 := 12

def maxAttributeSize : Nat := 40
def maximumScratchpadBlockSize : Nat := 112
def maximumAppConfigSize : Nat := 80

def Sap.writeRequest : Sap → UInt8
  | .csap => 0x0D
  | .msap => 0x0B

def msapStackStartRequestId : UInt8 := 0x05
def msapStackStopRequestId : UInt8 := 0x06
def msapAppConfigDataWriteRequestId : UInt8 := 0x3A
def msapScratchStartRequestId : UInt8 := 0x17
def msapScratchBlockRequestId : UInt8 := 0x18
def msapScratchUpdateRequestId : UInt8 := 0x1A
def msapScratchClearRequestId : UInt8 := 0x1B
def msapScratchTargetWriteRequestId : UInt8 := 0x26

def convertErrorCode (lut : List AppRes) (error : Int) : AppRes :=
  if 0 ≤ error then (lut[error.toNat]?).getD .internalError else .internalError

def attReadErrorCodeLut : List AppRes :=
  [.ok, .internalError, .stackNotStopped, .internalError, .attributeNotSet, .accessDenied,
    .accessDenied]

def attWriteErrorCodeLut : List AppRes :=
  [.ok, .internalError, .stackNotStopped, .internalError, .invalidValue, .internalError,
    .accessDenied]

def appConfigReadErrorCodeLut : List AppRes := [.ok, .noConfig, .accessDenied]

def appConfigWriteErrorCodeLut : List AppRes :=
  [.ok, .nodeNotASink, .invalidDiagInterval, .invalidSeq, .accessDenied]

def scratchpadLocalStartErrorCodeLut : List AppRes :=
  [.ok, .stackNotStopped, .invalidValue, .internalError, .accessDenied]

def scratchpadLocalBlockErrorCodeLut : List AppRes :=
  [.ok, .ok, .dataError, .stackNotStopped, .noScratchpadStart, .invalidStartAddress,
    .invalidNumberOfBytes, .invalidScratchpad]

def scratchpadClearLocalErrorCodeLut : List AppRes := [.ok, .stackNotStopped, .accessDenied]

def scratchpadUpdateLocalErrorCodeLut : List AppRes :=
  [.ok, .stackNotStopped, .noValidScratchpad, .accessDenied]

def targetScratchpadErrorCodeLut : List AppRes := [.ok, .nodeNotASink, .invalidValue, .accessDenied]

theorem convertErrorCode_internalError (lut : List AppRes) {error : Int} (h : error < 0) :
    convertErrorCode lut error = .internalError := if_neg (by omega)

/-- A look-up table that converts no result but zero to `APP_RES_OK`. -/
def OkOnlyAtZero (lut : List AppRes) : Prop := lut.head? = some .ok ∧ .ok ∉ lut.tail

theorem convertErrorCode_eq_ok {lut : List AppRes} (h : OkOnlyAtZero lut) {error : Int} :
    convertErrorCode lut error = .ok ↔ error = 0 := by
  obtain ⟨hHead, hTail⟩ := h
  cases lut with
  | nil => cases hHead
  | cons first rest =>
    obtain rfl : first = .ok := Option.some.inj hHead
    constructor
    · intro hOk
      unfold convertErrorCode at hOk
      split at hOk
      · next hSign =>
        by_contra hError
        obtain ⟨n, hn⟩ : ∃ n, error.toNat = n + 1 := ⟨error.toNat - 1, by omega⟩
        rw [hn, List.getElem?_cons_succ] at hOk
        cases hEntry : rest[n]? with
        | none =>
          rw [hEntry] at hOk
          cases hOk
        | some entry =>
          rw [hEntry, Option.getD_some] at hOk
          exact hTail (hOk ▸ List.mem_of_getElem? hEntry)
      · cases hOk
    · rintro rfl
      rfl

instance (lut : List AppRes) : Decidable (OkOnlyAtZero lut) := inferInstanceAs (Decidable (_ ∧ _))

/-- `sizeof(attribute_write_req_pl_t)` less the unused end of the value. -/
def attributeWrite (sap : Sap) (attributeId : UInt16) (attributeValue : List UInt8) : Request where
  primitiveId := sap.writeRequest
  payloadLength := .ofNat (3 + attributeValue.length)
  payload := .attributeWrite attributeId (.ofNat attributeValue.length) attributeValue

def stackStart (startOption : UInt8) : Request := ⟨msapStackStartRequestId, 1, .stackStart startOption⟩

def stackStop : Request := ⟨msapStackStopRequestId, 0, .none⟩

/-- The array is cleared before the `size` bytes of `config` are copied to it. -/
def appConfigDataWrite (seq : UInt8) (interval : UInt16) (config : List UInt8) : Request where
  primitiveId := msapAppConfigDataWriteRequestId
  payloadLength := .ofNat (3 + maximumAppConfigSize)
  payload := .appConfigDataWrite seq interval
    (config ++ List.replicate (maximumAppConfigSize - config.length) 0)

def scratchpadStart (length : UInt32) (seq : UInt8) : Request :=
  ⟨msapScratchStartRequestId, 5, .imageStart length seq⟩

def scratchpadBlock (startAddress : UInt32) (bytes : List UInt8) : Request where
  primitiveId := msapScratchBlockRequestId
  payloadLength := .ofNat (5 + maximumScratchpadBlockSize - (maximumScratchpadBlockSize - bytes.length))
  payload := .imageBlock startAddress (.ofNat bytes.length) bytes

def scratchpadUpdate : Request := ⟨msapScratchUpdateRequestId, 0, .none⟩

def scratchpadClear : Request := ⟨msapScratchClearRequestId, 0, .none⟩

def scratchpadTargetWrite (target : ScratchpadTarget) : Request where
  primitiveId := msapScratchTargetWriteRequestId
  payloadLength := 5
  payload := .scratchpadTargetWrite target.sequence target.crc target.action target.param

section Calls

variable {γ ν : Type} (env : Environment ν)

def attributeWriteRequest (sap : Sap) (attributeId : UInt16) (attributeValue : List UInt8) :
    Call γ ν Int :=
  if maxAttributeSize < attributeValue.length then pure (-1)
  else ask (env.request (attributeWrite sap attributeId attributeValue))

/-- The result, and the value that is copied with the result zero. -/
def attributeReadRequest (sap : Sap) (attributeId : UInt16) (attributeLength : Nat) :
    Call γ ν (Int × List UInt8) := do
  let (res, value) ← ask (env.attributeRead sap attributeId)
  if res = 0 ∧ attributeLength ≠ value.length then return (-1, value) else return (res, value)

/-- What a read of `attributeLength` bytes makes of the answer of the node. -/
def lengthChecked (attributeLength : Nat) (answer : Int × List UInt8) : Int × List UInt8 :=
  (if answer.1 = 0 ∧ attributeLength ≠ answer.2.length then -1 else answer.1, answer.2)

theorem returns_attributeReadRequest {sap : Sap} {attributeId : UInt16} {attributeLength : Nat}
    {w t : World γ ν} {result : Int × List UInt8} :
    Returns (attributeReadRequest env sap attributeId attributeLength) w result t ↔
      result = lengthChecked attributeLength (env.attributeRead sap attributeId w.node).1 ∧
        t = { w with node := (env.attributeRead sap attributeId w.node).2 } := by
  apply Returns.iff
  unfold attributeReadRequest lengthChecked
  simp only [returns_bind, returns_ask, returns_ite, returns_pure]
  refine ⟨_, _, ⟨rfl, rfl⟩, ?_⟩
  split
  · next h => exact .inl ⟨h, rfl, rfl⟩
  · next h => exact .inr ⟨h, rfl, rfl⟩

def msapScratchpadBlockRequest (startAddress : UInt32) (bytes : List UInt8) : Call γ ν Int :=
  if maximumScratchpadBlockSize < bytes.length then pure 6
  else ask (env.request (scratchpadBlock startAddress bytes))

/-- The start that succeeds also calls the registered status callback, as the node sends no
indication of it. -/
def msapStackStartRequest (stackStatusCb : Option (UInt8 → Call γ ν Unit)) (startOption : UInt8) :
    Call γ ν Int := do
  let res ← ask (env.request (stackStart startOption))
  match stackStatusCb with
  | some cb => if res = 0 then cb 0
  | none => pure ()
  return res

/-- The answer, and what the callback makes of the world when the start succeeds. -/
theorem returns_msapStackStartRequest {stackStatusCb : Option (UInt8 → Call γ ν Unit)}
    {startOption : UInt8} {w t : World γ ν} {res : Int} :
    Returns (msapStackStartRequest env stackStatusCb startOption) w res t ↔
      res = (env.request (stackStart startOption) w.node).1 ∧
        match stackStatusCb with
        | some cb =>
          if res = 0 then
            Returns (cb 0) { w with node := (env.request (stackStart startOption) w.node).2 } () t
          else t = { w with node := (env.request (stackStart startOption) w.node).2 }
        | none => t = { w with node := (env.request (stackStart startOption) w.node).2 } := by
  unfold msapStackStartRequest
  simp only [returns_bind, returns_ask]
  constructor
  · rintro ⟨answer, u, ⟨rfl, rfl⟩, hRest⟩
    cases stackStatusCb with
    | none => exact returns_pure.mp hRest
    | some cb =>
      rcases returns_ite.mp hRest with ⟨hZero, hCalled⟩ | ⟨hNonzero, hNotCalled⟩
      · obtain ⟨_, v, hCallback, hPure⟩ := returns_bind.mp hCalled
        obtain ⟨rfl, rfl⟩ := returns_pure.mp hPure
        refine ⟨rfl, ?_⟩
        dsimp only
        rw [if_pos hZero]
        exact hCallback
      · obtain ⟨rfl, rfl⟩ := returns_pure.mp hNotCalled
        refine ⟨rfl, ?_⟩
        dsimp only
        rw [if_neg hNonzero]
  · rintro ⟨rfl, hRest⟩
    refine ⟨_, _, ⟨rfl, rfl⟩, ?_⟩
    cases stackStatusCb with
    | none => exact returns_pure.mpr ⟨rfl, hRest⟩
    | some cb =>
      apply returns_ite.mpr
      dsimp only at hRest
      split at hRest
      · next hZero => exact .inl ⟨hZero, returns_bind.mpr ⟨(), t, hRest, returns_pure.mpr ⟨rfl, rfl⟩⟩⟩
      · next hNonzero => exact .inr ⟨hNonzero, returns_pure.mpr ⟨rfl, hRest⟩⟩

/-- A read of an attribute, converted with the table of read errors. -/
def readAttribute {α : Type} (sap : Sap) (attributeId : UInt16) (attributeLength : Nat)
    (decode : List UInt8 → α) : Call γ ν (Except AppRes α) := do
  let (res, value) ← attributeReadRequest env sap attributeId attributeLength
  match convertErrorCode attReadErrorCodeLut res with
  | .ok => return .ok (decode value)
  | error => return .error error

/-- What a read gives for the answer of the node. -/
def readResult {α : Type} (attributeLength : Nat) (decode : List UInt8 → α)
    (answer : Int × List UInt8) : Except AppRes α :=
  match convertErrorCode attReadErrorCodeLut (lengthChecked attributeLength answer).1 with
  | .ok => .ok (decode answer.2)
  | error => .error error

theorem returns_readAttribute {α : Type} {sap : Sap} {attributeId : UInt16} {attributeLength : Nat}
    {decode : List UInt8 → α} {w t : World γ ν} {result : Except AppRes α} :
    Returns (readAttribute env sap attributeId attributeLength decode) w result t ↔
      result = readResult attributeLength decode (env.attributeRead sap attributeId w.node).1 ∧
        t = { w with node := (env.attributeRead sap attributeId w.node).2 } := by
  apply Returns.iff
  unfold readAttribute readResult
  simp only [returns_bind, returns_attributeReadRequest]
  refine ⟨_, _, ⟨rfl, rfl⟩, ?_⟩
  split
  · simp only [returns_pure, lengthChecked, and_self]
  · simp only [returns_pure, lengthChecked, and_self]

theorem lengthChecked_eq_zero {attributeLength : Nat} {answer : Int × List UInt8} :
    (lengthChecked attributeLength answer).1 = 0 ↔
      answer.1 = 0 ∧ answer.2.length = attributeLength := by
  unfold lengthChecked
  split
  · next h => exact ⟨fun hError => absurd (show (-1 : Int) = 0 from hError) (by decide), fun h' => absurd h'.2.symm h.2⟩
  · next h => exact ⟨fun hZero => ⟨hZero, by_contra fun hLength => h ⟨hZero, Ne.symm hLength⟩⟩,
      And.left⟩

theorem readResult_eq_ok {α : Type} {attributeLength : Nat} {decode : List UInt8 → α}
    {answer : Int × List UInt8} {value : α} :
    readResult attributeLength decode answer = .ok value ↔
      (answer.1 = 0 ∧ answer.2.length = attributeLength) ∧ value = decode answer.2 := by
  have hTable : OkOnlyAtZero attReadErrorCodeLut := by decide
  rw [← lengthChecked_eq_zero, ← convertErrorCode_eq_ok hTable]
  unfold readResult
  split
  · next h =>
    rw [Except.ok.injEq]
    exact ⟨fun hEq => ⟨h, hEq.symm⟩, fun hEq => hEq.2.symm⟩
  · next h => exact ⟨nofun, fun hOk => absurd hOk.1 h⟩

def writeAttribute (sap : Sap) (attributeId : UInt16) (attributeValue : List UInt8) :
    Call γ ν AppRes := do
  let res ← attributeWriteRequest env sap attributeId attributeValue
  return convertErrorCode attWriteErrorCodeLut res

def byteDecode (bytes : List UInt8) : UInt8 := bytes.getD 0 0

def pairDecode {α : Type} (decode : List UInt8 → α) (width : Nat) (bytes : List UInt8) : α × α :=
  (decode bytes, decode (bytes.drop width))

def wpcGetRole : Call γ ν (Except AppRes UInt8) := readAttribute env .csap cNodeRoleId 1 byteDecode

def wpcSetRole (role : UInt8) : Call γ ν AppRes := writeAttribute env .csap cNodeRoleId [role]

def wpcGetNodeAddress : Call γ ν (Except AppRes UInt32) :=
  readAttribute env .csap cNodeAddressId 4 uint32DecodeLe

def wpcSetNodeAddress (add : UInt32) : Call γ ν AppRes :=
  writeAttribute env .csap cNodeAddressId (uint32EncodeLe add)

def wpcGetNetworkAddress : Call γ ν (Except AppRes UInt32) :=
  readAttribute env .csap cNetworkAddressId 3 uint32DecodeLe

def wpcSetNetworkAddress (add : UInt32) : Call γ ν AppRes :=
  if add >>> 24 ≠ 0 then pure .invalidValue
  else writeAttribute env .csap cNetworkAddressId ((uint32EncodeLe add).take 3)

def wpcGetNetworkChannel : Call γ ν (Except AppRes UInt8) :=
  readAttribute env .csap cNetworkChannelId 1 byteDecode

def wpcSetNetworkChannel (channel : UInt8) : Call γ ν AppRes :=
  writeAttribute env .csap cNetworkChannelId [channel]

def wpcGetMtu : Call γ ν (Except AppRes UInt8) := readAttribute env .csap cMtuId 1 byteDecode

/-- `WPC_Int_set_mtu`, which keeps the old value when the node does not tell. -/
def wpcIntSetMtu : Call γ ν Unit := do
  match ← wpcGetMtu env with
  | .ok mtu => Program.change fun w => { w with statics.mtu := mtu.toUInt32 }
  | .error _ => return ()

def Statics.wpcIntGetMtu (s : Statics) : UInt8 := s.mtu.toUInt8

def wpcGetPduBufferSize : Call γ ν (Except AppRes UInt8) :=
  readAttribute env .csap cPduBufferSizeId 1 byteDecode

def wpcGetChannelLimits : Call γ ν (Except AppRes (UInt8 × UInt8)) :=
  readAttribute env .csap cChannelLimId 2 (pairDecode byteDecode 1)

def wpcGetAppConfigDataSize : Call γ ν (Except AppRes UInt8) :=
  readAttribute env .csap cAppConfigDataSizeId 1 byteDecode

def wpcGetHwMagic : Call γ ν (Except AppRes UInt16) :=
  readAttribute env .csap cHwMagic 2 uint16DecodeLe

def wpcGetStackProfile : Call γ ν (Except AppRes UInt16) :=
  readAttribute env .csap cStackProfile 2 uint16DecodeLe

def wpcGetStackStatus : Call γ ν (Except AppRes UInt8) :=
  readAttribute env .msap msapStackStatus 1 byteDecode

def wpcSetAutostart (enable : UInt8) : Call γ ν AppRes :=
  writeAttribute env .msap msapAutostart [enable]

def wpcGetAccessCycleRange : Call γ ν (Except AppRes (UInt16 × UInt16)) :=
  readAttribute env .msap msapAccessCycleRange 4 (pairDecode uint16DecodeLe 2)

def wpcSetAccessCycleRange (minAc maxAc : UInt16) : Call γ ν AppRes :=
  writeAttribute env .msap msapAccessCycleRange (uint16EncodeLe minAc ++ uint16EncodeLe maxAc)

def wpcGetAccessCycleLimits : Call γ ν (Except AppRes (UInt16 × UInt16)) :=
  readAttribute env .msap msapAccessCycleLimits 4 (pairDecode uint16DecodeLe 2)

def wpcGetScratchpadBlockMax : Call γ ν (Except AppRes UInt8) :=
  readAttribute env .msap msapScratchpadBlockMax 1 byteDecode

/-- The rounds of the loop of `WPC_get_firmware_version`, with the versions stored so far. -/
def firmwareVersion : List UInt16 → List UInt16 → Call γ ν (AppRes × List UInt16)
  | [], version => return (.ok, version)
  | id :: ids, version => do
    match ← readAttribute env .csap id 2 uint16DecodeLe with
    | .ok v => firmwareVersion ids (version ++ [v])
    | .error error => return (error, version)

def wpcGetFirmwareVersion : Call γ ν (AppRes × List UInt16) := firmwareVersion env cFirmwareIds []

def wpcSetCipherKey (key : List UInt8) : Call γ ν AppRes := writeAttribute env .csap cCipherKeyId key

def wpcSetAuthenticationKey (key : List UInt8) : Call γ ν AppRes :=
  writeAttribute env .csap cAuthKeyId key

/-- The key cannot be read; the error tells if it is set. -/
def isKeySet (attributeId : UInt16) : Call γ ν (Except AppRes Bool) := do
  let (res, _) ← attributeReadRequest env .csap attributeId 16
  if res < 0 then return .error .internalError else return .ok (res == 5)

def wpcIsCipherKeySet : Call γ ν (Except AppRes Bool) := isKeySet env cCipherKeyId

def wpcIsAuthenticationKeySet : Call γ ν (Except AppRes Bool) := isKeySet env cAuthKeyId

/-- `WPC_get_app_config_data`, for a buffer of `size` bytes. -/
def wpcGetAppConfigData (size : Nat) : Call γ ν (Except AppRes AppConfigDataConf) := do
  match ← wpcGetAppConfigDataSize env with
  | .error error => return .error error
  | .ok maxSize =>
    if size < maxSize.toNat then return .error .invalidValue
    else
      let (res, conf) ← ask env.appConfigDataRead
      match convertErrorCode appConfigReadErrorCodeLut res with
      | .ok => return .ok conf
      | error => return .error error

/-- `WPC_set_app_config_data`, of `config` with its size, which is a `uint8_t`. -/
def wpcSetAppConfigData (seq : UInt8) (interval : UInt16) (config : List UInt8) :
    Call γ ν AppRes := do
  match ← wpcGetAppConfigDataSize env with
  | .error error => return error
  | .ok maxSize =>
    if maxSize.toNat < config.length then return .invalidValue
    else
      let res ← ask (env.request (appConfigDataWrite seq interval config))
      return convertErrorCode appConfigWriteErrorCodeLut res

/-- The rounds of the loop of `get_stack_status`, until a status is read or the time is over. -/
def pollStackStatusBy (status : Call γ ν (Except AppRes UInt8)) (timeout : Nat) : Nat → Call γ ν Bool
  | 0 => .unfinished
  | n + 1 => do
    let now ← ask env.timestampMsMonotonic
    if now < timeout then
      match ← status with
      | .ok _ => return true
      | .error _ => pollStackStatusBy status timeout n
    else return false

/-- `get_stack_status`, with the way that its request for the status takes. -/
def getStackStatusBy (status : Call γ ν (Except AppRes UInt8)) (timeoutS : UInt16) : Call γ ν Bool := do
  let now ← ask env.timestampMsMonotonic
  pollStackStatusBy env status (now + timeoutS.toNat * 1000) env.rounds

def pollStackStatus (timeout : Nat) : Nat → Call γ ν Bool :=
  pollStackStatusBy env (wpcGetStackStatus env) timeout

def getStackStatus (timeoutS : UInt16) : Call γ ν Bool :=
  getStackStatusBy env (wpcGetStackStatus env) timeoutS

/-- The active wait for a point in time. -/
def waitUntil (endWait : Nat) : Nat → Call γ ν Unit
  | 0 => .unfinished
  | n + 1 => do
    let now ← ask env.timestampMsMonotonic
    if now < endWait then waitUntil endWait n else return ()

def startResult (res : Int) : Option AppRes :=
  if res < 0 then some .internalError
  else if res.toNat &&& 0x1 = 0x1 then some .stackAlreadyStarted
  else if res.toNat &&& 0x2 = 0x2 then some .netAddNotSet
  else if res.toNat &&& 0x4 = 0x4 then some .nodeAddNotSet
  else if res.toNat &&& 0x8 = 0x8 then some .roleNotSet
  else if res ≠ 0 then some .internalError
  else none

theorem startResult_eq_none {res : Int} : startResult res = none ↔ res = 0 := by
  constructor
  · intro h
    unfold startResult at h
    by_contra hZero
    simp only [hZero, ne_eq, not_false_eq_true, if_true] at h
    repeat' split at h
    all_goals cases h
  · rintro rfl
    rfl

theorem startResult_ne_ok (res : Int) : startResult res ≠ some .ok := by
  intro h
  unfold startResult at h
  repeat' split at h
  all_goals cases h

def wpcStartStack (stackStatusCb : Option (UInt8 → Call γ ν Unit)) : Call γ ν AppRes := do
  let res ← msapStackStartRequest env stackStatusCb 0
  match startResult res with
  | some error => return error
  | none => if ← getStackStatus env 2 then return .ok else return .internalError

/-- `WPC_stop_stack`, with the way that its two requests take. A stop whose confirm is lost
counts as done, since the node may reboot before it answers. The timeout is cut to the `uint16_t`
of `get_stack_status`. -/
def stopStackBy (stop : Call γ ν Int) (status : Call γ ν (Except AppRes UInt8)) : Call γ ν AppRes := do
  let res ← stop
  if res = 1 then return .stackAlreadyStopped
  else if res = 128 then return .accessDenied
  else
    let now ← ask env.timestampMsMonotonic
    waitUntil env (now + 500) env.rounds
    let timeoutS ← Program.read fun w : World γ ν => w.statics.timeoutAfterStopTaskS
    if ← getStackStatusBy env status timeoutS.toUInt16 then return .ok
    else return .internalError

/-- A stop whose requests never find the node silent for so long that the process is closed. -/
def wpcStopStack : Call γ ν AppRes :=
  stopStackBy env (ask (env.request stackStop)) (wpcGetStackStatus env)

def wpcGetLocalScratchpadStatus : Call γ ν (Except AppRes AppScratchpadStatus) := do
  let (res, status) ← ask env.scratchpadStatus
  if res ≠ 0 then return .error .internalError else return .ok status

def wpcStartLocalScratchpadUpdate (len : UInt32) (seq : UInt8) : Call γ ν AppRes := do
  let res ← ask (env.request (scratchpadStart len seq))
  return convertErrorCode scratchpadLocalStartErrorCodeLut res

/-- The rounds of the loop over the blocks of an image, from `loaded` on. -/
def uploadBlocks (bytes : List UInt8) (start : UInt32) (maxBlockSize : UInt8) :
    Nat → Nat → Call γ ν AppRes
  | 0, _ => .unfinished
  | n + 1, loaded =>
    if loaded < bytes.length then do
      let remaining := bytes.length - loaded
      let blockSize := if maxBlockSize.toNat < remaining then maxBlockSize.toNat else remaining
      let res ← msapScratchpadBlockRequest env (start + .ofNat loaded)
        ((bytes.drop loaded).take blockSize)
      if 1 < res ∨ res < 0 then return convertErrorCode scratchpadLocalBlockErrorCodeLut res
      else uploadBlocks bytes start maxBlockSize n (loaded + blockSize)
    else return .ok

def wpcUploadLocalBlockScratchpad (bytes : List UInt8) (start : UInt32) : Call γ ν AppRes := do
  match ← wpcGetScratchpadBlockMax env with
  | .error error => return error
  | .ok maxBlockSize => uploadBlocks env bytes start maxBlockSize env.rounds 0

def wpcUploadLocalScratchpad (bytes : List UInt8) (seq : UInt8) : Call γ ν AppRes := do
  let res ← wpcStartLocalScratchpadUpdate env (.ofNat bytes.length) seq
  if res ≠ .ok then return res else wpcUploadLocalBlockScratchpad env bytes 0

def wpcClearLocalScratchpad : Call γ ν AppRes := do
  let res ← ask (env.request scratchpadClear)
  return convertErrorCode scratchpadClearLocalErrorCodeLut res

def wpcUpdateLocalScratchpad : Call γ ν AppRes := do
  let res ← ask (env.request scratchpadUpdate)
  return convertErrorCode scratchpadUpdateLocalErrorCodeLut res

def wpcWriteTargetScratchpad (target : ScratchpadTarget) : Call γ ν AppRes := do
  let res ← ask (env.request (scratchpadTargetWrite target))
  return convertErrorCode targetScratchpadErrorCodeLut res

def wpcReadTargetScratchpad : Call γ ν (Except AppRes ScratchpadTarget) := do
  let (res, target) ← ask env.scratchpadTargetRead
  if res = 0 then return .ok target else return .error .internalError

end Calls

end CMeshApi.Wpc
