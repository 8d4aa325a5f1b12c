import CMeshApi.Foundations.Machine
import CMeshApi.Foundations.Registers
import CMeshApi.Wpc.Frames

/-!
# The attributes of the node

The functions of `wpc.c` that read and write attributes. They give the attributes types: as
long as the node keeps the bytes it was given, a value that is read is the one that was set.
-/

namespace CMeshApi.Wpc

open Machine Programs Registers

def cScratchpadSequenceId : UInt16 := 7
def cMeshApiVerId : UInt16 := 8
def cChannelMap : UInt16 := 21
def cReservedChannels : UInt16 := 25
def cNetworkKeyPairId : UInt16 := 26
def cManagementKeyPairId : UInt16 := 27

def msapPduBufferUsage : UInt16 := 2
def msapPduBufferCapacity : UInt16 := 3
def msapEnergy : UInt16 := 5
def msapRouteCount : UInt16 := 7
def msapSystemTime : UInt16 := 8
def msapCurrentAccessCycle : UInt16 := 11
def msapScratchpadNumBytes : UInt16 := 14

def reservedChannelsMaxNumBytes : Nat := 16

structure WpcKeyPair where
  encryption : List UInt8
  authentication : List UInt8
  sequenceNumber : UInt8
  encryption_length : encryption.length = 16
  authentication_length : authentication.length = 16

def WpcKeyPair.bytes (keyPair : WpcKeyPair) : List UInt8 :=
  keyPair.encryption ++ keyPair.authentication ++ [keyPair.sequenceNumber]

def internalTimeToS (internalTime : UInt32) : UInt32 := internalTime >>> 7

section Functions

variable {γ ν : Type} (env : Environment ν)

def wpcGetScratchpadSequence : Call γ ν (Except AppRes UInt8) :=
  readAttribute env .csap cScratchpadSequenceId 1 byteDecode

def wpcGetMeshApiVersion : Call γ ν (Except AppRes UInt16) :=
  readAttribute env .csap cMeshApiVerId 2 uint16DecodeLe

def disableKey : List UInt8 := List.replicate 16 0xFF

def wpcRemoveCipherKey : Call γ ν AppRes := wpcSetCipherKey env disableKey

def wpcRemoveAuthenticationKey : Call γ ν AppRes := wpcSetAuthenticationKey env disableKey

def wpcGetChannelMap : Call γ ν (Except AppRes UInt32) := readAttribute env .csap cChannelMap 4 uint32DecodeLe

def wpcSetChannelMap (channelMap : UInt32) : Call γ ν AppRes :=
  writeAttribute env .csap cChannelMap (uint32EncodeLe channelMap)

/-- The answer 4 of a node that has more set bits than fit is told apart. -/
def wpcGetReservedChannels (size : UInt8) : Call γ ν (Except AppRes (List UInt8)) :=
  if reservedChannelsMaxNumBytes < size.toNat then pure (.error .invalidValue)
  else do
    let (res, value) ← attributeReadRequest env .csap cReservedChannels size.toNat
    if res = 4 then return .error .invalidValue
    else
      match convertErrorCode attReadErrorCodeLut res with
      | .ok => return .ok value
      | error => return .error error

def wpcSetReservedChannels (channels : List UInt8) : Call γ ν AppRes :=
  if reservedChannelsMaxNumBytes < channels.length then pure .invalidValue
  else writeAttribute env .csap cReservedChannels channels

def setKeyPair (attributeId : UInt16) (value : List UInt8) : Call γ ν AppRes :=
  writeAttribute env .csap attributeId value

/-- The pointer may be `NULL`. -/
def wpcSetNetworkKeyPair (keyPair : Option WpcKeyPair) : Call γ ν AppRes :=
  match keyPair with
  | some keyPair => setKeyPair env cNetworkKeyPairId keyPair.bytes
  | none => pure .internalError

def wpcSetManagementKeyPair (keyPair : Option WpcKeyPair) : Call γ ν AppRes :=
  match keyPair with
  | some keyPair => setKeyPair env cManagementKeyPairId keyPair.bytes
  | none => pure .internalError

def readSingleByteMsap (att : UInt16) : Call γ ν (Except AppRes UInt8) := readAttribute env .msap att 1 byteDecode

def wpcGetPduBufferUsage : Call γ ν (Except AppRes UInt8) := readSingleByteMsap env msapPduBufferUsage

def wpcGetPduBufferCapacity : Call γ ν (Except AppRes UInt8) := readSingleByteMsap env msapPduBufferCapacity

def wpcGetRemainingEnergy : Call γ ν (Except AppRes UInt8) := readSingleByteMsap env msapEnergy

def wpcSetRemainingEnergy (energy : UInt8) : Call γ ν AppRes := writeAttribute env .msap msapEnergy [energy]

def wpcGetAutostart : Call γ ν (Except AppRes UInt8) := readSingleByteMsap env msapAutostart

def wpcGetRouteCount : Call γ ν (Except AppRes UInt8) := readSingleByteMsap env msapRouteCount

def wpcGetSystemTime : Call γ ν (Except AppRes UInt32) :=
  readAttribute env .msap msapSystemTime 4 fun att => internalTimeToS (uint32DecodeLe att)

def wpcGetCurrentAccessCycle : Call γ ν (Except AppRes UInt16) :=
  readAttribute env .msap msapCurrentAccessCycle 2 uint16DecodeLe

def wpcGetScratchpadSize : Call γ ν (Except AppRes UInt32) :=
  readAttribute env .msap msapScratchpadNumBytes 4 uint32DecodeLe

end Functions

inductive Attribute where
  | role
  | nodeAddress
  | networkAddress
  | networkChannel
  | channelMap
  | reservedChannels
  | remainingEnergy
  | autostart
  | accessCycleRange
  | mtu
  | pduBufferSize
  | scratchpadSequence
  | meshApiVersion
  | channelLimits
  | appConfigDataSize
  | hwMagic
  | stackProfile
  | stackStatus
  | pduBufferUsage
  | pduBufferCapacity
  | routeCount
  | systemTime
  | accessCycleLimits
  | currentAccessCycle
  | scratchpadBlockMax
  | scratchpadSize
deriving DecidableEq, Repr

namespace Attribute

abbrev Value : Attribute → Type
  | role | networkChannel | remainingEnergy | autostart | mtu | pduBufferSize | scratchpadSequence
  | appConfigDataSize | stackStatus | pduBufferUsage | pduBufferCapacity | routeCount
  | scratchpadBlockMax => UInt8
  | meshApiVersion | hwMagic | stackProfile | currentAccessCycle => UInt16
  | nodeAddress | networkAddress | channelMap | systemTime | scratchpadSize => UInt32
  | channelLimits => UInt8 × UInt8
  | accessCycleRange | accessCycleLimits => UInt16 × UInt16
  | reservedChannels => List UInt8

def cell : Attribute → Sap × UInt16
  | role => (.csap, cNodeRoleId)
  | nodeAddress => (.csap, cNodeAddressId)
  | networkAddress => (.csap, cNetworkAddressId)
  | networkChannel => (.csap, cNetworkChannelId)
  | channelMap => (.csap, cChannelMap)
  | reservedChannels => (.csap, cReservedChannels)
  | remainingEnergy => (.msap, msapEnergy)
  | autostart => (.msap, msapAutostart)
  | accessCycleRange => (.msap, msapAccessCycleRange)
  | mtu => (.csap, cMtuId)
  | pduBufferSize => (.csap, cPduBufferSizeId)
  | scratchpadSequence => (.csap, cScratchpadSequenceId)
  | meshApiVersion => (.csap, cMeshApiVerId)
  | channelLimits => (.csap, cChannelLimId)
  | appConfigDataSize => (.csap, cAppConfigDataSizeId)
  | hwMagic => (.csap, cHwMagic)
  | stackProfile => (.csap, cStackProfile)
  | stackStatus => (.msap, msapStackStatus)
  | pduBufferUsage => (.msap, msapPduBufferUsage)
  | pduBufferCapacity => (.msap, msapPduBufferCapacity)
  | routeCount => (.msap, msapRouteCount)
  | systemTime => (.msap, msapSystemTime)
  | accessCycleLimits => (.msap, msapAccessCycleLimits)
  | currentAccessCycle => (.msap, msapCurrentAccessCycle)
  | scratchpadBlockMax => (.msap, msapScratchpadBlockMax)
  | scratchpadSize => (.msap, msapScratchpadNumBytes)

def sized {α : Type} (length : Nat) (decode : List UInt8 → α) (bytes : List UInt8) : Option α :=
  if bytes.length = length then some (decode bytes) else none

/-- The value that the bytes of the attribute stand for, if these are as long as it is. -/
def read : (a : Attribute) → List UInt8 → Option a.Value
  | role | networkChannel | remainingEnergy | autostart | mtu | pduBufferSize | scratchpadSequence
  | appConfigDataSize | stackStatus | pduBufferUsage | pduBufferCapacity | routeCount
  | scratchpadBlockMax => sized 1 byteDecode
  | meshApiVersion | hwMagic | stackProfile | currentAccessCycle => sized 2 uint16DecodeLe
  | nodeAddress | channelMap | scratchpadSize => sized 4 uint32DecodeLe
  | networkAddress => sized 3 uint32DecodeLe
  | systemTime => sized 4 fun att => internalTimeToS (uint32DecodeLe att)
  | channelLimits => sized 2 (pairDecode byteDecode 1)
  | accessCycleRange | accessCycleLimits => sized 4 (pairDecode uint16DecodeLe 2)
  | reservedChannels => some

section Get

variable {γ ν : Type} (env : Environment ν)

/-- The function that reads the attribute. Only the one for the reserved channels is told the size
of the array that it may fill. -/
def get (size : UInt8) : (a : Attribute) → Call γ ν (Except AppRes a.Value)
  | role => wpcGetRole env
  | nodeAddress => wpcGetNodeAddress env
  | networkAddress => wpcGetNetworkAddress env
  | networkChannel => wpcGetNetworkChannel env
  | channelMap => wpcGetChannelMap env
  | reservedChannels => wpcGetReservedChannels env size
  | remainingEnergy => wpcGetRemainingEnergy env
  | autostart => wpcGetAutostart env
  | accessCycleRange => wpcGetAccessCycleRange env
  | mtu => wpcGetMtu env
  | pduBufferSize => wpcGetPduBufferSize env
  | scratchpadSequence => wpcGetScratchpadSequence env
  | meshApiVersion => wpcGetMeshApiVersion env
  | channelLimits => wpcGetChannelLimits env
  | appConfigDataSize => wpcGetAppConfigDataSize env
  | hwMagic => wpcGetHwMagic env
  | stackProfile => wpcGetStackProfile env
  | stackStatus => wpcGetStackStatus env
  | pduBufferUsage => wpcGetPduBufferUsage env
  | pduBufferCapacity => wpcGetPduBufferCapacity env
  | routeCount => wpcGetRouteCount env
  | systemTime => wpcGetSystemTime env
  | accessCycleLimits => wpcGetAccessCycleLimits env
  | currentAccessCycle => wpcGetCurrentAccessCycle env
  | scratchpadBlockMax => wpcGetScratchpadBlockMax env
  | scratchpadSize => wpcGetScratchpadSize env

end Get

end Attribute

/-- The attributes, and the keys of the node, which are written only. -/
inductive Register where
  | att (a : Attribute)
  | cipherKey
  | authenticationKey
  | networkKeyPair
  | managementKeyPair
deriving DecidableEq, Repr

namespace Register

abbrev Value : Register → Type
  | att a => a.Value
  | cipherKey | authenticationKey | networkKeyPair | managementKeyPair => List UInt8

def cell : Register → Sap × UInt16
  | att a => a.cell
  | cipherKey => (.csap, cCipherKeyId)
  | authenticationKey => (.csap, cAuthKeyId)
  | networkKeyPair => (.csap, cNetworkKeyPairId)
  | managementKeyPair => (.csap, cManagementKeyPairId)

def read : (r : Register) → List UInt8 → Option r.Value
  | att a => a.read
  | cipherKey | authenticationKey | networkKeyPair | managementKeyPair => some

end Register

abbrev AttributeCells := Cells (Sap × UInt16) UInt8

def registers : Layout Register (Sap × UInt16) UInt8 Register.Value := ⟨Register.cell, Register.read⟩

/-- The functions that write attributes, with what they are given. -/
inductive Change where
  | role (role : UInt8)
  | nodeAddress (add : UInt32)
  | networkAddress (add : UInt32)
  | networkChannel (channel : UInt8)
  | channelMap (channelMap : UInt32)
  | reservedChannels (channels : List UInt8)
  | remainingEnergy (energy : UInt8)
  | autostart (enable : UInt8)
  | accessCycleRange (minAc maxAc : UInt16)
  | cipherKey (key : List UInt8)
  | removeCipherKey
  | authenticationKey (key : List UInt8)
  | removeAuthenticationKey
  | networkKeyPair (keyPair : Option WpcKeyPair)
  | managementKeyPair (keyPair : Option WpcKeyPair)

namespace Change

def target : Change → Register
  | role _ => .att .role
  | nodeAddress _ => .att .nodeAddress
  | networkAddress _ => .att .networkAddress
  | networkChannel _ => .att .networkChannel
  | channelMap _ => .att .channelMap
  | reservedChannels _ => .att .reservedChannels
  | remainingEnergy _ => .att .remainingEnergy
  | autostart _ => .att .autostart
  | accessCycleRange _ _ => .att .accessCycleRange
  | cipherKey _ | removeCipherKey => .cipherKey
  | authenticationKey _ | removeAuthenticationKey => .authenticationKey
  | networkKeyPair _ => .networkKeyPair
  | managementKeyPair _ => .managementKeyPair

def value : (c : Change) → c.target.Value
  | role v | networkChannel v | remainingEnergy v | autostart v => v
  | nodeAddress v | networkAddress v | channelMap v => v
  | reservedChannels v => v
  | accessCycleRange minAc maxAc => (minAc, maxAc)
  | cipherKey key | authenticationKey key => key
  | removeCipherKey | removeAuthenticationKey => disableKey
  | networkKeyPair keyPair | managementKeyPair keyPair => keyPair.elim [] WpcKeyPair.bytes

/-- What is written of the value. -/
def bytes : Change → List UInt8
  | role v | networkChannel v | remainingEnergy v | autostart v => [v]
  | nodeAddress v | channelMap v => uint32EncodeLe v
  | networkAddress v => (uint32EncodeLe v).take 3
  | reservedChannels v => v
  | accessCycleRange minAc maxAc => uint16EncodeLe minAc ++ uint16EncodeLe maxAc
  | cipherKey key | authenticationKey key => key
  | removeCipherKey | removeAuthenticationKey => disableKey
  | networkKeyPair keyPair | managementKeyPair keyPair => keyPair.elim [] WpcKeyPair.bytes

section Apply

variable {γ ν : Type} (env : Environment ν)

def apply : Change → Call γ ν AppRes
  | role v => wpcSetRole env v
  | nodeAddress v => wpcSetNodeAddress env v
  | networkAddress v => wpcSetNetworkAddress env v
  | networkChannel v => wpcSetNetworkChannel env v
  | channelMap v => wpcSetChannelMap env v
  | reservedChannels v => wpcSetReservedChannels env v
  | remainingEnergy v => wpcSetRemainingEnergy env v
  | autostart v => wpcSetAutostart env v
  | accessCycleRange minAc maxAc => wpcSetAccessCycleRange env minAc maxAc
  | cipherKey key => wpcSetCipherKey env key
  | removeCipherKey => wpcRemoveCipherKey env
  | authenticationKey key => wpcSetAuthenticationKey env key
  | removeAuthenticationKey => wpcRemoveAuthenticationKey env
  | networkKeyPair keyPair => wpcSetNetworkKeyPair env keyPair
  | managementKeyPair keyPair => wpcSetManagementKeyPair env keyPair

/-- A value that is written can be read back from its bytes; the others are refused at once. -/
theorem apply_eq (c : Change) :
    (c.apply (γ := γ) env = writeAttribute env c.target.cell.1 c.target.cell.2 c.bytes ∧
      c.target.read c.bytes = some c.value) ∨
    ∃ error, error ≠ .ok ∧ c.apply (γ := γ) env = pure error := by
  cases c with
  | networkAddress v =>
    by_cases h : v >>> 24 = 0
    · refine .inl ⟨if_neg (not_not.mpr h), ?_⟩
      exact congrArg some (uint32DecodeLe_three h)
    · exact .inr ⟨.invalidValue, by decide, if_pos h⟩
  | reservedChannels v =>
    by_cases h : reservedChannelsMaxNumBytes < v.length
    · exact .inr ⟨.invalidValue, by decide, if_pos h⟩
    · exact .inl ⟨if_neg h, rfl⟩
  | networkKeyPair keyPair | managementKeyPair keyPair =>
    cases keyPair with
    | none => exact .inr ⟨.internalError, by decide, rfl⟩
    | some keyPair => exact .inl ⟨rfl, rfl⟩
  | nodeAddress v | channelMap v =>
    refine .inl ⟨rfl, ?_⟩
    exact congrArg some (uint32DecodeLe_encode v)
  | accessCycleRange minAc maxAc =>
    refine .inl ⟨rfl, ?_⟩
    exact congrArg some (Prod.ext (uint16DecodeLe_encode minAc) (uint16DecodeLe_encode maxAc))
  | _ => exact .inl ⟨rfl, rfl⟩

end Apply

end Change

/-- The size is that of the array for the reserved channels. -/
inductive ApiCall where
  | get (a : Attribute) (size : UInt8)
  | set (c : Change)
  | isCipherKeySet
  | isAuthenticationKeySet
  | getFirmwareVersion

namespace ApiCall

variable {γ ν : Type} (env : Environment ν)

/-- An internal error may stand for an answer that was lost. -/
def entryOf (c : Change) : AppRes → Entry Register.Value
  | .ok => .stored c.target c.value
  | .internalError => .unsure c.target
  | _ => .nothing

def perform : ApiCall → Call γ ν (Entry Register.Value)
  | get a size => do
    match ← a.get env size with
    | .ok value => return .told (.att a) value
    | .error _ => return .nothing
  | set c => do
    let res ← c.apply env
    return entryOf c res
  | isCipherKeySet => do
    let _ ← wpcIsCipherKeySet env
    return .nothing
  | isAuthenticationKeySet => do
    let _ ← wpcIsAuthenticationKeySet env
    return .nothing
  | getFirmwareVersion => do
    let _ ← wpcGetFirmwareVersion env
    return .nothing

def step : Step (World γ ν) ApiCall := fun w call => finish (call.perform env) w

def log (w : World γ ν) (calls : List ApiCall) : List (Entry Register.Value) :=
  journal (step env) (fun w call => (call.perform env w).1.toList) w calls

end ApiCall

/-- The node keeps attributes in cells. A write that it confirms is done, one that it refuses is
not, and one whose confirm was lost may be either. The owned cells change by writes only. -/
structure KeepsAttributes {ν : Type} (env : Environment ν) (cells : ν → AttributeCells)
    (owned : Sap × UInt16 → Prop) : Prop where
  read : ∀ n sap id, SameOn owned (cells n) (cells (env.attributeRead sap id n).2)
  answers : ∀ n sap id, (env.attributeRead sap id n).1.1 = 0 →
    cells n (sap, id) = some (env.attributeRead sap id n).1.2
  written : ∀ n sap id value, (env.request (attributeWrite sap id value) n).1 = 0 →
    SameOn owned (Function.update (cells n) (sap, id) (some value))
      (cells (env.request (attributeWrite sap id value) n).2)
  refused : ∀ n sap id value, 0 < (env.request (attributeWrite sap id value) n).1 →
    SameOn owned (cells n) (cells (env.request (attributeWrite sap id value) n).2)
  lost : ∀ n sap id value, (env.request (attributeWrite sap id value) n).1 < 0 → ∀ k, owned k →
    k ≠ (sap, id) → cells (env.request (attributeWrite sap id value) n).2 k = cells n k

section Keeping

variable {γ ν : Type} {env : Environment ν} {cells : ν → AttributeCells} {owned : Sap × UInt16 → Prop}

def Untouched (cells : ν → AttributeCells) (owned : Sap × UInt16 → Prop) (w t : World γ ν) : Prop :=
  SameOn owned (cells w.node) (cells t.node)

theorem composes_untouched : Composes (Untouched (γ := γ) cells owned) :=
  composes_sameOn owned fun w : World γ ν => cells w.node

section Reads

variable (hNode : KeepsAttributes env cells owned)
include hNode

theorem along_read (sap : Sap) (id : UInt16) :
    Along (Untouched (γ := γ) cells owned) fun n => (env.attributeRead sap id n).2 :=
  fun w => hNode.read w.node sap id

theorem moves_read {α : Type} {sap : Sap} {id : UInt16} {length : Nat} {decode : List UInt8 → α} :
    Moves (Untouched cells owned) (readAttribute env sap id length decode : Call γ ν _) :=
  moves_readAttribute composes_untouched (along_read hNode sap id) length decode

theorem moves_keySet {id : UInt16} : Moves (Untouched cells owned) (isKeySet env id : Call γ ν _) :=
  moves_isKeySet composes_untouched (along_read hNode .csap id)

theorem moves_firmwareVersion (ids version : List UInt16) :
    Moves (Untouched cells owned) (firmwareVersion env ids version : Call γ ν _) := by
  induction ids generalizing version with
  | nil => exact Moves.pure composes_untouched _
  | cons id ids ih =>
    apply Moves.bind composes_untouched (moves_read hNode)
    intro answer
    cases answer with
    | ok v => exact ih _
    | error error => exact Moves.pure composes_untouched _

theorem moves_getReservedChannels {size : UInt8} :
    Moves (Untouched cells owned) (wpcGetReservedChannels env size : Call γ ν _) := by
  apply Moves.ite (Moves.pure composes_untouched _)
  apply Moves.bind composes_untouched (moves_attributeReadRequest composes_untouched (along_read hNode _ _) _)
  intro answer
  apply Moves.ite (Moves.pure composes_untouched _)
  split
  · exact Moves.pure composes_untouched _
  · exact Moves.pure composes_untouched _

theorem moves_get (a : Attribute) (size : UInt8) :
    Moves (Untouched cells owned) (a.get env size : Call γ ν _) := by
  cases a with
  | reservedChannels => exact moves_getReservedChannels hNode
  | _ => exact moves_read hNode

end Reads

theorem answered {a : Attribute} {w : World γ ν} {v : a.Value} (hNode : KeepsAttributes env cells owned)
    (hZero : (env.attributeRead a.cell.1 a.cell.2 w.node).1.1 = 0)
    (hRead : a.read (env.attributeRead a.cell.1 a.cell.2 w.node).1.2 = some v) :
    registers.view (cells w.node) (.att a) = some v := by
  have hCell := hNode.answers w.node a.cell.1 a.cell.2 hZero
  exact (congrArg (fun cell => cell.bind a.read) hCell).trans hRead

theorem sized_of_readAttribute {α : Type} {sap : Sap} {id : UInt16} {length : Nat} {decode : List UInt8 → α}
    {w t : World γ ν} {v : α} (h : Returns (readAttribute env sap id length decode) w (.ok v) t) :
    (env.attributeRead sap id w.node).1.1 = 0 ∧
      Attribute.sized length decode (env.attributeRead sap id w.node).1.2 = some v := by
  obtain ⟨hResult, -⟩ := (returns_readAttribute env).mp h
  obtain ⟨⟨hZero, hLength⟩, rfl⟩ := readResult_eq_ok.mp hResult.symm
  exact ⟨hZero, if_pos hLength⟩

theorem bytes_of_getReservedChannels {size : UInt8} {w t : World γ ν} {v : List UInt8}
    (h : Returns (wpcGetReservedChannels env size) w (.ok v) t) :
    (env.attributeRead .csap cReservedChannels w.node).1.1 = 0 ∧
      (env.attributeRead .csap cReservedChannels w.node).1.2 = v := by
  have hTable : OkOnlyAtZero attReadErrorCodeLut := by decide
  unfold wpcGetReservedChannels at h
  simp only [returns_ite, returns_pure, returns_bind, returns_attributeReadRequest, reduceCtorEq, false_and,
    and_false, false_or] at h
  obtain ⟨-, answer, u, ⟨rfl, rfl⟩, -, hConverted⟩ := h
  split at hConverted
  · next hOk =>
    obtain ⟨hEq, -⟩ := returns_pure.mp hConverted
    obtain ⟨hZero, -⟩ := lengthChecked_eq_zero.mp ((convertErrorCode_eq_ok hTable).mp hOk)
    exact ⟨hZero, (Except.ok.inj hEq).symm⟩
  · next hError =>
    obtain ⟨hEq, -⟩ := returns_pure.mp hConverted
    cases hEq

theorem view_of_get {a : Attribute} {size : UInt8} {w t : World γ ν} {v : a.Value}
    (hNode : KeepsAttributes env cells owned) (h : Returns (a.get env size) w (.ok v) t) :
    registers.view (cells w.node) (.att a) = some v := by
  cases a with
  | reservedChannels =>
    obtain ⟨hZero, rfl⟩ := bytes_of_getReservedChannels h
    exact answered hNode hZero rfl
  | systemTime =>
    have h : Returns (wpcGetSystemTime env) w (.ok v) t := h
    obtain ⟨hZero, hRead⟩ := sized_of_readAttribute h
    exact answered hNode hZero hRead
  | _ =>
    obtain ⟨hZero, hRead⟩ := sized_of_readAttribute h
    exact answered hNode hZero hRead

/-- What a write leaves in the cells, if the node takes it, refuses it or its confirm is lost. -/
theorem logs_write {r : Register} {bytes : List UInt8} {v : r.Value} {w t : World γ ν} {res : Int}
    (hNode : KeepsAttributes env cells owned) (hRead : r.read bytes = some v)
    (h : Returns (attributeWriteRequest env r.cell.1 r.cell.2 bytes) w res t) :
    (res = 0 → Logs registers owned (cells w.node) (.stored r v) (cells t.node)) ∧
    (0 < res → Untouched cells owned w t) ∧
    (res < 0 → ∀ k, owned k → k ≠ r.cell → cells t.node k = cells w.node k) := by
  unfold attributeWriteRequest at h
  rcases returns_ite.mp h with ⟨hLong, hPure⟩ | ⟨hFits, hAsk⟩
  · obtain ⟨rfl, rfl⟩ := returns_pure.mp hPure
    refine ⟨fun hZero => absurd hZero (by decide), fun hPos => absurd hPos (by decide), ?_⟩
    exact fun _ _ _ _ => rfl
  · obtain ⟨rfl, rfl⟩ := returns_ask.mp hAsk
    refine ⟨fun hZero => ?_, fun hPos => ?_, fun hNeg => ?_⟩
    · exact .stored hRead (hNode.written w.node r.cell.1 r.cell.2 bytes hZero)
    · exact hNode.refused w.node r.cell.1 r.cell.2 bytes hPos
    · exact hNode.lost w.node r.cell.1 r.cell.2 bytes hNeg

theorem logs_unsure_of_untouched {r : Register} {w t : World γ ν} (h : Untouched cells owned w t) :
    Logs registers owned (cells w.node) (.unsure r) (cells t.node) := .unsure fun k hk _ => h k hk

theorem logs_set {c : Change} {w t : World γ ν} {res : AppRes} (hNode : KeepsAttributes env cells owned)
    (h : Returns (c.apply env) w res t) :
    Logs registers owned (cells w.node) (ApiCall.entryOf c res) (cells t.node) := by
  rcases c.apply_eq env with ⟨hApply, hRead⟩ | ⟨error, hError, hApply⟩
  · rw [hApply] at h
    obtain ⟨answer, u, hWrite, hPure⟩ := returns_bind.mp h
    obtain ⟨rfl, rfl⟩ := returns_pure.mp hPure
    obtain ⟨hStored, hRefused, hLost⟩ := logs_write hNode hRead hWrite
    obtain hNeg | rfl | hPos : answer < 0 ∨ answer = 0 ∨ 0 < answer := by omega
    · rw [convertErrorCode_internalError _ hNeg]
      exact .unsure (hLost hNeg)
    · exact hStored rfl
    · have hTable : OkOnlyAtZero attWriteErrorCodeLut := by decide
      cases hRes : convertErrorCode attWriteErrorCodeLut answer with
      | ok => exact absurd ((convertErrorCode_eq_ok hTable).mp hRes) (by omega)
      | internalError => exact logs_unsure_of_untouched (hRefused hPos)
      | _ => exact .nothing (hRefused hPos)
  · rw [hApply] at h
    obtain ⟨rfl, rfl⟩ := returns_pure.mp h
    have hSame : Untouched cells owned t t := composes_untouched.refl t
    cases res with
    | ok => exact absurd rfl hError
    | internalError => exact logs_unsure_of_untouched hSame
    | _ => exact .nothing hSame

theorem logs_silent {α : Type} {p : Call γ ν α} {w t : World γ ν} {e : Entry Register.Value}
    (hMoves : Moves (Untouched cells owned) p) (h : Returns (do let _ ← p; return .nothing) w e t) :
    Logs registers owned (cells w.node) e (cells t.node) := by
  obtain ⟨_, u, hReturns, hPure⟩ := returns_bind.mp h
  obtain ⟨rfl, rfl⟩ := returns_pure.mp hPure
  exact .nothing (hMoves.returns hReturns)

theorem logs_perform {call : ApiCall} {w t : World γ ν} {e : Entry Register.Value}
    (hNode : KeepsAttributes env cells owned) (h : Returns (call.perform env) w e t) :
    Logs registers owned (cells w.node) e (cells t.node) := by
  cases call with
  | get a size =>
    obtain ⟨answer, u, hGet, hEntry⟩ := returns_bind.mp h
    have hSame : Untouched cells owned w u := (moves_get hNode a size).returns hGet
    cases answer with
    | ok v =>
      obtain ⟨rfl, rfl⟩ := returns_pure.mp hEntry
      exact .told (view_of_get hNode hGet) hSame
    | error error =>
      obtain ⟨rfl, rfl⟩ := returns_pure.mp hEntry
      exact .nothing hSame
  | set c =>
    obtain ⟨res, u, hSet, hEntry⟩ := returns_bind.mp h
    obtain ⟨rfl, rfl⟩ := returns_pure.mp hEntry
    exact logs_set hNode hSet
  | isCipherKeySet | isAuthenticationKeySet => exact logs_silent (moves_keySet hNode) h
  | getFirmwareVersion => exact logs_silent (moves_firmwareVersion hNode _ _) h

/-- In every run of the calls, an attribute that a call reads is what was last written to it by its
own function, as long as no write of it since then is unsure; and what the node holds at the start,
if it was not written before. -/
theorem attributes_read_back {w t : World γ ν} {calls : List ApiCall}
    (hNode : KeepsAttributes env cells owned) (hRun : run (ApiCall.step env) w calls = some t) {a : Attribute}
    (hOwned : owned a.cell) :
    (∀ before mid after v v', ApiCall.log env w calls =
        before ++ .stored (.att a) v :: (mid ++ .told (.att a) v' :: after) →
      (∀ e ∈ mid, ¬ e.Touches registers a.cell) → v' = v) ∧
    (∀ before after v, ApiCall.log env w calls = before ++ .told (.att a) v :: after →
      (∀ e ∈ before, ¬ e.Touches registers a.cell) → registers.view (cells w.node) (.att a) = some v) := by
  have hTrace := trace_journal (fun _ _ _ _ => logs_perform hNode) hRun
  have hCell : owned (registers.cell (.att a)) := hOwned
  exact hTrace.read_back hCell

end Keeping

def storeRead (sap : Sap) (id : UInt16) (cells : AttributeCells) : (Int × List UInt8) × AttributeCells :=
  match cells (sap, id) with
  | some value => ((0, value), cells)
  | none => ((4, []), cells)

/-- It has no other services; the sixth result is its refusal. -/
def storeRequest (request : Request) (cells : AttributeCells) : Int × AttributeCells :=
  match request.payload with
  | .attributeWrite id _ value =>
    if request.primitiveId = Sap.csap.writeRequest then (0, Function.update cells (.csap, id) (some value))
    else if request.primitiveId = Sap.msap.writeRequest then (0, Function.update cells (.msap, id) (some value))
    else (6, cells)
  | _ => (6, cells)

def storeNode : Environment AttributeCells where
  request := storeRequest
  attributeRead := storeRead
  appConfigDataRead cells := ((1, ⟨0, 0, []⟩), cells)
  scratchpadStatus cells := ((-1, ⟨0, 0, 0, 0, 0, 0, 0, 0, 0⟩), cells)
  scratchpadTargetRead cells := ((1, ⟨0, 0, 0, 0⟩), cells)
  timestampMsMonotonic cells := (0, cells)
  timestampMsEpoch cells := (0, cells)
  malloc cells := (false, cells)
  rand cells := (0, cells)
  rounds := 1

theorem storeRequest_attributeWrite (sap : Sap) (id : UInt16) (value : List UInt8) (cells : AttributeCells) :
    storeRequest (attributeWrite sap id value) cells = (0, Function.update cells (sap, id) (some value)) := by
  cases sap with
  | csap => rfl
  | msap => rfl

theorem keepsAttributes_storeNode : KeepsAttributes storeNode id fun _ => True where
  read n sap id := by
    change SameOn _ n (storeRead sap id n).2
    unfold storeRead
    split <;> exact SameOn.refl _ _
  answers n sap id h := by
    change (storeRead sap id n).1.1 = 0 at h
    change n (sap, id) = some (storeRead sap id n).1.2
    unfold storeRead at h ⊢
    split at h
    · next hCell => rw [hCell]
    · cases h
  written n sap id value _ := by
    change SameOn _ _ (storeRequest (attributeWrite sap id value) n).2
    rw [storeRequest_attributeWrite]
    exact SameOn.refl _ _
  refused n sap id value h := by
    change 0 < (storeRequest (attributeWrite sap id value) n).1 at h
    rw [storeRequest_attributeWrite] at h
    cases h
  lost n sap id value h := by
    change (storeRequest (attributeWrite sap id value) n).1 < 0 at h
    rw [storeRequest_attributeWrite] at h
    cases h

def networkCalls : List ApiCall :=
  [.set (.networkAddress 0x123456), .set (.networkAddress 0x1000000), .set (.networkChannel 3),
    .get .networkAddress 0]

def blankWorld : World Unit AttributeCells := ⟨⟨0, 0⟩, (), fun _ => none⟩

/-- The address that is too long is refused, and that of the network is read as it was set. -/
theorem attributes_read_back_network :
    (∀ before mid after v v', ApiCall.log storeNode blankWorld networkCalls =
        before ++ .stored (.att .networkAddress) v :: (mid ++ .told (.att .networkAddress) v' :: after) →
      (∀ e ∈ mid, ¬ e.Touches registers Attribute.networkAddress.cell) → v' = v) ∧
    ApiCall.log storeNode blankWorld networkCalls =
      [.stored (.att .networkAddress) (0x123456 : UInt32), .nothing, .stored (.att .networkChannel) (3 : UInt8),
        .told (.att .networkAddress) (0x123456 : UInt32)] :=
  ⟨(attributes_read_back keepsAttributes_storeNode rfl trivial).1, rfl⟩

end CMeshApi.Wpc
