import CMeshApi.Foundations.Programs
import CMeshApi.Util
import CMeshApi.WpcConstants

/-!
# Requests, and what answers them

The requests that the management functions of `msap.c` and `attribute.c` build, and
all that the library calls outside of itself: the node behind
`WPC_Int_send_request`, the clocks, the allocator and `rand`. How these behave is a
parameter; a hidden state of its own makes them as arbitrary as they are.
-/

namespace CMeshApi.Wpc

open Programs

/-- `app_res_e` of `wpc.h`, in its order. -/
inductive AppRes where
  | ok
  | stackNotStopped
  | stackAlreadyStopped
  | stackAlreadyStarted
  | invalidValue
  | roleNotSet
  | nodeAddNotSet
  | netAddNotSet
  | netChanNotSet
  | stackIsStopped
  | nodeNotASink
  | unknownDest
  | noConfig
  | alreadyRegistered
  | notRegistered
  | attributeNotSet
  | accessDenied
  | dataError
  | noScratchpadStart
  | noValidScratchpad
  | notASink
  | outOfMemory
  | invalidDiagInterval
  | invalidSeq
  | invalidStartAddress
  | invalidNumberOfBytes
  | invalidScratchpad
  | invalidRebootDelay
  | internalError
  | operationNotSupported
deriving DecidableEq, Repr

/-- The two spaces of attributes, each with its own primitives. -/
inductive Sap where
  | csap
  | msap
deriving DecidableEq, Repr

/-- The payload of a request, with the bytes that the code puts into its arrays. -/
inductive Payload where
  | none
  | attributeWrite (attributeId : UInt16) (attributeLength : UInt8) (attributeValue : List UInt8)
  | stackStart (startOption : UInt8)
  | appConfigDataWrite (sequenceNumber : UInt8) (diagDataInterval : UInt16)
      (appConfigData : List UInt8)
  | imageStart (scratchpadLength : UInt32) (scratchpadSequenceNumber : UInt8)
  | imageBlock (startAdd : UInt32) (numberOfBytes : UInt8) (bytes : List UInt8)
  | scratchpadTargetWrite (targetSequence : UInt8) (targetCrc : UInt16) (action param : UInt8)
deriving DecidableEq, Repr

structure Request where
  primitiveId : UInt8
  payloadLength : UInt8
  payload : Payload
deriving DecidableEq, Repr

/-- `app_scratchpad_status_t`. -/
structure AppScratchpadStatus where
  scratLen : UInt32
  scratCrc : UInt16
  scratSeqNumber : UInt8
  scratType : UInt8
  scratStatus : UInt8
  processedScratLen : UInt32
  processedScratCrc : UInt16
  processedScratSeqNumber : UInt8
  firmwareMemoryAreaId : UInt32
deriving DecidableEq, Repr

structure ScratchpadTarget where
  sequence : UInt8
  crc : UInt16
  action : UInt8
  param : UInt8
deriving DecidableEq, Repr

/-- `msap_app_config_data_read_conf_pl_t` without its result. -/
structure AppConfigDataConf where
  sequenceNumber : UInt8
  diagDataInterval : UInt16
  appConfigData : List UInt8
deriving DecidableEq, Repr

/-- What is outside of the library. A result is the negative code of
`WPC_Int_send_request`, or the result in the confirm; what is read counts only with the result
zero. A request comes back: that `check_if_timeout_reached_locked` may close the process instead is
left to the calls that are about it. -/
structure Environment (ν : Type) where
  request : Request → ν → Int × ν
  attributeRead : Sap → UInt16 → ν → (Int × List UInt8) × ν
  appConfigDataRead : ν → (Int × AppConfigDataConf) × ν
  scratchpadStatus : ν → (Int × AppScratchpadStatus) × ν
  scratchpadTargetRead : ν → (Int × ScratchpadTarget) × ν
  timestampMsMonotonic : ν → Nat × ν
  timestampMsEpoch : ν → Nat × ν
  malloc : ν → Bool × ν
  rand : ν → UInt32 × ν
  /-- How many rounds of one loop a call is followed for. -/
  rounds : Nat

/-- The static variables of `wpc.c` and `wpc_internal.c`. -/
structure Statics where
  timeoutAfterStopTaskS : UInt32
  mtu : UInt32
deriving DecidableEq, Repr

/-- The static variables of the library, those of the modules above in `gateway`, and the state
of its environment. -/
structure World (γ ν : Type) where
  statics : Statics
  gateway : γ
  node : ν

abbrev Call (γ ν α : Type) := Program (World γ ν) α

section Asking

variable {γ ν α : Type}

def ask (f : ν → α × ν) : Call γ ν α := fun w =>
  (some (f w.node).1, { w with node := (f w.node).2 })

@[simp] theorem returns_ask {f : ν → α × ν} {w t : World γ ν} {a : α} :
    Returns (ask f) w a t ↔ a = (f w.node).1 ∧ t = { w with node := (f w.node).2 } := by
  change (some (f w.node).1, { w with node := (f w.node).2 }) = (some a, t) ↔ _
  rw [Prod.mk.injEq, Option.some.injEq]
  exact and_congr eq_comm eq_comm

theorem moves_ask {r : World γ ν → World γ ν → Prop} {f : ν → α × ν}
    (h : ∀ w, r w { w with node := (f w.node).2 }) : Moves r (ask f : Call γ ν α) := h

end Asking

end CMeshApi.Wpc
