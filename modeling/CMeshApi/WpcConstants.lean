import Mathlib.Data.Int.Notation

/-!
# Constants and error codes

The values of `wpc_constants.h`, `wpc_internal.h`, `wpc_types.h` and `dsap.h` that
the modelled functions use. An `int` result is an `Int`, a size is a `Nat`.
-/

namespace CMeshApi

def wpcIntGenError : Int := -1
def wpcIntTimeoutError : Int := -2
def wpcIntSyncError : Int := -3
def wpcIntWrongParamError : Int := -4
def wpcIntWrongCrc : Int := -5
def wpcIntWrongBufferSize : Int := -6
def wpcIntWrongCrcFromHost : Int := -7

def sapConfirmOffset : Nat := 0x80

def maxApduDsapSize : Nat := 180
def maxFullPacketSize : Nat := 1500
def maxSentPacketWithIndication : Nat := 16

def dsapFragLengthMask : UInt16 := 0x0fff
def dsapFragLastFlagMask : UInt16 := 0x8000

/-- The packed `dsap_data_rx_frag_ind_pl_t`, the largest member of the payload union. -/
def sizeofDsapDataRxFragIndPl : Nat := 1 + 4 + 1 + 4 + 1 + 1 + 4 + 2 + 2 + 1 + maxApduDsapSize

def sizeofWpcFrame : Nat := 3 + sizeofDsapDataRxFragIndPl

def maxFrameSize : Nat := sizeofWpcFrame + 2

end CMeshApi
