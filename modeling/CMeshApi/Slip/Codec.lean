import Mathlib.Algebra.Group.Int.Defs
import CMeshApi.Slip.Crc
import CMeshApi.WpcConstants

/-!
# SLIP encoding and decoding

`slip_encode_buffer`, `Slip_encode`, `slip_decode_buffer` and `Slip_decode` of
`slip.c`. The write position of both loops is a `uint8_t` and wraps; the buffers
are memory around their pointer, so that a write outside them is not lost.
-/

namespace CMeshApi.Slip

def endSlipOctet : UInt8 := 0xC0
def escSlipOctet : UInt8 := 0xDB
def endSubsOctet : UInt8 := 0xDC
def escSubsOctet : UInt8 := 0xDD

/-- The loop of `slip_encode_buffer`; `none` is its return on a too small buffer. -/
def slipEncodeLoop (bufferEscaped : Int) (lenEscaped : Nat) :
    List UInt8 → UInt8 → Memory UInt8 → Memory UInt8 × Option UInt8
  | [], write, mem => (mem, some write)
  | current :: buffer, write, mem =>
    if current = endSlipOctet ∨ current = escSlipOctet then
      if lenEscaped ≤ write.toNat then (mem, none)
      else
        let mem := mem.store (bufferEscaped + write.toNat) escSlipOctet
        let write := write + 1
        let current := if current = endSlipOctet then endSubsOctet else escSubsOctet
        if lenEscaped ≤ write.toNat then (mem, none)
        else slipEncodeLoop bufferEscaped lenEscaped buffer (write + 1)
          (mem.store (bufferEscaped + write.toNat) current)
    else
      if lenEscaped ≤ write.toNat then (mem, none)
      else slipEncodeLoop bufferEscaped lenEscaped buffer (write + 1)
        (mem.store (bufferEscaped + write.toNat) current)

/-- The `uint32_t` result, as the `int` that both callers read it back to. -/
def slipEncodeBuffer (buffer : List UInt8) (mem : Memory UInt8) (bufferEscaped : Int)
    (lenEscaped : Nat) : Memory UInt8 × Int :=
  match slipEncodeLoop bufferEscaped lenEscaped buffer 0 mem with
  | (mem, some write) => (mem, write.toNat)
  | (mem, none) => (mem, wpcIntWrongBufferSize)

/-- `len_out - total_size`, computed in `uint32_t`. -/
def remainingLength (lenOut : UInt32) (totalSize : Int) : Nat :=
  ((lenOut.toNat - totalSize) % 2 ^ 32).toNat

/-- The rounds of the loop that appends the escaped CRC; `none` when one returns an error. -/
def slipEncodeCrc (crc : UInt16) (lenOut : UInt32) :
    List Nat → Memory UInt8 → Int → Memory UInt8 × Option Int
  | [], bufferOut, totalSize => (bufferOut, some totalSize)
  | i :: rounds, bufferOut, totalSize =>
    match slipEncodeBuffer [crcByte crc i] bufferOut totalSize (remainingLength lenOut totalSize) with
    | (bufferOut, tempSize) =>
      if tempSize = -1 then (bufferOut, none)
      else slipEncodeCrc crc lenOut rounds bufferOut (totalSize + tempSize)

def slipEncode (bufferIn : List UInt8) (bufferOut : Memory UInt8) (lenOut : UInt32) :
    Memory UInt8 × Int :=
  let crc := crcFromBuffer bufferIn
  match slipEncodeBuffer bufferIn bufferOut 0 lenOut.toNat with
  | (bufferOut, totalSize) =>
    if totalSize = -1 then (bufferOut, wpcIntWrongBufferSize)
    else match slipEncodeCrc crc lenOut [0, 1] bufferOut totalSize with
      | (bufferOut, some totalSize) => (bufferOut, totalSize)
      | (bufferOut, none) => (bufferOut, wpcIntWrongBufferSize)

/-- The loop of `slip_decode_buffer`, in place. It takes at most one round for each byte. -/
def slipDecodeLoop (len : Nat) : (fuel : Nat) → Nat → UInt8 → Memory UInt8 → Memory UInt8 × UInt8
  | 0, _, write, buffer => (buffer, write)
  | fuel + 1, read, write, buffer =>
    if read < len then
      if buffer read = escSlipOctet then
        let read := read + 1
        let current := if buffer read = endSubsOctet then endSlipOctet else escSlipOctet
        slipDecodeLoop len fuel (read + 1) (write + 1) (buffer.store write.toNat current)
      else
        slipDecodeLoop len fuel (read + 1) (write + 1) (buffer.store write.toNat (buffer read))
    else (buffer, write)

def slipDecodeBuffer (buffer : Memory UInt8) (len : Nat) : Memory UInt8 × UInt8 :=
  slipDecodeLoop len len 0 0 buffer

def slipDecode (buffer : Memory UInt8) (len : Nat) : Memory UInt8 × Int :=
  match slipDecodeBuffer buffer len with
  | (buffer, write) =>
    let decodedLen : Int := write.toNat
    -- the length is a uint32_t, so fewer than two decoded bytes ask for about 2^32
    let crc := crcFromBuffer (buffer.read 0 ((decodedLen - 2) % 2 ^ 32).toNat)
    let crcFromFrame := uint16DecodeLe buffer (decodedLen - 2)
    if crc ≠ crcFromFrame then
      if crcFromFrame = 0xFFFF then (buffer, wpcIntWrongCrcFromHost) else (buffer, wpcIntWrongCrc)
    else (buffer, decodedLen - 2)

end CMeshApi.Slip
