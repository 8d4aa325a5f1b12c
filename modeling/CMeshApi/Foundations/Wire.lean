import Mathlib.Algebra.Group.Nat.Defs
import Mathlib.Data.List.Basic

/-!
# The protobuf wire format

A message is a sequence of fields, each a key and a value. An integer is written in
groups of seven bits, the lowest first; strings, bytes and messages inside of a
message are written with their length before them.
-/

namespace CMeshApi.Wire

def varint (n : Nat) : List UInt8 :=
  if n < 128 then [.ofNat n] else .ofNat (n % 128 + 128) :: varint (n / 128)

/-- How many groups of seven bits a number takes. -/
def width (n : Nat) : Nat := n.log2 / 7 + 1

inductive Value where
  | varint (n : Nat)
  | lengthDelimited (bytes : List UInt8)
deriving DecidableEq, Repr

structure Field where
  number : Nat
  value : Value
deriving DecidableEq, Repr

def Value.wireType : Value → Nat
  | .varint _ => 0
  | .lengthDelimited _ => 2

def Value.encode : Value → List UInt8
  | .varint n => Wire.varint n
  | .lengthDelimited bytes => Wire.varint bytes.length ++ bytes

def Field.encode (f : Field) : List UInt8 := varint (8 * f.number + f.value.wireType) ++ f.value.encode

/-- A field that is written only if it is present. -/
def Field.optional (present : Bool) (f : Field) : List Field := if present then [f] else []

def encode (message : List Field) : List UInt8 := message.flatMap Field.encode

def uint (number n : Nat) : Field := ⟨number, .varint n⟩

def bytes (number : Nat) (content : List UInt8) : Field := ⟨number, .lengthDelimited content⟩

/-- A repeated field of integers, packed into one field. -/
def packed (number : Nat) (values : List Nat) : List Field :=
  Field.optional (!values.isEmpty) (bytes number (values.flatMap varint))

/-- A message as the value of a field. -/
def submessage (number : Nat) (message : List Field) : Field := bytes number (encode message)

theorem width_small {n : Nat} (h : n < 128) : width n = 1 := by
  have hBits : n.log2 < 7 := by
    by_cases hZero : n = 0
    · subst hZero
      decide
    · exact (Nat.log2_lt hZero).mpr h
  rw [width, Nat.div_eq_of_lt hBits]

theorem width_large {n : Nat} (h : ¬ n < 128) : width n = width (n / 128) + 1 := by
  have hHalf : ∀ m, 2 ≤ m → m.log2 = (m / 2).log2 + 1 := fun m hm => by
    rw [Nat.log2_def m, if_pos hm]
  have hBits : n.log2 = (n / 128).log2 + 7 := by
    have hDiv : n / 128 = n / 2 / 2 / 2 / 2 / 2 / 2 / 2 := by omega
    rw [hDiv, hHalf n (by omega), hHalf (n / 2) (by omega), hHalf (n / 2 / 2) (by omega),
      hHalf (n / 2 / 2 / 2) (by omega), hHalf (n / 2 / 2 / 2 / 2) (by omega),
      hHalf (n / 2 / 2 / 2 / 2 / 2) (by omega), hHalf (n / 2 / 2 / 2 / 2 / 2 / 2) (by omega)]
  unfold width
  omega

@[simp] theorem length_varint (n : Nat) : (varint n).length = width n := by
  induction n using Nat.strongRecOn with
  | ind n ih =>
    rw [varint]
    split
    · next h => rw [width_small h, List.length_singleton]
    · next h => rw [List.length_cons, ih (n / 128) (by omega), ← width_large h]

theorem width_pos (n : Nat) : 0 < width n := Nat.succ_pos _

/-- A number of `7 * (k + 1)` bits takes `k + 1` groups. -/
theorem width_le {n k : Nat} (h : n < 2 ^ (7 * (k + 1))) : width n ≤ k + 1 := by
  unfold width
  by_cases hZero : n = 0
  · subst hZero
    rw [Nat.log2_zero]
    omega
  · have hBits : n.log2 < 7 * (k + 1) := (Nat.log2_lt hZero).mpr h
    omega

@[simp] theorem encode_nil : encode [] = [] := rfl

@[simp] theorem encode_append (m m' : List Field) : encode (m ++ m') = encode m ++ encode m' :=
  List.flatMap_append

@[simp] theorem encode_cons (f : Field) (m : List Field) : encode (f :: m) = f.encode ++ encode m := rfl

theorem encode_append_cons_ne {m m' : List Field} {f : Field} :
    encode (m ++ []) ≠ encode (m ++ f :: m') := by
  intro h
  rw [encode_append, encode_append, List.append_right_inj, encode_cons] at h
  have hKey : varint (8 * f.number + f.value.wireType) = [] :=
    (List.append_eq_nil_iff.mp (List.append_eq_nil_iff.mp h.symm).1).1
  have hLength := width_pos (8 * f.number + f.value.wireType)
  rw [← length_varint, hKey] at hLength
  cases hLength

/-- The key of a field takes one byte as long as its number is below 16. -/
theorem length_encode_uint {number : Nat} (h : number < 16) (n : Nat) :
    (uint number n).encode.length = 1 + width n := by
  change (varint (8 * number + 0) ++ varint n).length = _
  rw [List.length_append, length_varint, length_varint, width_small (by omega)]

theorem length_encode_bytes {number : Nat} (h : number < 16) (content : List UInt8) :
    (bytes number content).encode.length = 1 + width content.length + content.length := by
  change (varint (8 * number + 2) ++ (varint content.length ++ content)).length = _
  rw [List.length_append, List.length_append, length_varint, length_varint,
    width_small (by omega), Nat.add_assoc]

theorem length_encode_submessage {number : Nat} (h : number < 16) (message : List Field) :
    (submessage number message).encode.length =
      1 + width (encode message).length + (encode message).length := length_encode_bytes h _

theorem length_encode_optional (present : Bool) (f : Field) :
    (encode (Field.optional present f)).length = if present then f.encode.length else 0 := by
  cases present with
  | false => rfl
  | true => exact congrArg List.length (List.append_nil _)

end CMeshApi.Wire
