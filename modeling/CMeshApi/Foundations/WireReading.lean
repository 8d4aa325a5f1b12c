import CMeshApi.Foundations.Wire

/-!
# Reading the wire format

The other direction: the fields of a message are read off its bytes, and what was written is
read back. A field is looked up by its number, and a later one of the same number counts.
-/

namespace CMeshApi.Wire

def readVarint : List UInt8 → Option (Nat × List UInt8)
  | [] => none
  | b :: input =>
    if b.toNat < 128 then some (b.toNat, input)
    else (readVarint input).map fun (n, rest) => (b.toNat % 128 + 128 * n, rest)

/-- Of the wire types only the two that are written are read. -/
def readValue (wireType : Nat) (input : List UInt8) : Option (Value × List UInt8) :=
  if wireType = 0 then (readVarint input).map fun (n, rest) => (.varint n, rest)
  else if wireType = 2 then
    (readVarint input).bind fun (n, rest) =>
      if n ≤ rest.length then some (.lengthDelimited (rest.take n), rest.drop n) else none
  else none

def readField (input : List UInt8) : Option (Field × List UInt8) :=
  (readVarint input).bind fun (key, rest) =>
    (readValue (key % 8) rest).map fun (value, rest) => (⟨key / 8, value⟩, rest)

/-- At most as many fields as given are read. -/
def readFields : Nat → List UInt8 → Option (List Field)
  | _, [] => some []
  | 0, _ :: _ => none
  | n + 1, input => (readField input).bind fun (f, rest) => (readFields n rest).map (f :: ·)

def read (input : List UInt8) : Option (List Field) := readFields input.length input

def lookup (number : Nat) : List Field → Option Value
  | [] => none
  | f :: message => (lookup number message).or (if f.number = number then some f.value else none)

def Value.number : Value → Option Nat
  | .varint n => some n
  | .lengthDelimited _ => none

def Value.content : Value → Option (List UInt8)
  | .varint _ => none
  | .lengthDelimited bytes => some bytes

def number? (number : Nat) (message : List Field) : Option Nat := (lookup number message).bind Value.number

def bytes? (number : Nat) (message : List Field) : Option (List UInt8) :=
  (lookup number message).bind Value.content

def message? (number : Nat) (message : List Field) : Option (List Field) :=
  (bytes? number message).bind read

/-- At most as many integers as given are read. -/
def readVarints : Nat → List UInt8 → Option (List Nat)
  | _, [] => some []
  | 0, _ :: _ => none
  | n + 1, input => (readVarint input).bind fun (v, rest) => (readVarints n rest).map (v :: ·)

/-- A repeated field of integers; what is not there has none. -/
def numbers? (number : Nat) (message : List Field) : Option (List Nat) :=
  match lookup number message with
  | none => some []
  | some value => value.content.bind fun content => readVarints content.length content

theorem readVarint_varint (n : Nat) (rest : List UInt8) :
    readVarint (varint n ++ rest) = some (n, rest) := by
  induction n using Nat.strongRecOn with
  | ind n ih =>
    rw [varint]
    split
    · next hSmall =>
      have hByte : (UInt8.ofNat n).toNat = n := by simp; omega
      rw [List.singleton_append, readVarint, hByte, if_pos hSmall]
    · next hLarge =>
      have hByte : (UInt8.ofNat (n % 128 + 128)).toNat = n % 128 + 128 := by simp; omega
      have hValue : (n % 128 + 128) % 128 + 128 * (n / 128) = n := by omega
      rw [List.cons_append, readVarint, hByte, if_neg (by omega), ih (n / 128) (by omega), Option.map_some]
      dsimp only
      rw [hValue]

theorem readValue_encode (v : Value) (rest : List UInt8) :
    readValue v.wireType (v.encode ++ rest) = some (v, rest) := by
  cases v with
  | varint n => simp [readValue, Value.wireType, Value.encode, readVarint_varint]
  | lengthDelimited bytes =>
    simp [readValue, Value.wireType, Value.encode, readVarint_varint, List.append_assoc]

theorem readField_encode (f : Field) (rest : List UInt8) : readField (f.encode ++ rest) = some (f, rest) := by
  have hType : f.value.wireType < 8 := by cases f.value <;> simp [Value.wireType]
  have hNumber : (8 * f.number + f.value.wireType) / 8 = f.number := by omega
  have hMod : (8 * f.number + f.value.wireType) % 8 = f.value.wireType := by omega
  rw [readField, Field.encode, List.append_assoc, readVarint_varint, Option.bind_some]
  dsimp only
  rw [hMod, hNumber, readValue_encode, Option.map_some]

theorem encode_field_ne_nil (f : Field) : f.encode ≠ [] := by
  intro hNil
  have hPos := width_pos (8 * f.number + f.value.wireType)
  rw [← length_varint, (List.append_eq_nil_iff.mp hNil).1] at hPos
  cases hPos

theorem length_le_encode (message : List Field) : message.length ≤ (encode message).length := by
  induction message with
  | nil => exact Nat.le_refl _
  | cons f message ih =>
    have hPos := List.length_pos_of_ne_nil (encode_field_ne_nil f)
    rw [encode_cons, List.length_append, List.length_cons]
    omega

theorem readFields_encode {n : Nat} {message : List Field} (h : message.length ≤ n) :
    readFields n (encode message) = some message := by
  induction message generalizing n with
  | nil => cases n <;> rfl
  | cons f message ih =>
    obtain ⟨n, rfl⟩ : ∃ k, n = k + 1 := ⟨n - 1, by simp at h; omega⟩
    obtain ⟨b, input, hInput⟩ := List.exists_cons_of_ne_nil (encode_field_ne_nil f)
    rw [encode_cons, hInput, List.cons_append, readFields, ← List.cons_append, ← hInput,
      readField_encode, Option.bind_some]
    · exact congrArg (Option.map (f :: ·)) (ih (by simpa using h))
    · intro hNil
      cases hNil

/-- The fields of a message are read back, whatever their numbers and values. -/
@[simp] theorem read_encode (message : List Field) : read (encode message) = some message :=
  readFields_encode (length_le_encode message)

@[simp] theorem lookup_nil (number : Nat) : lookup number [] = none := rfl

@[simp] theorem lookup_append (number : Nat) (m m' : List Field) :
    lookup number (m ++ m') = (lookup number m').or (lookup number m) := by
  induction m with
  | nil => simp
  | cons f m ih => simp [lookup, ih, Option.or_assoc]

@[simp] theorem lookup_optional (number : Nat) (present : Bool) (f : Field) :
    lookup number (Field.optional present f) =
      if present = true ∧ f.number = number then some f.value else none := by
  cases present <;> simp [Field.optional, lookup]

theorem lookup_of_not_mem {number : Nat} {message : List Field}
    (h : ∀ f ∈ message, f.number ≠ number) : lookup number message = none := by
  induction message with
  | nil => rfl
  | cons f message ih =>
    rw [lookup, ih fun f' hf' => h f' (List.mem_cons_of_mem _ hf'), if_neg (h f List.mem_cons_self)]
    rfl

@[simp] theorem message?_submessage (number : Nat) (inner : List Field) :
    message? number [submessage number inner] = some inner := by
  simp [message?, bytes?, lookup, submessage, bytes, Value.content]

theorem varint_ne_nil (n : Nat) : varint n ≠ [] := by
  intro hNil
  have hPos := width_pos n
  rw [← length_varint, hNil] at hPos
  cases hPos

theorem readVarints_flatMap {n : Nat} {values : List Nat} (h : (values.flatMap varint).length ≤ n) :
    readVarints n (values.flatMap varint) = some values := by
  induction values generalizing n with
  | nil => cases n <;> rfl
  | cons v values ih =>
    rw [List.flatMap_cons, List.length_append] at h
    have hPos := List.length_pos_of_ne_nil (varint_ne_nil v)
    obtain ⟨n, rfl⟩ : ∃ k, n = k + 1 := ⟨n - 1, by omega⟩
    obtain ⟨b, input, hInput⟩ := List.exists_cons_of_ne_nil (varint_ne_nil v)
    rw [List.flatMap_cons, hInput, List.cons_append, readVarints, ← List.cons_append, ← hInput,
      readVarint_varint, Option.bind_some]
    · exact congrArg (Option.map (v :: ·)) (ih (by omega))
    · intro hNil
      cases hNil

/-- The packed integers are read back. -/
theorem numbers?_packed (number : Nat) (values : List Nat) {message : List Field}
    (h : lookup number message = lookup number (packed number values)) :
    numbers? number message = some values := by
  unfold numbers?
  rw [h, packed, lookup_optional]
  cases values with
  | nil => rfl
  | cons v values =>
    rw [if_pos ⟨rfl, rfl⟩]
    exact readVarints_flatMap (Nat.le_refl _)

end CMeshApi.Wire
