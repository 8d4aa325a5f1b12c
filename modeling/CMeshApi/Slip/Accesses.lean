import CMeshApi.Slip.Receive

/-!
# Accesses to the receiving buffer

What `Slip_get_buffer` does to its receiving buffer, in a build that logs. A byte is stored
before its place is compared with the size of the buffer, an escape is decoded with the byte
behind it even where the frame ends, and two are taken from a length of 8 bits for the CRC.
-/

namespace CMeshApi.Slip

open Stuffing

/-- `received` is the number of bytes of the frame that is decoded. -/
inductive Access where
  | receive (index : Nat)
  | decode (index received : Nat)
  | write (index : Nat)
  | crc (length : Int) (received : Nat)
  | load (index : Int)
deriving DecidableEq, Repr

/-- The CRC is computed over a `uint32_t` length. -/
def Access.Touches : Access → Int → Prop
  | .receive index, i => i = index
  | .decode index _, i => i = index
  | .write index, i => i = index
  | .crc length _, i => 0 ≤ i ∧ i < length % 2 ^ 32
  | .load index, i => i = index

/-- Only received bytes are decoded, or are what the CRC is computed over. -/
def Access.OfReceived : Access → Prop
  | .decode index received => index < received
  | .crc length received => 0 ≤ length ∧ length ≤ received
  | _ => True

structure Access.Sound (sizeofBuffer : Nat) (a : Access) : Prop where
  inside : ∀ i, a.Touches i → 0 ≤ i ∧ i < sizeofBuffer
  ofReceived : a.OfReceived

def AllSound (sizeofBuffer : Nat) (accesses : List Access) : Prop :=
  ∀ a ∈ accesses, a.Sound sizeofBuffer

def roundAccesses (r : Receiving) (x : Reading) : List Access :=
  if x.res = 0 then []
  else if x.res < 0 ∨ 1 < x.res then []
  else if x.read = endSlipOctet then []
  else if r.startOfFrameDetected then [.receive r.size]
  else []

def receiveAccesses (sizeofBuffer : Nat) : Receiving → List Reading → List Access
  | _, [] => []
  | r, x :: line =>
    roundAccesses r x ++
      match receiveRound sizeofBuffer r x with
      | .more r => receiveAccesses sizeofBuffer r line
      | .giveUp _ => []
      | .frame _ => []

def decodeAccesses (len : Nat) : (fuel : Nat) → Nat → UInt8 → Memory UInt8 → List Access
  | 0, _, _, _ => []
  | fuel + 1, read, write, buffer =>
    if read < len then
      if buffer read = escSlipOctet then
        let current := if buffer (read + 1) = endSubsOctet then endSlipOctet else escSlipOctet
        .decode read len :: .decode (read + 1) len :: .write write.toNat ::
          decodeAccesses len fuel (read + 2) (write + 1) (buffer.store write.toNat current)
      else
        .decode read len :: .write write.toNat ::
          decodeAccesses len fuel (read + 1) (write + 1) (buffer.store write.toNat (buffer read))
    else []

def loadAccesses (n : Nat) : List Access := (List.range n).map fun i : Nat => Access.load i

/-- The first bytes are logged when the host sent a wrong CRC, and the buffer when the node did. -/
def crcAccesses (buffer : Memory UInt8) (len : Nat) (decodedLen : Int) : List Access :=
  let crc := crcFromBuffer (buffer.read 0 ((decodedLen - 2) % 2 ^ 32).toNat)
  let crcFromFrame := uint16DecodeLe buffer (decodedLen - 2)
  [.crc (decodedLen - 2) len, .load (decodedLen - 2), .load (decodedLen - 1)] ++
    if crc ≠ crcFromFrame then
      if crcFromFrame = 0xFFFF then loadAccesses 3 else loadAccesses len
    else []

def slipDecodeAccesses (buffer : Memory UInt8) (len : Nat) : List Access :=
  decodeAccesses len len 0 0 buffer ++
    match slipDecodeBuffer buffer len with
    | (buffer, write) => crcAccesses buffer len write.toNat

def copyAccesses (len : UInt32) (decodedSize : Int) : List Access :=
  if 0 < decodedSize ∧ decodedSize.toNat ≤ len.toNat then loadAccesses decodedSize.toNat else []

def slipGetBufferAccesses (len : UInt32) (receivingBuffer : Memory UInt8) (line : List Reading) :
    List Access :=
  receiveAccesses (maxSizeEncodedBuffer len).toNat ⟨false, 0, receivingBuffer⟩ line ++
    match receiveLoop (maxSizeEncodedBuffer len).toNat ⟨false, 0, receivingBuffer⟩ line with
    | none => []
    | some (.inl _, _) => []
    | some (.inr r, _) =>
      slipDecodeAccesses r.receivingBuffer r.size ++
        copyAccesses len (slipDecode r.receivingBuffer r.size).2

section Decode

variable {len fuel read : Nat} {write : UInt8} {mem : Memory UInt8}

theorem decodeAccesses_end (fuel : Nat) (write : UInt8) (mem : Memory UInt8) (h : len ≤ read) :
    decodeAccesses len fuel read write mem = [] := by
  cases fuel with
  | zero => rfl
  | succ fuel => rw [decodeAccesses, if_neg (Nat.not_lt.mpr h)]

theorem decodeAccesses_ordinary {a : UInt8} (hRead : read < len) (hFirst : mem read = a)
    (hOrdinary : a ≠ escSlipOctet) :
    decodeAccesses len (fuel + 1) read write mem = .decode read len :: .write write.toNat ::
      decodeAccesses len fuel (read + 1) (write + 1) (mem.store write.toNat a) := by
  rw [decodeAccesses, if_pos hRead, hFirst, if_neg hOrdinary]

theorem decodeAccesses_esc {b : UInt8} (hRead : read < len) (hFirst : mem read = escSlipOctet)
    (hSecond : mem (read + 1) = b) :
    decodeAccesses len (fuel + 1) read write mem =
      .decode read len :: .decode (read + 1) len :: .write write.toNat ::
        decodeAccesses len fuel (read + 2) (write + 1)
          (mem.store write.toNat (slipStuffing.unsubst b)) := by
  rw [decodeAccesses, if_pos hRead, if_pos hFirst, ← hSecond]
  rfl

end Decode

variable {sizeofBuffer : Nat}

theorem receiveRound_other {r r' : Receiving} {x : Reading} {i : Int}
    (h : receiveRound sizeofBuffer r x = .more r' ∨ receiveRound sizeofBuffer r x = .frame r')
    (hOther : ∀ a ∈ roundAccesses r x, ¬ a.Touches i) : r'.receivingBuffer i = r.receivingBuffer i := by
  unfold receiveRound at h
  unfold roundAccesses at hOther
  split at h
  · rcases h with h | h <;> cases h
  · next hSome =>
    rw [if_neg hSome] at hOther
    split at h
    · rcases h with h | h <;> cases h
      rfl
    · next hOne =>
      rw [if_neg hOne] at hOther
      split at h
      · split at h
        · split at h <;> rcases h with h | h <;> cases h
          · rfl
          · rfl
        · rcases h with h | h <;> cases h
          rfl
      · next hByte =>
        rw [if_neg hByte] at hOther
        split at h
        · next hStarted =>
          rw [if_pos hStarted] at hOther
          have hPlace : i ≠ r.size := hOther _ (List.mem_singleton_self _)
          split at h <;> rcases h with h | h <;> cases h
          exact Memory.store_other _ _ _ hPlace
        · rcases h with h | h <;> cases h
          rfl

theorem receiveLoop_other {r r' : Receiving} {line rest : List Reading} {i : Int}
    (h : receiveLoop sizeofBuffer r line = some (.inr r', rest))
    (hOther : ∀ a ∈ receiveAccesses sizeofBuffer r line, ¬ a.Touches i) :
    r'.receivingBuffer i = r.receivingBuffer i := by
  induction line generalizing r with
  | nil => cases h
  | cons x line ih =>
    obtain ⟨hRound, hRest⟩ := List.forall_mem_append.mp hOther
    rw [receiveLoop] at h
    split at h
    · next r₁ hMore =>
      simp only [hMore] at hRest
      exact (ih h hRest).trans (receiveRound_other (.inl hMore) hRound)
    · cases h
    · next hFrame =>
      cases h
      exact receiveRound_other (.inr hFrame) hRound

theorem slipDecodeLoop_other {len fuel read : Nat} {write : UInt8} {buffer : Memory UInt8} {i : Int}
    (h : ∀ a ∈ decodeAccesses len fuel read write buffer, ¬ a.Touches i) :
    (slipDecodeLoop len fuel read write buffer).1 i = buffer i := by
  fun_induction decodeAccesses len fuel read write buffer with
  | case1 => rfl
  | case2 fuel read write buffer hRead hEsc current ih =>
    obtain ⟨-, -, hWrite, hRest⟩ : _ ∧ _ ∧ _ ∧ _ := by simpa only [List.forall_mem_cons] using h
    rw [slipDecodeLoop, if_pos hRead, if_pos hEsc]
    exact (ih hRest).trans (Memory.store_other _ _ _ hWrite)
  | case3 fuel read write buffer hRead hOrdinary ih =>
    obtain ⟨-, hWrite, hRest⟩ : _ ∧ _ ∧ _ := by simpa only [List.forall_mem_cons] using h
    rw [slipDecodeLoop, if_pos hRead, if_neg hOrdinary]
    exact (ih hRest).trans (Memory.store_other _ _ _ hWrite)
  | case4 fuel read write buffer hRead => rw [slipDecodeLoop, if_neg hRead]

theorem touched_store {buffer buffer' : Memory UInt8} {pos : Int} {b : UInt8} {accesses : List Access}
    (h : ∀ a ∈ accesses, ∀ i, a.Touches i → buffer i = buffer' i) :
    ∀ a ∈ accesses, ∀ i, a.Touches i → buffer.store pos b i = buffer'.store pos b i := by
  intro a ha i hi
  by_cases hPos : i = pos
  · subst hPos
    rw [Memory.store_same, Memory.store_same]
  · rw [Memory.store_other _ _ _ hPos, Memory.store_other _ _ _ hPos, h a ha i hi]

/-- What is decoded depends on the accessed cells alone. -/
theorem slipDecodeLoop_congr {len fuel read : Nat} {write : UInt8} {buffer buffer' : Memory UInt8}
    (h : ∀ a ∈ decodeAccesses len fuel read write buffer, ∀ i, a.Touches i → buffer i = buffer' i) :
    (slipDecodeLoop len fuel read write buffer).2 = (slipDecodeLoop len fuel read write buffer').2 ∧
      decodeAccesses len fuel read write buffer = decodeAccesses len fuel read write buffer' := by
  induction fuel generalizing read write buffer buffer' with
  | zero => exact ⟨rfl, rfl⟩
  | succ fuel ih =>
    by_cases hRead : read < len
    · by_cases hEsc : buffer read = escSlipOctet
      · rw [decodeAccesses_esc hRead hEsc rfl] at h
        obtain ⟨hFirst, hSecond, -, hRest⟩ : _ ∧ _ ∧ _ ∧ _ := by simpa only [List.forall_mem_cons] using h
        have hEsc' : buffer' read = escSlipOctet := (hFirst read rfl).symm.trans hEsc
        have hSame : buffer' (read + 1) = buffer (read + 1) := (hSecond _ rfl).symm
        obtain ⟨hLoop, hAccesses⟩ := ih (touched_store hRest)
        rw [slipDecodeLoop_esc hRead hEsc rfl, slipDecodeLoop_esc hRead hEsc' hSame,
          decodeAccesses_esc hRead hEsc rfl, decodeAccesses_esc hRead hEsc' hSame, hAccesses]
        exact ⟨hLoop, rfl⟩
      · rw [decodeAccesses_ordinary hRead rfl hEsc] at h
        obtain ⟨hFirst, -, hRest⟩ : _ ∧ _ ∧ _ := by simpa only [List.forall_mem_cons] using h
        have hSame : buffer' read = buffer read := (hFirst read rfl).symm
        obtain ⟨hLoop, hAccesses⟩ := ih (touched_store hRest)
        rw [slipDecodeLoop_ordinary hRead rfl hEsc, slipDecodeLoop_ordinary hRead hSame hEsc,
          decodeAccesses_ordinary hRead rfl hEsc, decodeAccesses_ordinary hRead hSame hEsc, hAccesses]
        exact ⟨hLoop, rfl⟩
    · have hEnd : len ≤ read := Nat.not_lt.mp hRead
      rw [slipDecodeLoop_end _ _ _ _ _ hEnd, slipDecodeLoop_end _ _ _ _ _ hEnd,
        decodeAccesses_end _ _ _ hEnd, decodeAccesses_end _ _ _ hEnd]
      exact ⟨rfl, rfl⟩

theorem allSound_append {xs ys : List Access} :
    AllSound sizeofBuffer (xs ++ ys) ↔ AllSound sizeofBuffer xs ∧ AllSound sizeofBuffer ys :=
  List.forall_mem_append

theorem allSound_cons {a : Access} {xs : List Access} :
    AllSound sizeofBuffer (a :: xs) ↔ a.Sound sizeofBuffer ∧ AllSound sizeofBuffer xs :=
  List.forall_mem_cons

theorem allSound_nil : AllSound sizeofBuffer [] := List.forall_mem_nil _

theorem sound_receive {index : Nat} : (Access.receive index).Sound sizeofBuffer ↔ index < sizeofBuffer := by
  constructor
  · intro h
    exact Int.ofNat_lt.mp (h.inside index rfl).2
  · intro h
    refine ⟨fun i hi => ?_, trivial⟩
    obtain rfl : i = index := hi
    omega

theorem sound_decode {index received : Nat} (hReceived : received ≤ sizeofBuffer) :
    (Access.decode index received).Sound sizeofBuffer ↔ index < received := by
  constructor
  · exact fun h => h.ofReceived
  · intro h
    refine ⟨fun i hi => ?_, h⟩
    obtain rfl : i = index := hi
    omega

theorem sound_write {index : Nat} (h : index < sizeofBuffer) : (Access.write index).Sound sizeofBuffer := by
  refine ⟨fun i hi => ?_, trivial⟩
  obtain rfl : i = index := hi
  omega

theorem sound_load {index : Int} (hFront : 0 ≤ index) (h : index < sizeofBuffer) :
    (Access.load index).Sound sizeofBuffer := by
  refine ⟨fun i hi => ?_, trivial⟩
  obtain rfl : i = index := hi
  exact ⟨hFront, h⟩

theorem sound_crc {length : Int} {received : Nat} (hFront : 0 ≤ length) (hLength : length ≤ received)
    (hReceived : received ≤ sizeofBuffer) : (Access.crc length received).Sound sizeofBuffer := by
  refine ⟨fun i hi => ⟨hi.1, ?_⟩, hFront, hLength⟩
  have hInside : i < length % 2 ^ 32 := hi.2
  have hMod : length % 2 ^ 32 ≤ length := by omega
  omega

theorem allSound_loads {n : Nat} (h : n ≤ sizeofBuffer) : AllSound sizeofBuffer (loadAccesses n) := by
  intro a ha
  obtain ⟨i, hi, rfl⟩ := List.mem_map.mp ha
  rw [List.mem_range] at hi
  exact sound_load (Int.natCast_nonneg i) (by omega)

section Receive

variable {before : Memory UInt8} {run : Option (List UInt8)} {r : Receiving} {line : List Reading}

theorem receiveAccesses_sound_iff (h : Hears before run r) (hRun : (run.getD []).length ≤ sizeofBuffer) :
    AllSound sizeofBuffer (receiveAccesses sizeofBuffer r line) ↔ (hear run line).Fits sizeofBuffer := by
  induction line generalizing run r with
  | nil =>
    cases run with
    | none => exact iff_of_true allSound_nil (List.forall_mem_nil _)
    | some bytes => exact iff_of_true allSound_nil (Heard.fits_toList hRun)
  | cons x line ih =>
    have hHearing := h.hearing sizeofBuffer x line
    rw [receiveAccesses, roundAccesses, h.started]
    generalize receiveRound sizeofBuffer r x = round at hHearing ⊢
    generalize hear run (x :: line) = heard at hHearing ⊢
    cases hHearing with
    | timeout => exact iff_of_true allSound_nil (Heard.fits_toList hRun)
    | error _ hZero hError =>
      rw [if_neg hZero, if_pos hError]
      exact ih h hRun
    | noise hOther =>
      rw [if_neg hOther]
      exact ih h hRun
    | opening => exact ih h.open (Nat.zero_le _)
    | @reopening bytes hShort =>
      have hBytes : bytes.length ≤ sizeofBuffer := hRun
      exact (ih (h.reopen hShort) (Nat.zero_le _)).trans (Heard.fits_cons_iff hBytes).symm
    | closing => exact iff_of_true allSound_nil (Heard.fits_toList hRun)
    | @overflow bytes read hOther hFull =>
      have hSize : r.size = bytes.length := h.size
      refine iff_of_false (fun hSound => ?_) (not_fits_of_overflow hFull)
      rw [if_neg hOther] at hSound
      have hPlace : r.size < sizeofBuffer := sound_receive.mp (allSound_cons.mp hSound).1
      rw [List.length_append, List.length_singleton] at hFull
      omega
    | @byte bytes read hOther hRoom =>
      have hSize : r.size = bytes.length := h.size
      rw [if_neg hOther]
      refine (allSound_cons.trans (and_iff_right (sound_receive.mpr ?_))).trans (ih (h.append read) hRoom)
      rw [List.length_append, List.length_singleton] at hRoom
      omega

end Receive

section Decode

variable {len fuel read : Nat} {write : UInt8} {mem : Memory UInt8}

theorem decodeAccesses_sound_iff (hRoom : len ≤ sizeofBuffer) (xs : List UInt8)
    (hLen : len = read + xs.length) (hFuel : xs.length ≤ fuel) (hMem : mem.read read xs.length = xs)
    (hWrite : write.toNat ≤ read) :
    AllSound sizeofBuffer (decodeAccesses len fuel read write mem) ↔ slipStuffing.Paired xs := by
  have hDecode : ∀ {index : Nat}, (Access.decode index len).Sound sizeofBuffer ↔ index < len :=
    sound_decode hRoom
  fun_induction slipStuffing.unstuff 0 xs generalizing fuel read write mem with
  | case1 =>
    have hEnd : len ≤ read := Nat.le_of_eq hLen
    rw [decodeAccesses_end fuel write mem hEnd]
    exact iff_of_true allSound_nil trivial
  | case2 a =>
    obtain ⟨fuel, rfl⟩ := Nat.exists_eq_add_of_le' hFuel
    obtain ⟨hFirst, -⟩ := Memory.read_cons_iff.mp hMem
    rw [List.length_singleton] at hLen ⊢
    by_cases hEsc : a = slipStuffing.esc
    · rw [decodeAccesses_esc (by omega) (hFirst.trans hEsc) rfl, allSound_cons, allSound_cons, hDecode,
        hDecode]
      exact iff_of_false (fun hSound => absurd hSound.2.1 (by omega)) fun hPaired => hPaired hEsc
    · rw [decodeAccesses_ordinary (by omega) hFirst hEsc, allSound_cons, allSound_cons, hDecode,
        decodeAccesses_end _ _ _ (Nat.le_of_eq hLen)]
      exact iff_of_true ⟨by omega, sound_write (by omega), allSound_nil⟩ hEsc
  | case3 b xs ih =>
    rw [List.length_cons, List.length_cons] at hLen hFuel
    obtain ⟨fuel, rfl⟩ : ∃ n, fuel = n + 1 := ⟨fuel - 1, by omega⟩
    obtain ⟨hFirst, hRest⟩ := Memory.read_cons_iff.mp hMem
    obtain ⟨hSecond, hRest⟩ := Memory.read_cons_iff.mp hRest
    have hBehind := toNat_succ_le write
    rw [decodeAccesses_esc (by omega) hFirst hSecond, allSound_cons, allSound_cons,
      allSound_cons, hDecode, hDecode, Paired, if_pos rfl]
    have hNext : AllSound sizeofBuffer (decodeAccesses len fuel (read + 2) (write + 1)
        (mem.store write.toNat (slipStuffing.unsubst b))) ↔ slipStuffing.Paired xs := by
      refine ih (by omega) (by omega) ?_ (by omega)
      rw [Memory.read_store_below _ _ _ (by omega)]
      exact hRest
    exact ⟨fun hSound => hNext.mp hSound.2.2.2,
      fun hPaired => ⟨by omega, by omega, sound_write (by omega), hNext.mpr hPaired⟩⟩
  | case4 a b xs hOrdinary ih =>
    rw [List.length_cons] at hLen hFuel
    obtain ⟨fuel, rfl⟩ : ∃ n, fuel = n + 1 := ⟨fuel - 1, by omega⟩
    obtain ⟨hFirst, hRest⟩ := Memory.read_cons_iff.mp hMem
    have hBehind := toNat_succ_le write
    rw [decodeAccesses_ordinary (by omega) hFirst hOrdinary, allSound_cons,
      allSound_cons, hDecode, Paired, if_neg hOrdinary]
    have hNext : AllSound sizeofBuffer (decodeAccesses len fuel (read + 1) (write + 1)
        (mem.store write.toNat a)) ↔ slipStuffing.Paired (b :: xs) := by
      refine ih (by omega) (by omega) ?_ (by omega)
      rw [Memory.read_store_below _ _ _ (by omega)]
      exact hRest
    exact ⟨fun hSound => hNext.mp hSound.2.2,
      fun hPaired => ⟨by omega, sound_write (by omega), hNext.mpr hPaired⟩⟩

theorem crcAccesses_sound_iff (hRoom : len ≤ sizeofBuffer) (hFour : 4 ≤ len) {decodedLen : Nat}
    (hDecoded : decodedLen ≤ len) :
    AllSound sizeofBuffer (crcAccesses mem len decodedLen) ↔ 2 ≤ decodedLen := by
  rw [crcAccesses, List.cons_append, List.cons_append, List.cons_append, List.nil_append, allSound_cons,
    allSound_cons, allSound_cons]
  constructor
  · intro hSound
    have hFront : 0 ≤ (decodedLen : Int) - 2 := hSound.1.ofReceived.1
    omega
  · intro hTwo
    refine ⟨sound_crc (by omega) (by omega) hRoom, sound_load (by omega) (by omega),
      sound_load (by omega) (by omega), ?_⟩
    split
    · split
      · exact allSound_loads (by omega)
      · exact allSound_loads hRoom
    · exact allSound_nil

end Decode

section Call

variable {len : UInt32} {receivingBuffer mem : Memory UInt8} {line : List Reading} {bytes : List UInt8}

/-- How many bytes the decoder announces, in 8 bits. -/
def announced (bytes : List UInt8) : Nat := (slipStuffing.unstuff endSlipOctet bytes).length % 256

theorem slipDecodeAccesses_sound_iff (hRoom : bytes.length ≤ sizeofBuffer) (hFour : 4 ≤ bytes.length)
    (hMem : mem.read 0 bytes.length = bytes) :
    AllSound sizeofBuffer (slipDecodeAccesses mem bytes.length) ↔
      slipStuffing.Paired bytes ∧ 2 ≤ announced bytes := by
  have hLength := length_unstuff (S := slipStuffing) (mem bytes.length) endSlipOctet bytes
  have hAnnounced : announced bytes ≤ bytes.length :=
    Nat.le_trans (Nat.mod_le _ _) (length_unstuff_le _ _)
  rw [slipDecodeAccesses, allSound_append, slipDecodeBuffer_eq hMem rfl]
  simp only []
  rw [UInt8.toNat_ofNat', hLength, decodeAccesses_sound_iff hRoom bytes (Nat.zero_add _).symm (Nat.le_refl _) hMem
      (Nat.le_of_eq UInt8.toNat_zero)]
  exact and_congr_right' (crcAccesses_sound_iff hRoom hFour hAnnounced)

theorem copyAccesses_sound (hRoom : bytes.length ≤ sizeofBuffer) (hMem : mem.read 0 bytes.length = bytes) :
    AllSound sizeofBuffer (copyAccesses len (slipDecode mem bytes.length).2) := by
  rw [copyAccesses]
  split
  · next hCopied =>
    obtain ⟨payload, hCorrect⟩ := correct_of_slipDecode hMem rfl (Int.le_of_lt hCopied.1)
    have hResult := (slipDecode_of_correct hMem rfl hCorrect).1
    have hLength := congrArg List.length hCorrect
    have hUnstuff := length_unstuff_le (S := slipStuffing) (mem bytes.length) bytes
    rw [length_turned, List.length_append] at hLength
    have hTurned := Nat.mod_le (slipStuffing.unstuff (mem bytes.length) bytes).length 256
    rw [hResult, Int.toNat_natCast]
    exact allSound_loads (by omega)
  · exact allSound_nil

theorem accesses_sound_iff (len : UInt32) (receivingBuffer : Memory UInt8) (line : List Reading) :
    AllSound (maxSizeEncodedBuffer len).toNat (slipGetBufferAccesses len receivingBuffer line) ↔
      (hear none line).Fits (maxSizeEncodedBuffer len).toNat ∧
        ∀ bytes rest, (hear none line).frame = some (bytes, rest) →
          slipStuffing.Paired bytes ∧ 2 ≤ announced bytes := by
  have hEmpty := Nat.zero_le (maxSizeEncodedBuffer len).toNat
  have hTaken := receiveLoop_takesFrame line (hears_start receivingBuffer) hEmpty
  rw [slipGetBufferAccesses, allSound_append, receiveAccesses_sound_iff (hears_start receivingBuffer) hEmpty]
  refine and_congr_right fun hFits => ?_
  rcases hTaken with ⟨-, bytes, rest, r, hFrame, hLoop, hHears⟩ | ⟨hNone, hLoop⟩
  · have hSize : r.size = bytes.length := hHears.size
    have hMem : r.receivingBuffer.read 0 bytes.length = bytes := hHears.content
    have hFour := frame_length hFrame
    have hRoom : bytes.length ≤ (maxSizeEncodedBuffer len).toNat := hFits bytes (frame_mem_runs hFrame)
    rw [hLoop]
    simp only []
    rw [hSize, allSound_append, and_iff_left (copyAccesses_sound hRoom hMem),
      slipDecodeAccesses_sound_iff hRoom hFour hMem]
    constructor
    · intro hSound bytes' rest' hFrame'
      obtain ⟨rfl, -⟩ := Prod.mk.inj (Option.some.inj (hFrame.symm.trans hFrame'))
      exact hSound
    · exact fun hAll => hAll bytes rest hFrame
  · refine iff_of_true ?_ fun bytes rest hFrame => absurd ⟨hFits, hFrame ▸ rfl⟩ hNone
    split
    · exact allSound_nil
    · exact allSound_nil
    · next r rest hSome => exact absurd hSome (hLoop r rest)

/-- An escape at the end of the bytes. -/
def escapedEnd : List Reading := [endSlipOctet, 1, 2, 3, escSlipOctet, endSlipOctet].map (Reading.mk 1)

/-- One byte more than the receiving buffer of a confirm has. -/
def overlong : List Reading := (endSlipOctet :: List.replicate 419 0).map (Reading.mk 1)

theorem escapedEnd_decodes :
    Access.decode 4 4 ∈ slipGetBufferAccesses 204 (fun _ => 0) escapedEnd := by decide +kernel

theorem overlong_receives :
    Access.receive 418 ∈ slipGetBufferAccesses 206 (fun _ => 0) overlong := by decide +kernel

theorem line_not_sound :
    ¬ AllSound (maxSizeEncodedBuffer 204).toNat (slipGetBufferAccesses 204 (fun _ => 0) escapedEnd) ∧
      ¬ AllSound (maxSizeEncodedBuffer 206).toNat (slipGetBufferAccesses 206 (fun _ => 0) overlong) := by
  constructor
  · intro h
    exact absurd (h _ escapedEnd_decodes).ofReceived (Nat.lt_irrefl 4)
  · intro h
    exact absurd (sound_receive.mp (h _ overlong_receives)) (Nat.lt_irrefl 418)

end Call

end CMeshApi.Slip
