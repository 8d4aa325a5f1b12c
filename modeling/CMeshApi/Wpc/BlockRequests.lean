import CMeshApi.Wpc.Scratchpad
import Mathlib.Data.Nat.Find

/-!
# The block requests of one call

`WPC_upload_local_block_scratchpad` and `WPC_download_local_scratchpad` go through the blocks in one
loop, which takes the results 0 and 1 for a success and advances by the size of a block. The node may
report any maximum of this size, and answers each block request as it likes.
-/

namespace CMeshApi.Wpc

open Programs

variable {γ ν β : Type}

/-- The environment, followed for so many rounds of a loop. -/
def Environment.within (env : Environment ν) (rounds : Nat) : Environment ν := { env with rounds := rounds }

/-- What is asked is answered with the next of `answers`. -/
def AnswersInTurn (f : ν → β × ν) (answers : Nat → β) (asked : ν → Nat) : Prop :=
  ∀ n, (f n).1 = answers (asked n) ∧ asked (f n).2 = asked n + 1

/-- A node that reports this maximum. Reading it is no block request. -/
structure ReportsMax (env : Environment ν) (maxBlockSize : UInt8) (asked : ν → Nat) : Prop where
  reports : ∀ n, readResult 1 byteDecode (env.attributeRead .msap msapScratchpadBlockMax n).1 =
    .ok maxBlockSize
  keeps : ∀ n, asked (env.attributeRead .msap msapScratchpadBlockMax n).2 = asked n

/-- A result that ends the loop. -/
def Refused (res : Int) : Prop := 1 < res ∨ res < 0

instance (res : Int) : Decidable (Refused res) := inferInstanceAs (Decidable (_ ∨ _))

/-- The rounds of either loop, when `asked` requests have been made: how many it has made when it
returns. -/
def countRequests (len maxBlockSize : Nat) (answers : Nat → Int) : Nat → Nat → Nat → Option Nat
  | 0, _, _ => none
  | n + 1, loaded, asked =>
    if loaded < len then
      if maximumScratchpadBlockSize < min maxBlockSize (len - loaded) then some asked
      else if Refused (answers asked) then some (asked + 1)
      else countRequests len maxBlockSize answers n (loaded + min maxBlockSize (len - loaded)) (asked + 1)
    else some asked

section Count

variable {len maxBlockSize : Nat} {answers : Nat → Int}

variable (answers) in
/-- Each request advances by a byte at least. -/
theorem countRequests_of_pos (hPos : 0 < maxBlockSize) (n loaded asked : Nat)
    (hRounds : len - loaded < n) :
    ∃ m, countRequests len maxBlockSize answers n loaded asked = some m ∧ m ≤ asked + (len - loaded) := by
  induction n generalizing loaded asked with
  | zero => exact absurd hRounds (Nat.not_lt_zero _)
  | succ n ih =>
    rw [countRequests]
    by_cases hInside : loaded < len
    · rw [if_pos hInside]
      by_cases hLarge : maximumScratchpadBlockSize < min maxBlockSize (len - loaded)
      · exact ⟨asked, if_pos hLarge, Nat.le_add_right _ _⟩
      rw [if_neg hLarge]
      by_cases hRefused : Refused (answers asked)
      · exact ⟨asked + 1, if_pos hRefused, by omega⟩
      rw [if_neg hRefused]
      obtain ⟨m, hCount, hLe⟩ := ih (loaded + min maxBlockSize (len - loaded)) (asked + 1) (by omega)
      exact ⟨m, hCount, by omega⟩
    · exact ⟨asked, if_neg hInside, Nat.le_add_right _ _⟩

/-- Blocks of no byte are asked for until one is refused. -/
theorem countRequests_zero_iff (hSome : 0 < len) (n : Nat) {asked m : Nat} :
    countRequests len 0 answers n 0 asked = some m ↔
      asked < m ∧ m ≤ asked + n ∧ Refused (answers (m - 1)) ∧
        ∀ k, asked ≤ k → k < m - 1 → ¬ Refused (answers k) := by
  induction n generalizing asked with
  | zero =>
    refine iff_of_false nofun ?_
    rintro ⟨hAbove, hBelow, -⟩
    omega
  | succ n ih =>
    have hSmall : ¬ maximumScratchpadBlockSize < min 0 (len - 0) := by
      rw [Nat.zero_min]
      exact Nat.not_lt_zero _
    have hStay : 0 + min 0 (len - 0) = 0 := by rw [Nat.zero_min]
    rw [countRequests, if_pos hSome, if_neg hSmall, hStay]
    by_cases hRefused : Refused (answers asked)
    · rw [if_pos hRefused, Option.some.injEq]
      constructor
      · rintro rfl
        exact ⟨Nat.lt_succ_self _, by omega, hRefused, fun k hAbove hBelow => absurd hBelow (by omega)⟩
      · rintro ⟨hAbove, -, -, hBefore⟩
        by_contra hOther
        exact hBefore asked (Nat.le_refl _) (by omega) hRefused
    · rw [if_neg hRefused, ih]
      constructor
      · rintro ⟨hAbove, hBelow, hEnd, hBefore⟩
        refine ⟨by omega, by omega, hEnd, fun k hFrom hTo => ?_⟩
        rcases Nat.eq_or_lt_of_le hFrom with rfl | hLater
        · exact hRefused
        · exact hBefore k hLater hTo
      · rintro ⟨hAbove, hBelow, hEnd, hBefore⟩
        have hLater : asked ≠ m - 1 := fun hEq => hRefused (hEq ▸ hEnd)
        exact ⟨by omega, by omega, hEnd, fun k hFrom hTo => hBefore k (by omega) hTo⟩

/-- What the loop needs to end within `len` requests. -/
def EndsInTime (len maxBlockSize : Nat) (answers : Nat → Int) : Prop :=
  len = 0 ∨ 0 < maxBlockSize ∨ ∃ k < len, Refused (answers k)

theorem endsInTime_iff :
    (∃ rounds m, countRequests len maxBlockSize answers rounds 0 0 = some m ∧ m ≤ len) ↔
      EndsInTime len maxBlockSize answers := by
  rcases Nat.eq_zero_or_pos len with rfl | hSome
  · exact iff_of_true ⟨1, 0, rfl, Nat.le_refl 0⟩ (.inl rfl)
  rcases Nat.eq_zero_or_pos maxBlockSize with rfl | hPos
  · constructor
    · rintro ⟨rounds, m, hCount, hLe⟩
      obtain ⟨hAbove, -, hEnd, -⟩ := (countRequests_zero_iff hSome rounds).mp hCount
      exact .inr (.inr ⟨m - 1, by omega, hEnd⟩)
    · intro hEnds
      have hRefused : ∃ k < len, Refused (answers k) := by
        rcases hEnds with hNone | hPos | hRefused
        · exact absurd hNone (Nat.pos_iff_ne_zero.mp hSome)
        · exact absurd hPos (Nat.lt_irrefl 0)
        · exact hRefused
      obtain ⟨k, hLess, hEnd⟩ := hRefused
      classical
      have hFirst : ∃ k, Refused (answers k) := ⟨k, hEnd⟩
      have hMin := Nat.find_min' hFirst hEnd
      refine ⟨Nat.find hFirst + 1, Nat.find hFirst + 1, ?_, by omega⟩
      refine (countRequests_zero_iff hSome _).mpr ⟨by omega, by omega, Nat.find_spec hFirst, ?_⟩
      exact fun k _ hBefore => Nat.find_min hFirst hBefore
  · refine iff_of_true ⟨len + 1, ?_⟩ (.inr (.inl hPos))
    obtain ⟨m, hCount, hLe⟩ := countRequests_of_pos answers hPos (len + 1) 0 0 (Nat.lt_succ_self (len - 0))
    exact ⟨m, hCount, by omega⟩

end Count

section Upload

variable {env : Environment ν} {answers : Nat → Int} {asked : ν → Nat}
variable {bytes : List UInt8} {start : UInt32} {maxBlockSize : UInt8} {n loaded : Nat} {w : World γ ν}

theorem length_block : ((bytes.drop loaded).take (min maxBlockSize.toNat (bytes.length - loaded))).length =
    min maxBlockSize.toNat (bytes.length - loaded) := by
  rw [List.length_take, List.length_drop]
  omega

theorem uploadBlocks_succ (hInside : loaded < bytes.length) :
    (uploadBlocks env bytes start maxBlockSize (n + 1) loaded : Call γ ν AppRes) =
      msapScratchpadBlockRequest env (start + .ofNat loaded)
          ((bytes.drop loaded).take (min maxBlockSize.toNat (bytes.length - loaded))) >>= fun res =>
        if Refused res then pure (convertErrorCode scratchpadLocalBlockErrorCodeLut res)
        else uploadBlocks env bytes start maxBlockSize n
          (loaded + min maxBlockSize.toNat (bytes.length - loaded)) := by
  rw [uploadBlocks, if_pos hInside]
  dsimp only
  rw [blockSize_eq_min]
  rfl

theorem uploadBlocks_tooLarge (hInside : loaded < bytes.length)
    (hLarge : maximumScratchpadBlockSize < min maxBlockSize.toNat (bytes.length - loaded)) :
    uploadBlocks env bytes start maxBlockSize (n + 1) loaded w = (some .invalidNumberOfBytes, w) := by
  rw [← length_block] at hLarge
  rw [uploadBlocks_succ hInside, msapScratchpadBlockRequest, if_pos hLarge]
  rfl

variable (start n w) in
theorem uploadBlocks_asked
    (hAnswers : ∀ start bytes, AnswersInTurn (env.request (scratchpadBlock start bytes)) answers asked)
    (hInside : loaded < bytes.length)
    (hSmall : ¬ maximumScratchpadBlockSize < min maxBlockSize.toNat (bytes.length - loaded)) :
    ∃ u : World γ ν, asked u.node = asked w.node + 1 ∧
      uploadBlocks env bytes start maxBlockSize (n + 1) loaded w =
        if Refused (answers (asked w.node)) then
          (some (convertErrorCode scratchpadLocalBlockErrorCodeLut (answers (asked w.node))), u)
        else uploadBlocks env bytes start maxBlockSize n
          (loaded + min maxBlockSize.toNat (bytes.length - loaded)) u := by
  rw [← length_block] at hSmall
  obtain ⟨hAnswer, hCounted⟩ := hAnswers (start + .ofNat loaded)
    ((bytes.drop loaded).take (min maxBlockSize.toNat (bytes.length - loaded))) w.node
  refine ⟨{ w with node := _ }, hCounted, ?_⟩
  rw [uploadBlocks_succ hInside, msapScratchpadBlockRequest, if_neg hSmall,
    bind_of_returns (returns_ask.mpr ⟨hAnswer.symm, rfl⟩)]
  by_cases hRefused : Refused (answers (asked w.node))
  · rw [if_pos hRefused, if_pos hRefused]
    rfl
  · rw [if_neg hRefused, if_neg hRefused]

/-- The upload makes the requests that are counted. -/
theorem uploadBlocks_count
    (hAnswers : ∀ start bytes, AnswersInTurn (env.request (scratchpadBlock start bytes)) answers asked)
    (n loaded : Nat) (w : World γ ν) :
    (finish (uploadBlocks env bytes start maxBlockSize n loaded) w).map (fun t => asked t.node) =
      countRequests bytes.length maxBlockSize.toNat answers n loaded (asked w.node) := by
  induction n generalizing loaded w with
  | zero => rfl
  | succ n ih =>
    rw [countRequests]
    by_cases hInside : loaded < bytes.length
    · rw [if_pos hInside]
      by_cases hLarge : maximumScratchpadBlockSize < min maxBlockSize.toNat (bytes.length - loaded)
      · rw [if_pos hLarge, finish, uploadBlocks_tooLarge hInside hLarge]
        rfl
      obtain ⟨u, hCounted, hRound⟩ := uploadBlocks_asked start n w hAnswers hInside hLarge
      rw [if_neg hLarge, finish, hRound]
      by_cases hRefused : Refused (answers (asked w.node))
      · rw [if_pos hRefused, if_pos hRefused, ← hCounted]
        rfl
      · rw [if_neg hRefused, if_neg hRefused, ← hCounted]
        exact ih _ u
    · rw [if_neg hInside, uploadBlocks, if_neg hInside]
      rfl

end Upload

section Download

variable {answers : Nat → Int × Memory UInt8} {asked : ν → Nat} {blockRead : BlockRead ν}
variable {len start : UInt32} {maxBlockSize : UInt8} {n loaded : Nat} {bytes : Memory UInt8} {w : World γ ν}

/-- The output after a round of the download. -/
def stored (bytes : Memory UInt8) (loaded size : Nat) (answer : Int × Memory UInt8) : Memory UInt8 :=
  if answer.1 = 0 then bytes.write loaded (answer.2.read 0 size) else bytes

theorem downloadBlocks_succ {size : UInt8} (hInside : loaded < len.toNat)
    (hSize : (if maxBlockSize.toNat < len.toNat - loaded then maxBlockSize
      else .ofNat (len.toNat - loaded)) = size) :
    (downloadBlocks blockRead len start maxBlockSize (n + 1) loaded bytes : Call γ ν (AppRes × Memory UInt8)) =
      msapScratchpadBlockReadRequest blockRead (start + .ofNat loaded) size bytes loaded >>= fun answer =>
        if Refused answer.1 then
          pure (convertErrorCode scratchpadLocalBlockReadErrorCodeLut answer.1, answer.2)
        else downloadBlocks blockRead len start maxBlockSize n (loaded + size.toNat) answer.2 := by
  subst hSize
  rw [downloadBlocks, if_pos hInside]
  rfl

theorem downloadBlocks_tooLarge (hInside : loaded < len.toNat)
    (hLarge : maximumScratchpadBlockSize < min maxBlockSize.toNat (len.toNat - loaded)) :
    downloadBlocks blockRead len start maxBlockSize (n + 1) loaded bytes w =
      (some (.internalError, bytes), w) := by
  rw [← toNat_blockSize] at hLarge
  rw [downloadBlocks_succ hInside rfl, msapScratchpadBlockReadRequest, if_pos hLarge]
  rfl

variable (start n bytes w) in
theorem downloadBlocks_asked (hAnswers : ∀ start size, AnswersInTurn (blockRead start size) answers asked)
    (hInside : loaded < len.toNat)
    (hSmall : ¬ maximumScratchpadBlockSize < min maxBlockSize.toNat (len.toNat - loaded)) :
    ∃ u : World γ ν, asked u.node = asked w.node + 1 ∧
      downloadBlocks blockRead len start maxBlockSize (n + 1) loaded bytes w =
        if Refused (answers (asked w.node)).1 then
          (some (convertErrorCode scratchpadLocalBlockReadErrorCodeLut (answers (asked w.node)).1,
            stored bytes loaded (min maxBlockSize.toNat (len.toNat - loaded)) (answers (asked w.node))), u)
        else downloadBlocks blockRead len start maxBlockSize n
          (loaded + min maxBlockSize.toNat (len.toNat - loaded))
          (stored bytes loaded (min maxBlockSize.toNat (len.toNat - loaded)) (answers (asked w.node))) u := by
  rw [← toNat_blockSize] at hSmall ⊢
  generalize hSize : (if maxBlockSize.toNat < len.toNat - loaded then maxBlockSize
    else UInt8.ofNat (len.toNat - loaded)) = size at hSmall ⊢
  obtain ⟨hAnswer, hCounted⟩ := hAnswers (start + .ofNat loaded) size w.node
  refine ⟨{ w with node := _ }, hCounted, ?_⟩
  have hRequest : Returns (msapScratchpadBlockReadRequest blockRead (start + .ofNat loaded) size bytes loaded) w
      ((answers (asked w.node)).1, stored bytes loaded size.toNat (answers (asked w.node)))
        { w with node := (blockRead (start + .ofNat loaded) size w.node).2 } := by
    rw [msapScratchpadBlockReadRequest, if_neg hSmall]
    exact returns_bind.mpr ⟨_, _, returns_ask.mpr ⟨hAnswer.symm, rfl⟩, returns_pure.mpr ⟨rfl, rfl⟩⟩
  rw [downloadBlocks_succ hInside hSize, bind_of_returns hRequest]
  by_cases hRefused : Refused (answers (asked w.node)).1
  · rw [if_pos hRefused, if_pos hRefused]
    rfl
  · rw [if_neg hRefused, if_neg hRefused]

/-- The download makes the requests that are counted. -/
theorem downloadBlocks_count (hAnswers : ∀ start size, AnswersInTurn (blockRead start size) answers asked)
    (n loaded : Nat) (bytes : Memory UInt8) (w : World γ ν) :
    (finish (downloadBlocks blockRead len start maxBlockSize n loaded bytes) w).map (fun t => asked t.node) =
      countRequests len.toNat maxBlockSize.toNat (fun k => (answers k).1) n loaded (asked w.node) := by
  induction n generalizing loaded bytes w with
  | zero => rfl
  | succ n ih =>
    rw [countRequests]
    by_cases hInside : loaded < len.toNat
    · rw [if_pos hInside]
      by_cases hLarge : maximumScratchpadBlockSize < min maxBlockSize.toNat (len.toNat - loaded)
      · rw [if_pos hLarge, finish, downloadBlocks_tooLarge hInside hLarge]
        rfl
      obtain ⟨u, hCounted, hRound⟩ := downloadBlocks_asked start n bytes w hAnswers hInside hLarge
      rw [if_neg hLarge, finish, hRound]
      by_cases hRefused : Refused (answers (asked w.node)).1
      · rw [if_pos hRefused, if_pos hRefused, ← hCounted]
        rfl
      · rw [if_neg hRefused, if_neg hRefused, ← hCounted]
        exact ih _ _ u
    · rw [if_neg hInside, downloadBlocks, if_neg hInside]
      rfl

/-- The byte comes from the block that it belongs to, which was read with the result 0. -/
def Copied (answers : Nat → Int × Memory UInt8) (maxBlockSize : Nat) (out : Memory UInt8) (i : Nat) : Prop :=
  (answers (i / maxBlockSize)).1 = 0 ∧ out i = (answers (i / maxBlockSize)).2 (i % maxBlockSize : Nat)

/-- No block that is read is answered with 1, which the loop takes for a success. -/
def NeverOne (len maxBlockSize : Nat) (answers : Nat → Int × Memory UInt8) : Prop :=
  ∀ k, k * maxBlockSize < len → (∀ j < k, (answers j).1 = 0) → (answers k).1 ≠ 1

theorem NeverOne.eq_zero {k max : Nat} (h : NeverOne len.toNat max answers) (hInside : k * max < len.toNat)
    (hZero : ∀ j < k, (answers j).1 = 0) (hGoesOn : ¬ Refused (answers k).1) : (answers k).1 = 0 := by
  have hOne := h k hInside hZero
  obtain ⟨hAbove, hBelow⟩ := not_or.mp hGoesOn
  omega

theorem stored_copied {k max : Nat} (hRes : (answers k).1 = 0)
    (hCopied : ∀ i < k * max, Copied answers max bytes i) {i : Nat}
    (hBelow : i < k * max + min max (len.toNat - k * max)) :
    Copied answers max (stored bytes (k * max) (min max (len.toNat - k * max)) (answers k)) i := by
  rw [stored, if_pos hRes]
  rcases Nat.lt_or_ge i (k * max) with hBefore | hBlock
  · obtain ⟨hZero, hByte⟩ := hCopied i hBefore
    exact ⟨hZero, (Memory.write_below _ _ _ (by omega)).trans hByte⟩
  · obtain ⟨r, rfl⟩ := Nat.exists_eq_add_of_le hBlock
    have hRest : r < min max (len.toNat - k * max) := by omega
    have hLess : r < max := by omega
    have hDiv : (k * max + r) / max = k := by
      rw [Nat.mul_comm, Nat.mul_add_div (Nat.zero_lt_of_lt hLess), Nat.div_eq_of_lt hLess, Nat.add_zero]
    have hMod : (k * max + r) % max = r := by
      rw [Nat.mul_comm, Nat.mul_add_mod, Nat.mod_eq_of_lt hLess]
    have hLength : r < ((answers k).2.read 0 (min max (len.toNat - k * max))).length := by
      rwa [Memory.length_read]
    refine ⟨hDiv.symm ▸ hRes, ?_⟩
    rw [hDiv, hMod, Int.natCast_add, Memory.write_inside _ _ _ hLength, Memory.getElem_read, Int.zero_add]

theorem next_block {k max len : Nat} (hInside : min (k * max) len < len) :
    k * max < len ∧ min (k * max) len = k * max ∧
      k * max + min max (len - k * max) = min ((k + 1) * max) len := by
  have hNext : (k + 1) * max = k * max + max := Nat.succ_mul k max
  omega

/-- The invariant of the rounds: all blocks before this one have been copied. -/
theorem downloadBlocks_copied (hAnswers : ∀ start size, AnswersInTurn (blockRead start size) answers asked)
    (hSmall : ¬ maximumScratchpadBlockSize < min maxBlockSize.toNat len.toNat)
    (hNever : NeverOne len.toNat maxBlockSize.toNat answers) {k : Nat} (hAsked : asked w.node = k)
    (hLoaded : loaded = min (k * maxBlockSize.toNat) len.toNat) (hZero : ∀ j < k, (answers j).1 = 0)
    (hCopied : ∀ i < loaded, Copied answers maxBlockSize.toNat bytes i) {out : Memory UInt8} {t : World γ ν}
    (h : Returns (downloadBlocks blockRead len start maxBlockSize n loaded bytes) w (.ok, out) t) :
    ∀ i < len.toNat, Copied answers maxBlockSize.toNat out i := by
  induction n generalizing loaded bytes w k with
  | zero => cases h
  | succ n ih =>
    rcases Nat.lt_or_ge loaded len.toNat with hInside | hEnd
    · obtain ⟨hBlock, hPlace, hNext⟩ := next_block (hLoaded ▸ hInside)
      have hRoom : ¬ maximumScratchpadBlockSize < min maxBlockSize.toNat (len.toNat - loaded) := by omega
      obtain ⟨u, hCounted, hRound⟩ := downloadBlocks_asked start n bytes w hAnswers hInside hRoom
      rw [Returns, hRound, hAsked] at h
      by_cases hRefused : Refused (answers k).1
      · have hTable : OkOnlyAtZero scratchpadLocalBlockReadErrorCodeLut := by decide
        rw [if_pos hRefused] at h
        have hOk := (convertErrorCode_eq_ok hTable).mp (Prod.mk.inj (Option.some.inj (Prod.mk.inj h).1)).1
        exact absurd hRefused (by rw [hOk]; decide)
      · have hRes := hNever.eq_zero hBlock hZero hRefused
        obtain rfl := hLoaded.trans hPlace
        rw [if_neg hRefused] at h
        refine ih (hCounted.trans (congrArg (· + 1) hAsked)) hNext ?_ (fun i hi => stored_copied hRes hCopied hi) h
        exact fun j hj => (Nat.lt_succ_iff_lt_or_eq.mp hj).elim (hZero j) (fun hEq => hEq ▸ hRes)
    · rw [downloadBlocks, if_neg (Nat.not_lt.mpr hEnd)] at h
      obtain ⟨hOut, -⟩ := returns_pure.mp h
      obtain rfl := (Prod.mk.inj hOut).2
      exact fun i hi => hCopied i (Nat.lt_of_lt_of_le hi hEnd)

/-- The first result that is not zero ends the download. -/
theorem downloadBlocks_refuses (hAnswers : ∀ start size, AnswersInTurn (blockRead start size) answers asked)
    (hSmall : ¬ maximumScratchpadBlockSize < min maxBlockSize.toNat len.toNat)
    (hNever : NeverOne len.toNat maxBlockSize.toNat answers) {k k' : Nat} (hAsked : asked w.node = k)
    (hLoaded : loaded = min (k * maxBlockSize.toNat) len.toNat) (hZero : ∀ j < k, (answers j).1 = 0)
    (hMade : k ≤ k')
    (hBefore : k' < asked (downloadBlocks blockRead len start maxBlockSize n loaded bytes w).2.node)
    (hError : (answers k').1 ≠ 0) :
    ∃ out t, Returns (downloadBlocks blockRead len start maxBlockSize n loaded bytes) w
      (convertErrorCode scratchpadLocalBlockReadErrorCodeLut (answers k').1, out) t := by
  induction n generalizing loaded bytes w k with
  | zero => exact absurd (Nat.lt_of_lt_of_eq hBefore hAsked) (Nat.not_lt.mpr hMade)
  | succ n ih =>
    rcases Nat.lt_or_ge loaded len.toNat with hInside | hEnd
    · obtain ⟨hBlock, hPlace, hNext⟩ := next_block (hLoaded ▸ hInside)
      have hRoom : ¬ maximumScratchpadBlockSize < min maxBlockSize.toNat (len.toNat - loaded) := by omega
      obtain ⟨u, hCounted, hRound⟩ := downloadBlocks_asked start n bytes w hAnswers hInside hRoom
      rw [hRound, hAsked] at hBefore
      simp only [Returns, hRound, hAsked]
      by_cases hRefused : Refused (answers k).1
      · rw [if_pos hRefused, hCounted, hAsked] at hBefore
        obtain rfl := Nat.le_antisymm hMade (Nat.le_of_lt_succ hBefore)
        exact ⟨_, u, if_pos hRefused⟩
      · have hRes := hNever.eq_zero hBlock hZero hRefused
        have hLater : k ≠ k' := fun hEq => hError (hEq ▸ hRes)
        obtain rfl := hLoaded.trans hPlace
        rw [if_neg hRefused] at hBefore
        simp only [if_neg hRefused]
        refine ih (hCounted.trans (congrArg (· + 1) hAsked)) hNext ?_ (Nat.lt_of_le_of_ne hMade hLater) hBefore
        exact fun j hj => (Nat.lt_succ_iff_lt_or_eq.mp hj).elim (hZero j) (fun hEq => hEq ▸ hRes)
    · rw [downloadBlocks, if_neg (Nat.not_lt.mpr hEnd)] at hBefore
      exact absurd (Nat.lt_of_lt_of_eq hBefore hAsked) (Nat.not_lt.mpr hMade)

theorem eq_one_of_stackNotStopped {res : Int}
    (h : convertErrorCode scratchpadLocalBlockReadErrorCodeLut res = .stackNotStopped) : res = 1 := by
  have hEntries : ∀ n < 6, (scratchpadLocalBlockReadErrorCodeLut[n]?).getD .internalError =
      .stackNotStopped → n = 1 := by decide
  rw [convertErrorCode] at h
  split at h
  · next hSign =>
    rcases Nat.lt_or_ge res.toNat 6 with hInside | hOutside
    · have hIndex := hEntries res.toNat hInside h
      omega
    · rw [List.getElem?_eq_none hOutside] at h
      cases h
  · cases h

/-- The error of the result 1 is never returned. -/
theorem not_returns_stackNotStopped (hAnswers : ∀ start size, AnswersInTurn (blockRead start size) answers asked)
    {out : Memory UInt8} {t : World γ ν} :
    ¬ Returns (downloadBlocks blockRead len start maxBlockSize n loaded bytes) w (.stackNotStopped, out) t := by
  induction n generalizing loaded bytes w with
  | zero => exact not_returns_unfinished
  | succ n ih =>
    rw [Returns]
    by_cases hInside : loaded < len.toNat
    · by_cases hLarge : maximumScratchpadBlockSize < min maxBlockSize.toNat (len.toNat - loaded)
      · rw [downloadBlocks_tooLarge hInside hLarge]
        intro h
        cases h
      obtain ⟨u, -, hRound⟩ := downloadBlocks_asked start n bytes w hAnswers hInside hLarge
      rw [hRound]
      by_cases hRefused : Refused (answers (asked w.node)).1
      · rw [if_pos hRefused]
        intro h
        have hError := (Prod.mk.inj (Option.some.inj (Prod.mk.inj h).1)).1
        rw [eq_one_of_stackNotStopped hError] at hRefused
        exact absurd hRefused (by decide)
      · rw [if_neg hRefused]
        exact ih
    · rw [downloadBlocks, if_neg hInside]
      intro h
      cases h

variable (start) in
/-- As long as the results are 0, the rounds come to the next block. -/
theorem downloadBlocks_reaches (hAnswers : ∀ start size, AnswersInTurn (blockRead start size) answers asked)
    (hSmall : ¬ maximumScratchpadBlockSize < min maxBlockSize.toNat len.toNat) (hNew : asked w.node = 0)
    (bytes : Memory UInt8) (n : Nat) {k : Nat} (hInside : k * maxBlockSize.toNat < len.toNat)
    (hZero : ∀ j < k, (answers j).1 = 0) :
    ∃ out u, asked u.node = k ∧ downloadBlocks blockRead len start maxBlockSize (n + k) 0 bytes w =
      downloadBlocks blockRead len start maxBlockSize n (k * maxBlockSize.toNat) out u := by
  induction k generalizing n with
  | zero => exact ⟨bytes, w, hNew, by rw [Nat.zero_mul, Nat.add_zero]⟩
  | succ k ih =>
    have hNext : (k + 1) * maxBlockSize.toNat = k * maxBlockSize.toNat + maxBlockSize.toNat := Nat.succ_mul _ _
    have hBlock : k * maxBlockSize.toNat < len.toNat := by omega
    have hFull : min maxBlockSize.toNat (len.toNat - k * maxBlockSize.toNat) = maxBlockSize.toNat := by omega
    have hRoom : ¬ maximumScratchpadBlockSize <
        min maxBlockSize.toNat (len.toNat - k * maxBlockSize.toNat) := by omega
    obtain ⟨out, u, hAsked, hReached⟩ := ih (n + 1) hBlock fun j hj => hZero j (Nat.lt_succ_of_lt hj)
    have hGoesOn : ¬ Refused (answers (asked u.node)).1 := by
      rw [hAsked, hZero k (Nat.lt_succ_self k)]
      decide
    obtain ⟨v, hCounted, hRound⟩ := downloadBlocks_asked start n out u hAnswers hBlock hRoom
    rw [if_neg hGoesOn, hFull, ← hNext] at hRound
    have hRounds : n + (k + 1) = n + 1 + k := by omega
    exact ⟨_, v, hCounted.trans (congrArg (· + 1) hAsked), hRounds ▸ hReached.trans hRound⟩

end Download

section Calls

variable {env : Environment ν} {asked : ν → Nat} {maxBlockSize : UInt8}

/-- The maximum is read before the rounds begin. -/
theorem ReportsMax.returns (h : ReportsMax env maxBlockSize asked) {w : World γ ν} (rounds : Nat) :
    ∃ u : World γ ν, asked u.node = asked w.node ∧
      Returns (wpcGetScratchpadBlockMax (env.within rounds)) w (.ok maxBlockSize) u :=
  ⟨{ w with node := _ }, h.keeps w.node,
    (returns_readAttribute (env.within rounds)).mpr ⟨(h.reports w.node).symm, rfl⟩⟩

theorem ReportsMax.upload_eq (h : ReportsMax env maxBlockSize asked) (bytes : List UInt8) (start : UInt32)
    (w : World γ ν) (rounds : Nat) :
    ∃ u : World γ ν, asked u.node = asked w.node ∧
      wpcUploadLocalBlockScratchpad (env.within rounds) bytes start w =
        uploadBlocks (env.within rounds) bytes start maxBlockSize rounds 0 u := by
  obtain ⟨u, hSame, hMax⟩ := h.returns (w := w) rounds
  exact ⟨u, hSame, bind_of_returns hMax⟩

theorem ReportsMax.download_eq (h : ReportsMax env maxBlockSize asked) (blockRead : BlockRead ν)
    (len : UInt32) (bytes : Memory UInt8) (start : UInt32) (w : World γ ν) (rounds : Nat) :
    ∃ u : World γ ν, asked u.node = asked w.node ∧
      wpcDownloadLocalScratchpad (env.within rounds) blockRead len bytes start w =
        downloadBlocks blockRead len start maxBlockSize rounds 0 bytes u := by
  obtain ⟨u, hSame, hMax⟩ := h.returns (w := w) rounds
  exact ⟨u, hSame, bind_of_returns hMax⟩

/-- A call, followed for enough rounds, returns after at most so many block requests. -/
def ReturnsWithin {α : Type} (call : Nat → Call γ ν α) (w : World γ ν) (asked : ν → Nat) (limit : Nat) : Prop :=
  ∃ rounds res t, Returns (call rounds) w res t ∧ asked t.node ≤ limit

theorem returnsWithin_iff {α : Type} {call : Nat → Call γ ν α} {w : World γ ν} {limit : Nat}
    {count : Nat → Option Nat}
    (hCount : ∀ rounds, (finish (call rounds) w).map (fun t => asked t.node) = count rounds) :
    ReturnsWithin call w asked limit ↔ ∃ rounds m, count rounds = some m ∧ m ≤ limit := by
  refine exists_congr fun rounds => ?_
  rw [← hCount rounds]
  constructor
  · rintro ⟨res, t, hReturns, hLe⟩
    exact ⟨_, Option.map_eq_some_iff.mpr ⟨t, finish_eq_some.mpr ⟨res, hReturns⟩, rfl⟩, hLe⟩
  · rintro ⟨m, hFinished, hLe⟩
    obtain ⟨t, hFinish, rfl⟩ := Option.map_eq_some_iff.mp hFinished
    obtain ⟨res, hReturns⟩ := finish_eq_some.mp hFinish
    exact ⟨res, t, hReturns, hLe⟩

end Calls

/-- Both calls return within `len` block requests just if the maximum is not zero, there is nothing to
do, or one of the first `len` requests is refused. -/
theorem blockRequests_bounded_iff {γ ν : Type} {env : Environment ν} {blockRead : BlockRead ν}
    {asked : ν → Nat} {maxBlockSize : UInt8} {uploads : Nat → Int} {reads : Nat → Int × Memory UInt8}
    (hMax : ReportsMax env maxBlockSize asked)
    (hUploads : ∀ start bytes, AnswersInTurn (env.request (scratchpadBlock start bytes)) uploads asked)
    (hReads : ∀ start size, AnswersInTurn (blockRead start size) reads asked)
    (image : List UInt8) (len start : UInt32) (bytes : Memory UInt8) {w : World γ ν} (hNew : asked w.node = 0) :
    (ReturnsWithin (fun rounds => wpcUploadLocalBlockScratchpad (env.within rounds) image start) w asked
        image.length ↔ EndsInTime image.length maxBlockSize.toNat uploads) ∧
      (ReturnsWithin (fun rounds => wpcDownloadLocalScratchpad (env.within rounds) blockRead len bytes start)
        w asked len.toNat ↔ EndsInTime len.toNat maxBlockSize.toNat fun k => (reads k).1) := by
  constructor
  · rw [← endsInTime_iff]
    refine returnsWithin_iff fun rounds => ?_
    obtain ⟨u, hSame, hCall⟩ := hMax.upload_eq image start w rounds
    have hWithin : ∀ start bytes, AnswersInTurn ((env.within rounds).request (scratchpadBlock start bytes))
      uploads asked := hUploads
    rw [finish, hCall]
    exact (uploadBlocks_count hWithin rounds 0 u).trans (by rw [hSame, hNew])
  · rw [← endsInTime_iff]
    refine returnsWithin_iff fun rounds => ?_
    obtain ⟨u, hSame, hCall⟩ := hMax.download_eq blockRead len bytes start w rounds
    rw [finish, hCall]
    exact (downloadBlocks_count hReads rounds 0 bytes u).trans (by rw [hSame, hNew])

/-- A node that is the number of the block requests it got. -/
def countingNode (maxBlockSize : UInt8) (uploads : Nat → Int) : Environment Nat where
  request q k :=
    match q.payload with
    | .imageBlock _ _ _ => (uploads k, k + 1)
    | _ => (0, k)
  attributeRead _ _ k := ((0, [maxBlockSize]), k)
  appConfigDataRead k := ((1, ⟨0, 0, []⟩), k)
  scratchpadStatus k := ((0, ⟨0, 0, 0, 0, 0, 0, 0, 0, 0⟩), k)
  scratchpadTargetRead k := ((1, ⟨0, 0, 0, 0⟩), k)
  timestampMsMonotonic k := (0, k)
  timestampMsEpoch k := (0, k)
  malloc k := (false, k)
  rand k := (0, k)
  rounds := 0

def countingRead (reads : Nat → Int × Memory UInt8) : BlockRead Nat := fun _ _ k => (reads k, k + 1)

theorem countingNode_reports (maxBlockSize : UInt8) (uploads : Nat → Int) :
    ReportsMax (countingNode maxBlockSize uploads) maxBlockSize id where
  reports _ := rfl
  keeps _ := rfl

theorem countingNode_answers (maxBlockSize : UInt8) (uploads : Nat → Int) (start : UInt32) (bytes : List UInt8) :
    AnswersInTurn ((countingNode maxBlockSize uploads).request (scratchpadBlock start bytes)) uploads id :=
  fun _ => ⟨rfl, rfl⟩

theorem countingRead_answers (reads : Nat → Int × Memory UInt8) (start : UInt32) (size : UInt8) :
    AnswersInTurn (countingRead reads start size) reads id := fun _ => ⟨rfl, rfl⟩

theorem blockRequests_bounded_iff_refused :
    (ReturnsWithin (fun rounds => wpcUploadLocalBlockScratchpad
          ((countingNode 0 fun k => if k = 1 then 5 else 0).within rounds) [1, 2, 3] 0)
        (⟨⟨60, 102⟩, (), 0⟩ : World Unit Nat) id 3 ↔ EndsInTime 3 0 fun k => if k = 1 then 5 else 0) ∧
      (ReturnsWithin (fun rounds => wpcDownloadLocalScratchpad
          ((countingNode 0 fun k => if k = 1 then 5 else 0).within rounds)
          (countingRead fun _ => (0, fun _ => 0)) 2 (fun _ => 0) 0)
        (⟨⟨60, 102⟩, (), 0⟩ : World Unit Nat) id 2 ↔ EndsInTime 2 0 fun _ => 0) :=
  blockRequests_bounded_iff (countingNode_reports 0 _) (countingNode_answers 0 _)
    (countingRead_answers fun _ => (0, fun _ => 0)) [1, 2, 3] 2 0 (fun _ => 0) rfl

/-- One byte is to be loaded, and the node reports a maximum of zero. -/
theorem zeroMax_never_returns :
    ¬ ∀ (maxBlockSize : UInt8) (uploads : Nat → Int) (image : List UInt8) (start : UInt32),
      ReturnsWithin (fun rounds => wpcUploadLocalBlockScratchpad
        ((countingNode maxBlockSize uploads).within rounds) image start)
          (⟨⟨60, 102⟩, (), 0⟩ : World Unit Nat) id image.length := by
  intro h
  obtain ⟨rounds, res, t, hReturns, -⟩ := h 0 (fun _ => 0) [0] 0
  have hWithin : ∀ start bytes, AnswersInTurn
      (((countingNode 0 fun _ => 0).within rounds).request (scratchpadBlock start bytes)) (fun _ => 0) id :=
    countingNode_answers 0 _
  obtain ⟨u, -, hCall⟩ := (countingNode_reports 0 fun _ => 0).upload_eq [0] 0
    (⟨⟨60, 102⟩, (), 0⟩ : World Unit Nat) rounds
  have hFinished : finish (uploadBlocks ((countingNode 0 fun _ => 0).within rounds) [0] 0 0 rounds 0) u =
    some t := finish_eq_some.mpr ⟨res, hCall.symm.trans hReturns⟩
  have hCount : countRequests 1 0 (fun _ => 0) rounds 0 u.node = some t.node :=
    (uploadBlocks_count hWithin rounds 0 u).symm.trans (congrArg _ hFinished)
  obtain ⟨-, -, hRefused, -⟩ := (countRequests_zero_iff Nat.one_pos rounds).mp hCount
  exact absurd hRefused (by decide)

/-- What is returned as read has been read, and an error that the node answers is returned. -/
structure ReadsProperly {γ ν : Type} (env : Environment ν) (blockRead : BlockRead ν) (asked : ν → Nat)
    (maxBlockSize : UInt8) (answers : Nat → Int × Memory UInt8) (len : UInt32) (bytes : Memory UInt8)
    (start : UInt32) (w : World γ ν) : Prop where
  copied : ∀ rounds out t,
    Returns (wpcDownloadLocalScratchpad (env.within rounds) blockRead len bytes start) w (.ok, out) t →
      ∀ i < len.toNat, Copied answers maxBlockSize.toNat out i
  refuses : ∀ rounds k,
    k < asked (wpcDownloadLocalScratchpad (env.within rounds) blockRead len bytes start w).2.node →
      (answers k).1 ≠ 0 → ∃ rounds out t,
        Returns (wpcDownloadLocalScratchpad (env.within rounds) blockRead len bytes start) w
          (convertErrorCode scratchpadLocalBlockReadErrorCodeLut (answers k).1, out) t

section Reads

variable {γ ν : Type} {env : Environment ν} {blockRead : BlockRead ν} {asked : ν → Nat} {maxBlockSize : UInt8}
  {answers : Nat → Int × Memory UInt8} {w : World γ ν}
variable (hMax : ReportsMax env maxBlockSize asked)
  (hAnswers : ∀ start size, AnswersInTurn (blockRead start size) answers asked)
  (len start : UInt32) (bytes : Memory UInt8) (hNew : asked w.node = 0)

include hMax hAnswers hNew

theorem readsProperly_of_neverOne (hSmall : ¬ maximumScratchpadBlockSize < min maxBlockSize.toNat len.toNat)
    (hNever : NeverOne len.toNat maxBlockSize.toNat answers) :
    ReadsProperly env blockRead asked maxBlockSize answers len bytes start w := by
  have hNone : 0 = min (0 * maxBlockSize.toNat) len.toNat := by rw [Nat.zero_mul, Nat.zero_min]
  refine ⟨fun rounds out t hReturns => ?_, fun rounds k hMade hError => ⟨rounds, ?_⟩⟩
  · obtain ⟨u, hSame, hCall⟩ := hMax.download_eq blockRead len bytes start w rounds
    rw [Returns, hCall] at hReturns
    exact downloadBlocks_copied hAnswers hSmall hNever (hSame.trans hNew) hNone nofun nofun hReturns
  · obtain ⟨u, hSame, hCall⟩ := hMax.download_eq blockRead len bytes start w rounds
    rw [hCall] at hMade
    simp only [Returns, hCall]
    exact downloadBlocks_refuses hAnswers hSmall hNever (hSame.trans hNew) hNone nofun (Nat.zero_le k)
      hMade hError

omit hAnswers in
/-- The first block is too large for a request, and none is made. -/
theorem readsProperly_of_tooLarge (hLarge : maximumScratchpadBlockSize < min maxBlockSize.toNat len.toNat) :
    ReadsProperly env blockRead asked maxBlockSize answers len bytes start w := by
  have hInside : 0 < len.toNat := Nat.lt_of_lt_of_le (Nat.zero_lt_of_lt hLarge) (Nat.min_le_right _ _)
  have hNone : ∀ rounds, ∃ u : World γ ν, asked u.node = 0 ∧
      (wpcDownloadLocalScratchpad (env.within rounds) blockRead len bytes start w = (none, u) ∨
        wpcDownloadLocalScratchpad (env.within rounds) blockRead len bytes start w =
          (some (.internalError, bytes), u)) := by
    intro rounds
    obtain ⟨u, hSame, hCall⟩ := hMax.download_eq blockRead len bytes start w rounds
    refine ⟨u, hSame.trans hNew, ?_⟩
    rw [hCall]
    cases rounds with
    | zero => exact .inl rfl
    | succ rounds => exact .inr (downloadBlocks_tooLarge hInside hLarge)
  refine ⟨fun rounds out t hReturns => ?_, fun rounds k hMade hError => ?_⟩
  · obtain ⟨u, -, hCall | hCall⟩ := hNone rounds
    · rw [Returns, hCall] at hReturns
      cases hReturns
    · rw [Returns, hCall] at hReturns
      cases hReturns
  · obtain ⟨u, hAsked, hCall | hCall⟩ := hNone rounds
    · rw [hCall] at hMade
      exact absurd (Nat.lt_of_lt_of_eq hMade hAsked) (Nat.not_lt_zero k)
    · rw [hCall] at hMade
      exact absurd (Nat.lt_of_lt_of_eq hMade hAsked) (Nat.not_lt_zero k)

theorem not_readsProperly (hSmall : ¬ maximumScratchpadBlockSize < min maxBlockSize.toNat len.toNat) {k : Nat}
    (hInside : k * maxBlockSize.toNat < len.toNat) (hZero : ∀ j < k, (answers j).1 = 0)
    (hOne : (answers k).1 = 1) :
    ¬ ReadsProperly env blockRead asked maxBlockSize answers len bytes start w := by
  intro h
  have hMade : k < asked (wpcDownloadLocalScratchpad (env.within (1 + k)) blockRead len bytes start w).2.node := by
    obtain ⟨u, hSame, hCall⟩ := hMax.download_eq blockRead len bytes start w (1 + k)
    obtain ⟨out, v, hAsked, hReached⟩ :=
      downloadBlocks_reaches start hAnswers hSmall (hSame.trans hNew) bytes 1 hInside hZero
    have hRoom : ¬ maximumScratchpadBlockSize <
        min maxBlockSize.toNat (len.toNat - k * maxBlockSize.toNat) := by omega
    obtain ⟨t, hCounted, hRound⟩ := downloadBlocks_asked start 0 out v hAnswers hInside hRoom
    have hGoesOn : ¬ Refused (answers (asked v.node)).1 := by
      rw [hAsked, hOne]
      decide
    rw [if_neg hGoesOn] at hRound
    rw [hCall, hReached, hRound]
    exact Nat.lt_of_lt_of_eq (Nat.lt_succ_self k) (hCounted.trans (congrArg (· + 1) hAsked)).symm
  have hNotZero : (answers k).1 ≠ 0 := by
    rw [hOne]
    decide
  obtain ⟨rounds, out, t, hReturns⟩ := h.refuses (1 + k) k hMade hNotZero
  obtain ⟨u, -, hCall⟩ := hMax.download_eq blockRead len bytes start w rounds
  rw [hOne, Returns, hCall] at hReturns
  exact not_returns_stackNotStopped hAnswers hReturns

end Reads

/-- A download is what it is returned as just if its blocks are too large to be asked for, or no block
read after results of 0 only is answered with 1. -/
theorem readsProperly_iff {γ ν : Type} {env : Environment ν} {blockRead : BlockRead ν} {asked : ν → Nat}
    {maxBlockSize : UInt8} {answers : Nat → Int × Memory UInt8} (hMax : ReportsMax env maxBlockSize asked)
    (hAnswers : ∀ start size, AnswersInTurn (blockRead start size) answers asked) (len start : UInt32)
    (bytes : Memory UInt8) {w : World γ ν} (hNew : asked w.node = 0) :
    ReadsProperly env blockRead asked maxBlockSize answers len bytes start w ↔
      (min maxBlockSize.toNat len.toNat ≤ maximumScratchpadBlockSize →
        NeverOne len.toNat maxBlockSize.toNat answers) := by
  constructor
  · intro h hSmall k hInside hZero hOne
    exact not_readsProperly hMax hAnswers len start bytes hNew (Nat.not_lt.mpr hSmall) hInside hZero hOne h
  · intro h
    rcases Nat.lt_or_ge maximumScratchpadBlockSize (min maxBlockSize.toNat len.toNat) with hLarge | hSmall
    · exact readsProperly_of_tooLarge hMax len start bytes hNew hLarge
    · exact readsProperly_of_neverOne hMax hAnswers len start bytes hNew (Nat.not_lt.mpr hSmall) (h hSmall)

theorem readsProperly_iff_refused :
    ReadsProperly (countingNode 2 fun _ => 0) (countingRead fun k => (if k = 1 then 4 else 0, fun _ => 7)) id 2
        (fun k => (if k = 1 then 4 else 0, fun _ => 7)) 3 (fun _ => 0) 0
        (⟨⟨60, 102⟩, (), 0⟩ : World Unit Nat) ↔
      (min 2 3 ≤ maximumScratchpadBlockSize → NeverOne 3 2 fun k => (if k = 1 then 4 else 0, fun _ => 7)) :=
  readsProperly_iff (countingNode_reports 2 _) (countingRead_answers _) 3 0 (fun _ => 0) rfl

/-- The read of the only byte is answered with 1, the error for a stack that is not stopped. -/
theorem resultOne_not_reported :
    ¬ ∀ (maxBlockSize : UInt8) (answers : Nat → Int × Memory UInt8) (len start : UInt32) (bytes : Memory UInt8),
      ReadsProperly (countingNode maxBlockSize fun _ => 0) (countingRead answers) id maxBlockSize answers len
        bytes start (⟨⟨60, 102⟩, (), 0⟩ : World Unit Nat) := by
  intro h
  exact not_readsProperly (countingNode_reports 16 _) (countingRead_answers fun _ => (1, fun _ => 0)) 1 0 (fun _ => 0) rfl (by decide)
    (show 0 * (16 : UInt8).toNat < (1 : UInt32).toNat by decide) nofun rfl (h 16 _ 1 0 _)

end CMeshApi.Wpc
