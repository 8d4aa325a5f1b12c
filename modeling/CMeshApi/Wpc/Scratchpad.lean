import CMeshApi.Foundations.Memory
import CMeshApi.Wpc.Management

/-!
# Loading the scratchpad, and reading it back

An image is loaded in chunks that the caller chooses, and each chunk in blocks that the node
asks for. `WPC_download_local_scratchpad` cuts what it reads into blocks in the same way.
-/

namespace CMeshApi.Wpc

open Programs

variable {γ ν : Type} (env : Environment ν)

/-- What answers `MSAP_SCRATCH_BLOCK_READ_REQUEST`: the negative code of `WPC_Int_send_request` or the
result in the confirm, and the bytes of the confirm. -/
abbrev BlockRead (ν : Type) := UInt32 → UInt8 → ν → (Int × Memory UInt8) × ν

def scratchpadLocalBlockReadErrorCodeLut : List AppRes :=
  [.ok, .stackNotStopped, .invalidStartAddress, .invalidNumberOfBytes, .noValidScratchpad,
    .accessDenied]

/-- The block is stored from `loaded` on if the result is zero. -/
def msapScratchpadBlockReadRequest (blockRead : BlockRead ν) (startAddress : UInt32)
    (numberOfBytes : UInt8) (bytes : Memory UInt8) (loaded : Nat) : Call γ ν (Int × Memory UInt8) :=
  if maximumScratchpadBlockSize < numberOfBytes.toNat then pure (6, bytes)
  else do
    let (res, confirm) ← ask (blockRead startAddress numberOfBytes)
    return (res, if res = 0 then bytes.write loaded (confirm.read 0 numberOfBytes.toNat) else bytes)

/-- The rounds of the loop over the blocks that are read, from `loaded` on. -/
def downloadBlocks (blockRead : BlockRead ν) (len start : UInt32) (maxBlockSize : UInt8) :
    Nat → Nat → Memory UInt8 → Call γ ν (AppRes × Memory UInt8)
  | 0, _, _ => .unfinished
  | n + 1, loaded, bytes =>
    if loaded < len.toNat then do
      let remaining := len.toNat - loaded
      let blockSize := if maxBlockSize.toNat < remaining then maxBlockSize else .ofNat remaining
      let (res, bytes) ← msapScratchpadBlockReadRequest blockRead (start + .ofNat loaded) blockSize bytes
        loaded
      if 1 < res ∨ res < 0 then
        return (convertErrorCode scratchpadLocalBlockReadErrorCodeLut res, bytes)
      else downloadBlocks blockRead len start maxBlockSize n (loaded + blockSize.toNat) bytes
    else return (.ok, bytes)

def wpcDownloadLocalScratchpad (blockRead : BlockRead ν) (len : UInt32) (bytes : Memory UInt8)
    (start : UInt32) : Call γ ν (AppRes × Memory UInt8) := do
  match ← wpcGetScratchpadBlockMax env with
  | .error error => return (error, bytes)
  | .ok maxBlockSize => downloadBlocks blockRead len start maxBlockSize env.rounds 0 bytes

/-- The chunks of an image, each where the one before it ended. -/
def uploadChunks (start : UInt32) : List (List UInt8) → Call γ ν (List AppRes)
  | [] => pure []
  | chunk :: chunks => do
    let res ← wpcUploadLocalBlockScratchpad env chunk start
    let results ← uploadChunks (start + .ofNat chunk.length) chunks
    return res :: results

/-- A node that stores what it is sent. The maximum that it reports may be another one each
time. -/
structure ScratchpadNode (blockRead : BlockRead ν) (scratchpad : ν → Memory UInt8) : Prop where
  blockMax : ∀ n, ∃ maxBlockSize : UInt8, 0 < maxBlockSize.toNat ∧
    maxBlockSize.toNat ≤ maximumScratchpadBlockSize ∧
      readResult 1 byteDecode (env.attributeRead .msap msapScratchpadBlockMax n).1 = .ok maxBlockSize
  keeps : ∀ n, scratchpad (env.attributeRead .msap msapScratchpadBlockMax n).2 = scratchpad n
  stores : ∀ (start : UInt32) bytes n, 0 < bytes.length → bytes.length ≤ maximumScratchpadBlockSize →
    start.toNat + bytes.length ≤ 2 ^ 32 →
      ((env.request (scratchpadBlock start bytes) n).1 = 0 ∨
          (env.request (scratchpadBlock start bytes) n).1 = 1) ∧
        scratchpad (env.request (scratchpadBlock start bytes) n).2 =
          (scratchpad n).write start.toNat bytes
  reads : ∀ (start : UInt32) (numberOfBytes : UInt8) n, 0 < numberOfBytes.toNat →
    numberOfBytes.toNat ≤ maximumScratchpadBlockSize → start.toNat + numberOfBytes.toNat ≤ 2 ^ 32 →
      (blockRead start numberOfBytes n).1.1 = 0 ∧
        (blockRead start numberOfBytes n).1.2.read 0 numberOfBytes.toNat =
          (scratchpad n).read start.toNat numberOfBytes.toNat ∧
        scratchpad (blockRead start numberOfBytes n).2 = scratchpad n

theorem toNat_address {start : UInt32} {loaded length : Nat} (hFits : start.toNat + length ≤ 2 ^ 32)
    (hInside : loaded < length) : (start + .ofNat loaded).toNat = start.toNat + loaded := by
  have hLoaded : loaded < 2 ^ 32 := by omega
  rw [UInt32.toNat_add, UInt32.toNat_ofNat_of_lt' hLoaded]
  exact Nat.mod_eq_of_lt (by omega)

theorem blockSize_eq_min (maxBlockSize remaining : Nat) :
    (if maxBlockSize < remaining then maxBlockSize else remaining) = min maxBlockSize remaining := by
  split
  · next hFull => exact (Nat.min_eq_left (Nat.le_of_lt hFull)).symm
  · next hRest => exact (Nat.min_eq_right (Nat.le_of_not_lt hRest)).symm

theorem toNat_blockSize (maxBlockSize : UInt8) (remaining : Nat) :
    (if maxBlockSize.toNat < remaining then maxBlockSize else .ofNat remaining).toNat =
      min maxBlockSize.toNat remaining := by
  rw [← blockSize_eq_min]
  split
  · rfl
  · have hByte : maxBlockSize.toNat < 256 := maxBlockSize.toNat_lt
    exact UInt8.toNat_ofNat_of_lt' (show remaining < 256 by omega)

namespace ScratchpadNode

variable {env} {blockRead : BlockRead ν} {scratchpad : ν → Memory UInt8}
variable (node : ScratchpadNode env blockRead scratchpad)

include node

theorem uploadBlock {start : UInt32} {bytes : List UInt8} {loaded k : Nat}
    (hFits : start.toNat + bytes.length ≤ 2 ^ 32) (hPos : 0 < k) (hSize : k ≤ maximumScratchpadBlockSize)
    (hInside : loaded + k ≤ bytes.length) (w : World γ ν) :
    ∃ res t, Returns (msapScratchpadBlockRequest env (start + .ofNat loaded) ((bytes.drop loaded).take k)) w
        res t ∧ (res = 0 ∨ res = 1) ∧
      scratchpad t.node =
        (scratchpad w.node).write (start.toNat + loaded : Nat) ((bytes.drop loaded).take k) := by
  have hAddress : (start + .ofNat loaded).toNat = start.toNat + loaded := toNat_address hFits (by omega)
  have hBlock : ((bytes.drop loaded).take k).length = k := by
    rw [List.length_take, List.length_drop]
    omega
  obtain ⟨hRes, hStored⟩ := node.stores (start + .ofNat loaded) ((bytes.drop loaded).take k) w.node
    (by omega) (by omega) (by omega)
  refine ⟨_, { w with node := _ }, ?_, hRes, hAddress ▸ hStored⟩
  rw [msapScratchpadBlockRequest, if_neg (by omega)]
  exact returns_ask.mpr ⟨rfl, rfl⟩

/-- The rounds from `loaded` on store the rest of the chunk. -/
theorem uploadBlocks {bytes : List UInt8} {start : UInt32} {maxBlockSize : UInt8}
    (hPos : 0 < maxBlockSize.toNat) (hMax : maxBlockSize.toNat ≤ maximumScratchpadBlockSize)
    (hFits : start.toNat + bytes.length ≤ 2 ^ 32) {n loaded : Nat} (hRounds : bytes.length - loaded < n)
    (w : World γ ν) :
    ∃ t, Returns (Wpc.uploadBlocks env bytes start maxBlockSize n loaded) w .ok t ∧
      scratchpad t.node = (scratchpad w.node).write (start.toNat + loaded : Nat) (bytes.drop loaded) := by
  induction n generalizing loaded w with
  | zero => exact absurd hRounds (Nat.not_lt_zero _)
  | succ n ih =>
    rw [Wpc.uploadBlocks]
    rcases Nat.lt_or_ge loaded bytes.length with hInside | hEnd
    · rw [if_pos hInside]
      dsimp only
      rw [blockSize_eq_min]
      generalize hSize : min maxBlockSize.toNat (bytes.length - loaded) = k
      have hWithin : loaded + k ≤ bytes.length := by omega
      obtain ⟨res, u, hRequest, hRes, hStored⟩ :=
        node.uploadBlock hFits (show 0 < k by omega) (by omega) hWithin w
      obtain ⟨t, hRest, hLoaded⟩ := ih (show bytes.length - (loaded + k) < n by omega) u
      refine ⟨t, returns_bind.mpr ⟨res, u, hRequest, returns_ite.mpr (.inr ⟨by omega, hRest⟩)⟩, ?_⟩
      have hRestLength : k ≤ (bytes.drop loaded).length := by
        rw [List.length_drop]
        omega
      rw [hLoaded, hStored, ← Memory.write_take_drop _ _ hRestLength, List.drop_drop, ← Nat.add_assoc]
      rfl
    · rw [if_neg (Nat.not_lt.mpr hEnd), List.drop_eq_nil_of_le hEnd, Memory.write_nil]
      exact ⟨w, returns_pure.mpr ⟨rfl, rfl⟩, rfl⟩

theorem getScratchpadBlockMax (w : World γ ν) :
    ∃ maxBlockSize t, Returns (wpcGetScratchpadBlockMax env) w (.ok maxBlockSize) t ∧
      0 < maxBlockSize.toNat ∧ maxBlockSize.toNat ≤ maximumScratchpadBlockSize ∧
      scratchpad t.node = scratchpad w.node := by
  obtain ⟨maxBlockSize, hPos, hMax, hReported⟩ := node.blockMax w.node
  exact ⟨maxBlockSize, _, (returns_readAttribute env).mpr ⟨hReported.symm, rfl⟩, hPos, hMax,
    node.keeps w.node⟩

theorem uploadLocalBlockScratchpad {bytes : List UInt8} {start : UInt32}
    (hFits : start.toNat + bytes.length ≤ 2 ^ 32) (hRounds : bytes.length < env.rounds) (w : World γ ν) :
    ∃ t, Returns (wpcUploadLocalBlockScratchpad env bytes start) w .ok t ∧
      scratchpad t.node = (scratchpad w.node).write start.toNat bytes := by
  obtain ⟨maxBlockSize, u, hRead, hPos, hMax, hSame⟩ := node.getScratchpadBlockMax w
  have hAll : bytes.length - 0 < env.rounds := hRounds
  obtain ⟨t, hBlocks, hStored⟩ := node.uploadBlocks hPos hMax hFits hAll u
  exact ⟨t, returns_bind.mpr ⟨.ok maxBlockSize, u, hRead, hBlocks⟩, hSame ▸ hStored⟩

theorem uploadChunks {chunks : List (List UInt8)} {start : UInt32}
    (hFits : start.toNat + chunks.flatten.length ≤ 2 ^ 32) (hRounds : chunks.flatten.length < env.rounds)
    (w : World γ ν) :
    ∃ t, Returns (Wpc.uploadChunks env start chunks) w (chunks.map fun _ => .ok) t ∧
      scratchpad t.node = (scratchpad w.node).write start.toNat chunks.flatten := by
  induction chunks generalizing start w with
  | nil => exact ⟨w, returns_pure.mpr ⟨rfl, rfl⟩, (Memory.write_nil _ _).symm⟩
  | cons chunk chunks ih =>
    rw [List.flatten_cons, List.length_append] at hFits hRounds
    have hFitsChunk : start.toNat + chunk.length ≤ 2 ^ 32 := by omega
    obtain ⟨u, hChunk, hStored⟩ := node.uploadLocalBlockScratchpad hFitsChunk (by omega) w
    -- behind the last byte that can be addressed there are empty chunks only
    have hNext : (start + .ofNat chunk.length).toNat + chunks.flatten.length ≤ 2 ^ 32 ∧
        ∀ m : Memory UInt8, m.write (start + .ofNat chunk.length).toNat chunks.flatten =
          m.write (start.toNat + chunk.length : Nat) chunks.flatten := by
      rcases Nat.eq_zero_or_pos chunks.flatten.length with hNone | hSome
      · rw [List.eq_nil_of_length_eq_zero hNone]
        refine ⟨?_, fun m => ?_⟩
        · exact Nat.le_of_lt (UInt32.toNat_lt _)
        · rw [Memory.write_nil, Memory.write_nil]
      · rw [toNat_address hFits (Nat.lt_add_of_pos_right hSome)]
        exact ⟨by omega, fun m => rfl⟩
    obtain ⟨t, hRest, hAll⟩ := ih hNext.1 (by omega) u
    refine ⟨t, returns_bind.mpr ⟨.ok, u, hChunk, returns_bind.mpr ⟨_, t, hRest,
      returns_pure.mpr ⟨rfl, rfl⟩⟩⟩, ?_⟩
    rw [hAll, hStored, hNext.2, List.flatten_cons, Memory.write_append]
    rfl

theorem downloadBlock {start : UInt32} {len loaded : Nat} {k : UInt8}
    (hFits : start.toNat + len ≤ 2 ^ 32) (hPos : 0 < k.toNat)
    (hSize : k.toNat ≤ maximumScratchpadBlockSize) (hInside : loaded + k.toNat ≤ len)
    (bytes : Memory UInt8) (w : World γ ν) :
    ∃ t, Returns (msapScratchpadBlockReadRequest blockRead (start + .ofNat loaded) k bytes loaded) w
        (0, bytes.write loaded ((scratchpad w.node).read (start.toNat + loaded : Nat) k.toNat)) t ∧
      scratchpad t.node = scratchpad w.node := by
  have hAddress : (start + .ofNat loaded).toNat = start.toNat + loaded := toNat_address hFits (by omega)
  obtain ⟨hRes, hRead, hSame⟩ := node.reads (start + .ofNat loaded) k w.node hPos hSize (by omega)
  refine ⟨{ w with node := (blockRead (start + .ofNat loaded) k w.node).2 }, ?_, hSame⟩
  rw [msapScratchpadBlockReadRequest, if_neg (Nat.not_lt.mpr hSize)]
  refine returns_bind.mpr ⟨_, _, returns_ask.mpr ⟨rfl, rfl⟩, returns_pure.mpr ⟨?_, rfl⟩⟩
  rw [hRes, if_pos rfl, hRead, hAddress]

theorem downloadBlocks {len start : UInt32} {maxBlockSize : UInt8} (hPos : 0 < maxBlockSize.toNat)
    (hMax : maxBlockSize.toNat ≤ maximumScratchpadBlockSize)
    (hFits : start.toNat + len.toNat ≤ 2 ^ 32) {n loaded : Nat} (hRounds : len.toNat - loaded < n)
    (bytes : Memory UInt8) (w : World γ ν) :
    ∃ t, Returns (Wpc.downloadBlocks blockRead len start maxBlockSize n loaded bytes) w
        (.ok, bytes.write loaded
          ((scratchpad w.node).read (start.toNat + loaded : Nat) (len.toNat - loaded))) t ∧
      scratchpad t.node = scratchpad w.node := by
  induction n generalizing loaded bytes w with
  | zero => exact absurd hRounds (Nat.not_lt_zero _)
  | succ n ih =>
    rw [Wpc.downloadBlocks]
    rcases Nat.lt_or_ge loaded len.toNat with hInside | hEnd
    · rw [if_pos hInside]
      dsimp only
      generalize hSize : (if maxBlockSize.toNat < len.toNat - loaded then maxBlockSize
        else UInt8.ofNat (len.toNat - loaded)) = k
      have hBlock : k.toNat = min maxBlockSize.toNat (len.toNat - loaded) := by
        rw [← hSize]
        exact toNat_blockSize maxBlockSize (len.toNat - loaded)
      have hWithin : loaded + k.toNat ≤ len.toNat := by omega
      obtain ⟨u, hRequest, hSame⟩ :=
        node.downloadBlock hFits (show 0 < k.toNat by omega) (by omega) hWithin bytes w
      obtain ⟨t, hRest, hSameAfter⟩ := ih (show len.toNat - (loaded + k.toNat) < n by omega)
        (bytes.write loaded ((scratchpad w.node).read (start.toNat + loaded : Nat) k.toNat)) u
      have hCopied := Memory.write_read_add bytes (scratchpad w.node) loaded (start.toNat + loaded : Nat)
        k.toNat (len.toNat - (loaded + k.toNat))
      rw [show k.toNat + (len.toNat - (loaded + k.toNat)) = len.toNat - loaded by omega] at hCopied
      rw [hSame, ← Nat.add_assoc, Int.natCast_add loaded, Int.natCast_add (start.toNat + loaded), hCopied] at hRest
      have hZero : ¬ ((1 : Int) < 0 ∨ (0 : Int) < 0) := by decide
      exact ⟨t, returns_bind.mpr ⟨_, u, hRequest, returns_ite.mpr (.inr ⟨hZero, hRest⟩)⟩,
        hSameAfter.trans hSame⟩
    · rw [if_neg (Nat.not_lt.mpr hEnd), Nat.sub_eq_zero_of_le hEnd]
      exact ⟨w, returns_pure.mpr ⟨congrArg _ (Memory.write_nil _ _), rfl⟩, rfl⟩

theorem downloadLocalScratchpad {len start : UInt32} (hFits : start.toNat + len.toNat ≤ 2 ^ 32)
    (hRounds : len.toNat < env.rounds) (bytes : Memory UInt8) (w : World γ ν) :
    ∃ t, Returns (wpcDownloadLocalScratchpad env blockRead len bytes start) w
        (.ok, bytes.write 0 ((scratchpad w.node).read start.toNat len.toNat)) t ∧
      scratchpad t.node = scratchpad w.node := by
  obtain ⟨maxBlockSize, u, hRead, hPos, hMax, hSame⟩ := node.getScratchpadBlockMax w
  have hAll : len.toNat - 0 < env.rounds := hRounds
  obtain ⟨t, hBlocks, hKept⟩ := node.downloadBlocks hPos hMax hFits hAll bytes u
  exact ⟨t, returns_bind.mpr ⟨.ok maxBlockSize, u, hRead, hSame ▸ hBlocks⟩, hKept.trans hSame⟩

end ScratchpadNode

/-- However the image is cut into chunks and these into blocks, it is stored as in one call, and every
part of it can be read back. -/
theorem uploaded_downloads {γ ν : Type} {env : Environment ν} {blockRead : BlockRead ν}
    {scratchpad : ν → Memory UInt8} (node : ScratchpadNode env blockRead scratchpad)
    {chunks : List (List UInt8)} {start : UInt32} (hFits : start.toNat + chunks.flatten.length ≤ 2 ^ 32)
    (hRounds : chunks.flatten.length < env.rounds) (w : World γ ν) :
    ∃ t u, Returns (uploadChunks env start chunks) w (chunks.map fun _ => .ok) t ∧
      Returns (wpcUploadLocalBlockScratchpad env chunks.flatten start) w .ok u ∧
      scratchpad t.node = scratchpad u.node ∧
      ∀ (i : Nat) (len : UInt32) (bytes : Memory UInt8), i + len.toNat ≤ chunks.flatten.length →
        ∃ v, Returns (wpcDownloadLocalScratchpad env blockRead len bytes (start + .ofNat i)) t
          (.ok, bytes.write 0 ((chunks.flatten.drop i).take len.toNat)) v := by
  obtain ⟨t, hChunks, hStored⟩ := node.uploadChunks hFits hRounds w
  obtain ⟨u, hWhole, hStoredWhole⟩ := node.uploadLocalBlockScratchpad hFits hRounds w
  refine ⟨t, u, hChunks, hWhole, hStored.trans hStoredWhole.symm, ?_⟩
  intro i len bytes hPart
  have hPlace : (start + .ofNat i).toNat + len.toNat ≤ 2 ^ 32 ∧
      (scratchpad t.node).read (start + .ofNat i).toNat len.toNat =
        (chunks.flatten.drop i).take len.toNat := by
    rcases Nat.eq_zero_or_pos len.toNat with hNone | hSome
    · rw [hNone]
      exact ⟨Nat.le_of_lt (UInt32.toNat_lt _), rfl⟩
    · rw [toNat_address hFits (show i < chunks.flatten.length by omega), hStored]
      exact ⟨by omega, Memory.read_write_part _ _ hPart⟩
  obtain ⟨v, hDownload, -⟩ := node.downloadLocalScratchpad hPlace.1 (show len.toNat < env.rounds by omega)
    bytes t
  exact ⟨v, hPlace.2 ▸ hDownload⟩

/-- Asks for blocks of two bytes. -/
def scratchpadMemory : Environment (Memory UInt8) where
  request q m :=
    match q.payload with
    | .imageBlock start _ bytes => (1, m.write start.toNat bytes)
    | _ => (0, m)
  attributeRead _ _ m := ((0, [2]), m)
  appConfigDataRead m := ((1, ⟨0, 0, []⟩), m)
  scratchpadStatus m := ((0, ⟨0, 0, 0, 0, 0, 0, 0, 0, 0⟩), m)
  scratchpadTargetRead m := ((1, ⟨0, 0, 0, 0⟩), m)
  timestampMsMonotonic m := (0, m)
  timestampMsEpoch m := (0, m)
  malloc m := (false, m)
  rand m := (0, m)
  rounds := 6

def readMemory : BlockRead (Memory UInt8) := fun start _ m => ((0, fun i => m (start.toNat + i)), m)

theorem scratchpadMemory_node : ScratchpadNode scratchpadMemory readMemory id where
  blockMax m := ⟨2, by decide, by decide, rfl⟩
  keeps _ := rfl
  stores _ _ _ _ _ _ := ⟨.inr rfl, rfl⟩
  reads start numberOfBytes m _ _ _ := by
    refine ⟨rfl, List.map_congr_left fun k _ => ?_, rfl⟩
    have hCell : start.toNat + (0 + (k : Int)) = start.toNat + k := by rw [Int.zero_add]
    exact congrArg m hCell

theorem uploaded_downloads_lastBytes :
    let w : World Unit (Memory UInt8) := ⟨⟨60, 102⟩, (), fun _ => 0⟩
    ∃ t u, Returns (uploadChunks scratchpadMemory 0xfffffffb [[1, 2, 3], [], [4, 5]]) w [.ok, .ok, .ok] t ∧
      Returns (wpcUploadLocalBlockScratchpad scratchpadMemory [1, 2, 3, 4, 5] 0xfffffffb) w .ok u ∧
      t.node = u.node ∧
      ∀ (i : Nat) (len : UInt32) (bytes : Memory UInt8), i + len.toNat ≤ 5 →
        ∃ v, Returns (wpcDownloadLocalScratchpad scratchpadMemory readMemory len bytes
            (0xfffffffb + .ofNat i)) t
          (.ok, bytes.write 0 (([1, 2, 3, 4, 5].drop i).take len.toNat)) v := by
  intro w
  have hFits : (0xfffffffb : UInt32).toNat + [[1, 2, 3], [], [(4 : UInt8), 5]].flatten.length ≤ 2 ^ 32 := by
    decide
  exact uploaded_downloads scratchpadMemory_node hFits (by decide) w

end CMeshApi.Wpc
