import Utinydrm.MipiDbi.EmulatedWords

/-
  The memory a transfer of packed words touches, and the
  lengths of its messages.

  The buffer has room for the blocks of a full chunk, and a
  block takes eight source bytes. A last chunk of at least
  eight bytes is taken for whole blocks: when it is none,
  the last block reads past the source and its message is no
  whole number of blocks.

  Key definitions include:
    * `bufDcWrites` and `srcReads`
    * `EmulatedSafe`

  Main declarations:
    * `emulatedSafe_iff`
    * `emulated_accesses_iff`
-/

------------------------------------------------------------
-- Accesses
------------------------------------------------------------

namespace Utinydrm

/-
  The bytes of `buf_dc` that a chunk writes, in the order of
  the stores: eight bytes at once, and one behind them.
-/
def bufDcWrites (chunk : Nat) : List Nat :=
  if chunk < 8 then
    -- `*(u64 *)dst = ..; dst[8] = 0x00;`
    List.range 8 ++ [8]
  else
    -- `for (i = 0; i < chunk; i += 8)`
    (List.range ((chunk + 7) / 8)).flatMap fun k =>
      (List.range 8).map (9 * k + ·) ++ [9 * k + 8]

/-
  The source bytes that a chunk reads, by their distance from
  the start of the chunk.
-/
def srcReads (bitsPerWord chunk : Nat) : List Nat :=
  if chunk < 8 then
    if bitsPerWord = 8 then
      -- `for (j = 0; j < chunk; j++)`
      List.range chunk
    else
      -- `for (j = 0; j < (chunk / 2); j += 2)`
      (List.range ((chunk / 2 + 1) / 2)).flatMap fun k =>
        [2 * k, 2 * k + 1]
  else
    -- `for (i = 0; i < chunk; i += 8)`
    (List.range ((chunk + 7) / 8)).flatMap fun k =>
      (List.range 8).map (8 * k + ·)

/- The bytes `buf_dc` is allocated with. -/
def bufDcSize (spi : SpiDevice) (len maxChunk : Nat) : Nat :=
  emulatedMaxSrcChunk spi len maxChunk +
    emulatedMaxSrcChunk spi len maxChunk / 8

/- Whole blocks, within a limit. -/
structure WholeBlocks (limit len : Nat) : Prop where
  pos : 0 < len
  blocks : len % 9 = 0
  le : len ≤ limit

/-
  In every iteration the bytes written are allocated ones,
  the bytes read are those of the source, and the message is
  whole blocks within the limits.
-/
structure EmulatedSafe
    (env : Env) (w : World) (spi : SpiDevice)
    (bitsPerWord : Nat) (buf : Ptr)
    (len maxChunk : Nat) : Prop where
  writes : ∀ p ∈ emulatedPieces spi len maxChunk,
    ∀ i ∈ bufDcWrites p.size, i < bufDcSize spi len maxChunk
  reads : ∀ p ∈ emulatedPieces spi len maxChunk,
    ∀ i ∈ srcReads bitsPerWord p.size, p.offset + i < len
  messages : ∀ p ∈ emulatedPieces spi len maxChunk,
    ∀ limit ∈ [mipiDbiSpiClampSize spi maxChunk,
        spi.master.maxDmaLen, bufDcSize spi len maxChunk],
      WholeBlocks limit
        (emulatedMessage env w bitsPerWord buf p.offset
          p.size).first.len

end Utinydrm

------------------------------------------------------------
-- One Chunk
------------------------------------------------------------

namespace Utinydrm

variable {bitsPerWord chunk : Nat}

/- The bytes written are consecutive. -/
theorem blockWrites_eq_range (added : Nat) :
    ((List.range added).flatMap fun k =>
      (List.range 8).map (9 * k + ·) ++ [9 * k + 8]) =
      List.range (9 * added) := by
  induction added with
  | zero => rfl
  | succ added ih =>
      have hLast : List.range (added + 1) =
          List.range added ++ [added] := List.range_succ
      rw [hLast, List.flatMap_append, ih, List.flatMap_singleton,
        Nat.mul_succ, List.range_add]
      rfl

/- They are the bytes the chunk is packed to. -/
theorem bufDcWrites_eq_range
    (bitsPerWord : Nat) (src : Nat → UInt8) (chunk : Nat) :
    bufDcWrites chunk =
      List.range
        (packChunk bitsPerWord src chunk).1.length := by
  unfold bufDcWrites
  split
  case isTrue hTail =>
    rw [packChunk, if_pos hTail]
    dsimp only
    split <;> simp [tailBlock8, tailBlock16, storeBe64]
    all_goals rfl
  case isFalse hLong =>
    rw [packChunk_of_le _ _ (by omega), length_blocks,
      blockWrites_eq_range]

theorem fullBlock_congr
    (bitsPerWord : Nat) {src src' : Nat → UInt8}
    (hSame : ∀ i < 8, src i = src' i) :
    fullBlock bitsPerWord src = fullBlock bitsPerWord src' := by
  unfold fullBlock fullBlock8 fullBlock16
  simp only [hSame 0 (by decide), hSame 1 (by decide),
    hSame 2 (by decide), hSame 3 (by decide),
    hSame 4 (by decide), hSame 5 (by decide),
    hSame 6 (by decide), hSame 7 (by decide)]

/- Only the bytes read decide what a tail is packed to. -/
theorem tailBlock16_congr
    {src src' : Nat → UInt8}
    (hSame : ∀ k ∈ List.range ((chunk / 2 + 1) / 2),
      src (2 * k) = src' (2 * k) ∧
        src (2 * k + 1) = src' (2 * k + 1)) :
    tailBlock16 src chunk = tailBlock16 src' chunk := by
  unfold tailBlock16
  dsimp only
  congr 2
  apply List.foldl_ext
  intro tmp k hk
  rw [(hSame k hk).1, (hSame k hk).2]

theorem tailBlock8_congr
    {src src' : Nat → UInt8}
    (hSame : ∀ j ∈ List.range chunk, src j = src' j) :
    tailBlock8 src chunk = tailBlock8 src' chunk := by
  unfold tailBlock8
  dsimp only
  congr 2
  apply List.foldl_ext
  intro tmp j hj
  rw [hSame j hj]

/- Only the bytes read decide what a chunk is packed to. -/
theorem packChunk_congr
    {src src' : Nat → UInt8}
    (hSame : ∀ i ∈ srcReads bitsPerWord chunk,
      src i = src' i) :
    packChunk bitsPerWord src chunk =
      packChunk bitsPerWord src' chunk := by
  unfold srcReads at hSame
  by_cases hTail : chunk < 8
  · rw [if_pos hTail] at hSame
    rw [packChunk, packChunk, if_pos hTail, if_pos hTail]
    split at hSame
    case isTrue hEight =>
      rw [if_pos hEight, if_pos hEight, tailBlock8_congr hSame]
    case isFalse hEight =>
      have hPairs : ∀ k ∈ List.range ((chunk / 2 + 1) / 2),
          src (2 * k) = src' (2 * k) ∧
            src (2 * k + 1) = src' (2 * k + 1) := by
        intro k hk
        constructor
        · exact hSame _ (List.mem_flatMap.mpr ⟨k, hk, by simp⟩)
        · exact hSame _ (List.mem_flatMap.mpr ⟨k, hk, by simp⟩)
      rw [if_neg hEight, if_neg hEight, tailBlock16_congr hPairs]
  · rw [if_neg hTail] at hSame
    have hBlocks : ∀ k ∈ List.range ((chunk + 7) / 8),
        (fullBlock bitsPerWord fun i => src (8 * k + i)) =
          fullBlock bitsPerWord fun i => src' (8 * k + i) := by
      intro k hk
      apply fullBlock_congr
      intro i hi
      apply hSame
      exact List.mem_flatMap.mpr ⟨k, hk, List.mem_map.mpr
        ⟨i, List.mem_range.mpr hi, rfl⟩⟩
    rw [packChunk_of_le _ _ (by omega),
      packChunk_of_le _ _ (by omega),
      List.flatMap_congr hBlocks]

theorem packChunk_len
    (bitsPerWord : Nat) (src : Nat → UInt8) (chunk : Nat) :
    (packChunk bitsPerWord src chunk).2 =
      if chunk < 8 then 9 else chunk + (chunk + 7) / 8 := by
  unfold packChunk
  split <;> rfl

/- What is written is the blocks a chunk is taken for. -/
theorem lt_of_mem_bufDcWrites
    {i : Nat} (hMem : i ∈ bufDcWrites chunk) :
    i < 9 * max 1 ((chunk + 7) / 8) := by
  unfold bufDcWrites at hMem
  split at hMem
  case isTrue hTail =>
    simp only [List.mem_append, List.mem_range,
      List.mem_singleton] at hMem
    omega
  case isFalse hLong =>
    rw [blockWrites_eq_range, List.mem_range] at hMem
    omega

/- A chunk that is whole blocks, or less than one. -/
def Blockwise (chunk : Nat) : Prop :=
  chunk < 8 ∨ chunk % 8 = 0

/- It reads no further than its end. -/
theorem srcReads_lt
    (hChunk : Blockwise chunk)
    {i : Nat} (hMem : i ∈ srcReads bitsPerWord chunk) :
    i < chunk := by
  unfold Blockwise at hChunk
  unfold srcReads at hMem
  split at hMem
  case isTrue hTail =>
    split at hMem
    · exact List.mem_range.mp hMem
    · rcases List.mem_flatMap.mp hMem with ⟨k, hk, hi⟩
      have hLess := List.mem_range.mp hk
      simp only [List.mem_cons, List.not_mem_nil,
        or_false] at hi
      omega
  case isFalse hLong =>
    rcases List.mem_flatMap.mp hMem with ⟨k, hk, hi⟩
    rcases List.mem_map.mp hi with ⟨j, hj, rfl⟩
    have hBlock := List.mem_range.mp hk
    have hByte := List.mem_range.mp hj
    omega

/- Any other reads a byte behind its end. -/
theorem exists_srcReads_behind
    (hChunk : ¬ Blockwise chunk) :
    ∃ i ∈ srcReads bitsPerWord chunk, chunk ≤ i := by
  unfold Blockwise at hChunk
  refine ⟨8 * ((chunk + 7) / 8 - 1) + 7, ?_, by omega⟩
  rw [srcReads, if_neg (by omega)]
  exact List.mem_flatMap.mpr ⟨(chunk + 7) / 8 - 1,
    List.mem_range.mpr (by omega), List.mem_map.mpr
      ⟨7, by decide, rfl⟩⟩

end Utinydrm

------------------------------------------------------------
-- Limits
------------------------------------------------------------

namespace Utinydrm

variable {env : Env}

section Limits

variable (spi : SpiDevice) (len maxChunk : Nat)

/- The blocks of a full chunk are within every limit. -/
theorem bufDcSize_le
    (hRoom : 9 ≤ mipiDbiSpiClampSize spi maxChunk) :
    bufDcSize spi len maxChunk ≤
        mipiDbiSpiClampSize spi maxChunk ∧
      bufDcSize spi len maxChunk ≤ spi.master.maxDmaLen := by
  have hClamp : mipiDbiSpiClampSize spi maxChunk ≤
      spi.master.maxDmaLen := by
    unfold mipiDbiSpiClampSize
    dsimp only
    omega
  have hSize : bufDcSize spi len maxChunk ≤
      mipiDbiSpiClampSize spi maxChunk := by
    unfold bufDcSize emulatedMaxSrcChunk maxSrcChunk
    omega
  exact ⟨hSize, hSize.trans hClamp⟩

theorem emulatedMaxSrcChunk_blocks :
    8 ≤ emulatedMaxSrcChunk spi len maxChunk ∧
      emulatedMaxSrcChunk spi len maxChunk % 8 = 0 :=
  maxSrcChunk_blocks _ _

theorem emulatedMaxSrcChunk_pos :
    0 < emulatedMaxSrcChunk spi len maxChunk :=
  Nat.lt_of_lt_of_le (by decide)
    (emulatedMaxSrcChunk_blocks spi len maxChunk).1

/- Every iteration but the last takes whole blocks. -/
theorem blockwise_pieces
    (hTail : Blockwise
      (len % emulatedMaxSrcChunk spi len maxChunk)) :
    ∀ p ∈ emulatedPieces spi len maxChunk,
      Blockwise p.size := by
  have hBlocks := emulatedMaxSrcChunk_blocks spi len maxChunk
  rcases Chunking.pieces_split
      (emulatedMaxSrcChunk_pos spi len maxChunk) len with
    ⟨full, hPieces, _, hFull⟩
  intro p hp
  rw [emulatedPieces, hPieces, Chunking.tailPiece] at hp
  rcases List.mem_append.mp hp with hMem | hMem
  · rw [hFull p hMem]
    exact Or.inr hBlocks.2
  · split at hMem
    case isTrue => simp at hMem
    case isFalse =>
      rw [List.mem_singleton.mp hMem]
      exact hTail

/- What is left behind them is an iteration of its own. -/
theorem tailPiece_mem
    (hTail : ¬ Blockwise
      (len % emulatedMaxSrcChunk spi len maxChunk)) :
    ⟨len / emulatedMaxSrcChunk spi len maxChunk *
        emulatedMaxSrcChunk spi len maxChunk,
      len % emulatedMaxSrcChunk spi len maxChunk⟩ ∈
      emulatedPieces spi len maxChunk := by
  rcases Chunking.pieces_split
      (emulatedMaxSrcChunk_pos spi len maxChunk) len with
    ⟨full, hPieces, _, _⟩
  have hSome : len % emulatedMaxSrcChunk spi len maxChunk ≠ 0 :=
    fun hNone => hTail (Or.inr (by rw [hNone]))
  rw [emulatedPieces, hPieces, Chunking.tailPiece, if_neg hSome]
  apply List.mem_append_right
  simp

/- The blocks of an iteration fit the allocation. -/
theorem blocks_le_bufDcSize
    {p : Chunking.Piece}
    (hp : p ∈ emulatedPieces spi len maxChunk) :
    9 * ((p.size + 7) / 8) ≤ bufDcSize spi len maxChunk ∧
      9 ≤ bufDcSize spi len maxChunk := by
  have hBlocks := emulatedMaxSrcChunk_blocks spi len maxChunk
  have hFits := Chunking.size_le_of_mem_pieces
    (emulatedMaxSrcChunk_pos spi len maxChunk) hp
  unfold bufDcSize
  omega

/- Its message is whole blocks when it takes whole blocks. -/
theorem wholeBlocks_emulatedMessage
    (env : Env) (w : World) (bitsPerWord : Nat) (buf : Ptr)
    {p : Chunking.Piece}
    (hp : p ∈ emulatedPieces spi len maxChunk)
    (hChunk : Blockwise p.size)
    {limit : Nat} (hLe : bufDcSize spi len maxChunk ≤ limit) :
    WholeBlocks limit
      (emulatedMessage env w bitsPerWord buf p.offset
        p.size).first.len := by
  have hRoom := blocks_le_bufDcSize spi len maxChunk hp
  have hPos := Chunking.size_pos_of_mem_pieces
    (emulatedMaxSrcChunk_pos spi len maxChunk) hp
  unfold Blockwise at hChunk
  simp only [emulatedMessage, packChunk_len]
  split <;> constructor <;> omega

end Limits

/-
  The accesses and the messages are as they should be if and
  only if the last chunk is whole blocks or less than one.
-/
theorem emulatedSafe_iff
    (env : Env) (w : World) (spi : SpiDevice)
    (bitsPerWord : Nat) (buf : Ptr) (len maxChunk : Nat)
    (hRoom : 9 ≤ mipiDbiSpiClampSize spi maxChunk) :
    EmulatedSafe env w spi bitsPerWord buf len maxChunk ↔
      Blockwise (len % emulatedMaxSrcChunk spi len maxChunk)
        := by
  have hMax := emulatedMaxSrcChunk_pos spi len maxChunk
  have hLimits := bufDcSize_le spi len maxChunk hRoom
  constructor
  · intro hSafe
    by_contra hNot
    rcases exists_srcReads_behind hNot with ⟨i, hMem, hBehind⟩
    have hRead := hSafe.reads _
      (tailPiece_mem spi len maxChunk hNot) i hMem
    have hEnd := Nat.div_add_mod' len
      (emulatedMaxSrcChunk spi len maxChunk)
    dsimp only at hRead
    omega
  · intro hTail
    have hAll := blockwise_pieces spi len maxChunk hTail
    constructor
    case writes =>
      intro p hp i hMem
      have hRoomFor := blocks_le_bufDcSize spi len maxChunk hp
      have hLess := lt_of_mem_bufDcWrites hMem
      omega
    case reads =>
      intro p hp i hMem
      have hInside :=
        (Chunking.tiles_pieces hMax len).offset_bounds hp
      have hLess := srcReads_lt (hAll p hp) hMem
      omega
    case messages =>
      intro p hp limit hLimit
      apply wholeBlocks_emulatedMessage spi len maxChunk env w
        bitsPerWord buf hp (hAll p hp)
      simp only [List.mem_cons, List.not_mem_nil,
        or_false] at hLimit
      rcases hLimit with rfl | rfl | rfl
      · exact hLimits.1
      · exact hLimits.2
      · exact le_refl _

/-
  The limit of the controller, in whole blocks, decides what
  is left. A length below it leaves less than a block.
-/
theorem blockwise_tail_iff
    (spi : SpiDevice) (len maxChunk : Nat)
    (hRoom : 9 ≤ mipiDbiSpiClampSize spi maxChunk) :
    Blockwise (len % emulatedMaxSrcChunk spi len maxChunk) ↔
      len % 8 = 0 ∨
        len < mipiDbiSpiClampSize spi maxChunk / 9 * 8 ∨
        len % (mipiDbiSpiClampSize spi maxChunk / 9 * 8) < 8
        := by
  unfold emulatedMaxSrcChunk maxSrcChunk
  generalize hLimit :
    mipiDbiSpiClampSize spi maxChunk / 9 * 8 = limit
  have hBlocks : 8 ≤ limit ∧ limit % 8 = 0 := by omega
  by_cases hShort : len < limit
  · apply iff_of_true _ (Or.inr (Or.inl hShort))
    rw [Nat.min_eq_right hShort.le]
    left
    by_cases hTail : len < 8
    · rw [Nat.max_eq_left (by omega)]
      omega
    · rw [Nat.max_eq_right (by omega),
        Nat.mod_eq_sub_mod (Nat.div_mul_le_self len 8)]
      have hRest := Nat.mod_le (len - len / 8 * 8) (len / 8 * 8)
      omega
  · have hMax : max 8 (min limit len / 8 * 8) = limit := by
      omega
    have hMod : len % limit % 8 = len % 8 :=
      Nat.mod_mod_of_dvd len (Nat.dvd_of_mod_eq_zero hBlocks.2)
    rw [hMax, Blockwise, hMod]
    omega

/-
  A transfer that is not refused packs its iterations one
  after the other. All it writes is allocated, all it reads
  is source, and its messages are whole blocks within the
  limits, if and only if the length is whole blocks, or
  leaves less than a block behind chunks as long as the
  controller allows.
-/
theorem emulated_accesses_iff
    (spi : SpiDevice) (bitsPerWord : Nat)
    (buf : Ptr) (len maxChunk : Nat)
    (hRoom : 9 ≤ mipiDbiSpiClampSize spi maxChunk) :
    (∀ (env : Env) (w : World), env.kmalloc w.now = true →
      mipiDbiSpi1eTransfer env spi bitsPerWord true buf len
          maxChunk w =
        Chunking.runPieces
          (fun offset chunk => spiSync env spi
            (emulatedMessage env w bitsPerWord buf offset
              chunk))
          (emulatedPieces spi len maxChunk)
          (w.record (.kmalloc true))) ∧
    (∀ (src : Nat → UInt8) (chunk : Nat),
      bufDcWrites chunk =
        List.range (packChunk bitsPerWord src chunk).1.length) ∧
    (∀ (src src' : Nat → UInt8) (chunk : Nat),
      (∀ i ∈ srcReads bitsPerWord chunk, src i = src' i) →
      packChunk bitsPerWord src chunk =
        packChunk bitsPerWord src' chunk) ∧
    ((∀ (env : Env) (w : World),
        EmulatedSafe env w spi bitsPerWord buf len maxChunk) ↔
      len % 8 = 0 ∨
        len < mipiDbiSpiClampSize spi maxChunk / 9 * 8 ∨
        len % (mipiDbiSpiClampSize spi maxChunk / 9 * 8) < 8)
      := by
  refine ⟨?_, ?_, ?_, ?_⟩
  · intro env w hGranted
    exact mipiDbiSpi1eTransfer_walk spi bitsPerWord buf len
      maxChunk hRoom hGranted
  · exact bufDcWrites_eq_range bitsPerWord
  · intro src src' chunk hSame
    exact packChunk_congr hSame
  · rw [← blockwise_tail_iff spi len maxChunk hRoom]
    constructor
    · intro hSafe
      exact (emulatedSafe_iff Env.granting (World.atProbe (-1))
        spi bitsPerWord buf len maxChunk hRoom).mp
          (hSafe Env.granting (World.atProbe (-1)))
    · intro hTail env w
      exact (emulatedSafe_iff env w spi bitsPerWord buf len
        maxChunk hRoom).mpr hTail

/- Of 26 bytes two are left behind three blocks. -/
theorem emulated_accesses_short :
    EmulatedSafe Env.granting (World.atProbe (-1)) eightBitSpi 8
      (.heap fun _ => 0) 26 4096 :=
  (emulated_accesses_iff eightBitSpi 8 (.heap fun _ => 0) 26
    4096 (by decide)).2.2.2.mpr (Or.inr (Or.inl (by decide)))
      Env.granting (World.atProbe (-1))

/-
  Of 28 bytes, behind a chunk of 16, a block and a half are
  left. The second half is read past the end.
-/
theorem emulated_accesses_behind :
    ¬ ∀ (env : Env) (w : World) (spi : SpiDevice)
      (bitsPerWord : Nat) (buf : Ptr) (len maxChunk : Nat),
      9 ≤ mipiDbiSpiClampSize spi maxChunk →
      EmulatedSafe env w spi bitsPerWord buf len maxChunk := by
  intro hClaim
  have hSafe := hClaim Env.granting (World.atProbe (-1))
    shortDmaSpi 8 (.heap fun _ => 0) 28 4096 (by decide)
  have hRead := hSafe.reads ⟨16, 12⟩ (by decide) 15 (by decide)
  exact absurd hRead (by decide)

end Utinydrm
