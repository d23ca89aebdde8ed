import Utinydrm.MipiDbi.NativeWords

/-
  The memory a transfer of native 9-bit words touches: the
  entries of `dst16` it writes, and the bytes of the source
  it reads.

  The array has one entry for every byte of a chunk. For
  16-bit data the inner loop takes the length of the chunk
  for a number of words, so that it writes two entries and
  reads two bytes for every byte of the chunk.

  Key definitions include:
    * `Dst16Write`
    * `dst16Writes`
    * `AccessesInBounds`

  Main declarations:
    * `mipiDbiSpi1Transfer_native`
    * `native_accesses_iff`
-/

------------------------------------------------------------
-- Accesses
------------------------------------------------------------

namespace Utinydrm

/-
  One assignment to an entry of `dst16`, with the D/C bit
  that is added to it: the index, the offsets of the source
  bytes the right-hand side reads, and the value.
-/
structure Dst16Write where
  index : Nat
  reads : List Nat
  word : UInt16
deriving DecidableEq, Repr

/-
  The assignments of the inner loop for one chunk. `src8` is
  then `offset` bytes and `src16` is `offset` words into the
  source.
-/
def dst16Writes
    (w : World) (bitsPerWord : Nat) (dc : Bool)
    (buf : Ptr) (offset chunk : Nat) : List Dst16Write :=
  if bitsPerWord = 8 then
    -- `for (i = 0; i < chunk; i++)`
    (List.range chunk).map fun i =>
      { index := i
        reads := [offset + i]
        word := dcWord16 dc (w.byte buf (offset + i)) }
  else
    -- `for (i = 0; i < (chunk * 2); i += 2)`
    (List.range chunk).flatMap fun k =>
      let src16 := w.loadU16 buf (offset + k)
      let reads := [2 * (offset + k), 2 * (offset + k) + 1]
      [{ index := 2 * k
         reads := reads
         word := dcWord16 dc (src16 >>> 8).toUInt8 },
        { index := 2 * k + 1
          reads := reads
          word := dcWord16 dc (src16 &&& 0xFF).toUInt8 }]

/- `max_src_chunk`, the entries `dst16` is allocated with. -/
def nativeMaxSrcChunk
    (spi : SpiDevice) (len maxChunk : Nat) : Nat :=
  min (mipiDbiSpiClampSize spi maxChunk / 2) len

/- The iterations of the chunk loop. -/
def nativePieces
    (spi : SpiDevice) (len maxChunk : Nat) :
    List Chunking.Piece :=
  Chunking.pieces (nativeMaxSrcChunk spi len maxChunk) len

/- The message of an iteration. -/
def nativeMessage
    (env : Env) (w : World) (bitsPerWord : Nat) (dc : Bool)
    (buf : Ptr) (offset chunk : Nat) : SpiMessage where
  first :=
    { txBuf := some
        (.ofBytes
          (leBytes16
            ((dst16Writes w bitsPerWord dc buf offset
              chunk).map Dst16Write.word))
          (env.garbage w.now))
      len := chunk
      bitsPerWord := 9 }

/-
  Every entry written is one of the allocated ones, and every
  byte read is one of the source.
-/
def AccessesInBounds
    (w : World) (spi : SpiDevice)
    (bitsPerWord : Nat) (dc : Bool)
    (buf : Ptr) (len maxChunk : Nat) : Prop :=
  ∀ p ∈ nativePieces spi len maxChunk,
    ∀ write ∈ dst16Writes w bitsPerWord dc buf p.offset p.size,
      write.index < nativeMaxSrcChunk spi len maxChunk ∧
        ∀ r ∈ write.reads, r < len

end Utinydrm

------------------------------------------------------------
-- The Inner Loop
------------------------------------------------------------

namespace Utinydrm

variable {w : World} {bitsPerWord : Nat} {dc : Bool}
variable {buf : Ptr} {offset chunk : Nat}

/- The values assigned are the words of the message. -/
theorem map_word_dst16Writes :
    (dst16Writes w bitsPerWord dc buf offset chunk).map
        Dst16Write.word =
      dst16Words w bitsPerWord dc buf offset chunk := by
  unfold dst16Writes dst16Words
  split
  · rw [List.map_map]
    rfl
  · rw [List.map_flatMap]
    rfl

/- They are assigned to one entry after another. -/
theorem map_index_dst16Writes :
    (dst16Writes w bitsPerWord dc buf offset chunk).map
        Dst16Write.index =
      List.range
        (dst16Writes w bitsPerWord dc buf offset chunk).length :=
        by
  unfold dst16Writes
  split
  · simp [Function.comp_def]
  · induction chunk with
    | zero => rfl
    | succ chunk ih =>
        rw [List.range_succ, List.flatMap_append,
          List.map_append, ih, List.length_append]
        simp [List.length_flatMap, List.range_succ,
          Nat.mul_comm]

/- 8-bit data: an entry and a byte for each byte. -/
theorem mem_dst16Writes_eight
    {write : Dst16Write}
    (hMem : write ∈ dst16Writes w 8 dc buf offset chunk) :
    write.index < chunk ∧
      ∀ r ∈ write.reads, r < offset + chunk := by
  simp only [dst16Writes, if_true, List.mem_map,
    List.mem_range] at hMem
  rcases hMem with ⟨i, hi, rfl⟩
  refine ⟨hi, ?_⟩
  intro r hr
  rw [List.mem_singleton.mp hr]
  omega

/- Other data: the last entry written for a chunk. -/
theorem exists_dst16Writes_last
    (w : World) (dc : Bool) (buf : Ptr) (offset : Nat)
    (hWidth : bitsPerWord ≠ 8) (hChunk : 0 < chunk) :
    ∃ write ∈ dst16Writes w bitsPerWord dc buf offset chunk,
      write.index = 2 * chunk - 1 := by
  rw [dst16Writes, if_neg hWidth]
  refine ⟨_, List.mem_flatMap.mpr ⟨chunk - 1,
    List.mem_range.mpr (by omega),
    List.mem_cons_of_mem _ List.mem_cons_self⟩, ?_⟩
  dsimp only
  omega

end Utinydrm

------------------------------------------------------------
-- The Chunk Loop
------------------------------------------------------------

namespace Utinydrm

variable {env : Env}

/- The transfer is a walk over its iterations. -/
theorem mipiDbiSpi1Transfer_native
    (spi : SpiDevice)
    (hNine : tinydrmSpiBpwSupported spi 9 = true)
    (hDma : 4 ≤ spi.master.maxDmaLen)
    {bitsPerWord len : Nat} (dc : Bool) (buf : Ptr)
    (hEven : bitsPerWord = 16 → len % 2 = 0)
    (maxChunk : Nat) {w : World}
    (hGranted : env.kmalloc w.now = true) :
    mipiDbiSpi1Transfer env spi bitsPerWord dc buf len
        maxChunk w =
      Chunking.runPieces
        (fun offset chunk => spiSync env spi
          (nativeMessage env w bitsPerWord dc buf offset chunk))
        (nativePieces spi len maxChunk)
        (w.record (.kmalloc true)) := by
  rw [mipiDbiSpi1Transfer_walk spi hNine hDma dc buf hEven
    maxChunk hGranted]
  simp only [nativeMessage, map_word_dst16Writes]
  rfl

/-
  The accesses are in bounds for 8-bit data, and for other
  data only when there is none.
-/
theorem accessesInBounds_iff
    (w : World) (spi : SpiDevice)
    (hDma : 4 ≤ spi.master.maxDmaLen)
    (bitsPerWord : Nat) (dc : Bool)
    (buf : Ptr) (len maxChunk : Nat) :
    AccessesInBounds w spi bitsPerWord dc buf len maxChunk ↔
      bitsPerWord = 8 ∨ len = 0 := by
  have hClamp := four_le_mipiDbiSpiClampSize spi maxChunk hDma
  constructor
  · intro hBounds
    by_contra hNot
    rw [not_or] at hNot
    rcases hNot with ⟨hWidth, hLen⟩
    have hPos : 0 < nativeMaxSrcChunk spi len maxChunk := by
      unfold nativeMaxSrcChunk
      omega
    -- the first iteration writes past the allocation
    rcases Chunking.pieces_eq_cons
        (nativeMaxSrcChunk spi len maxChunk)
        (Nat.pos_of_ne_zero hLen) with ⟨rest, hPieces⟩
    have hChunk : min len (nativeMaxSrcChunk spi len maxChunk) =
        nativeMaxSrcChunk spi len maxChunk := by
      unfold nativeMaxSrcChunk
      omega
    rw [hChunk] at hPieces
    rcases exists_dst16Writes_last w dc buf 0 hWidth hPos with
      ⟨write, hMem, hIndex⟩
    have hFirst := hBounds _
      (by rw [nativePieces, hPieces]; exact List.mem_cons_self)
      write hMem
    omega
  · intro hEither p hp write hMem
    have hLen : len ≠ 0 := by
      rintro rfl
      simp [nativePieces, Chunking.pieces_zero] at hp
    have hWidth : bitsPerWord = 8 := by
      rcases hEither with hEight | hZero
      · exact hEight
      · exact absurd hZero hLen
    subst hWidth
    have hMax : 0 < nativeMaxSrcChunk spi len maxChunk := by
      unfold nativeMaxSrcChunk
      omega
    have hSize := Chunking.size_le_of_mem_pieces hMax hp
    have hInside :=
      (Chunking.tiles_pieces hMax len).offset_bounds hp
    rcases mem_dst16Writes_eight hMem with ⟨hIndex, hReads⟩
    refine ⟨by omega, ?_⟩
    intro r hr
    have hRead := hReads r hr
    omega

/-
  On a controller with 9-bit words the transfer walks over
  its iterations, each of which assigns the entries of its
  message one after another. All the accesses are in bounds
  if and only if the data has 8 bits or there is none.
-/
theorem native_accesses_iff
    (env : Env) (spi : SpiDevice)
    (hNine : tinydrmSpiBpwSupported spi 9 = true)
    (hDma : 4 ≤ spi.master.maxDmaLen)
    (bitsPerWord len : Nat) (dc : Bool) (buf : Ptr)
    (hEven : bitsPerWord = 16 → len % 2 = 0)
    (maxChunk : Nat) (w : World)
    (hGranted : env.kmalloc w.now = true) :
    mipiDbiSpi1Transfer env spi bitsPerWord dc buf len
        maxChunk w =
      Chunking.runPieces
        (fun offset chunk => spiSync env spi
          (nativeMessage env w bitsPerWord dc buf offset chunk))
        (nativePieces spi len maxChunk)
        (w.record (.kmalloc true)) ∧
    (∀ offset chunk,
      (dst16Writes w bitsPerWord dc buf offset chunk).map
          Dst16Write.index =
        List.range (dst16Writes w bitsPerWord dc buf offset
          chunk).length) ∧
    (AccessesInBounds w spi bitsPerWord dc buf len maxChunk ↔
      bitsPerWord = 8 ∨ len = 0) :=
  ⟨mipiDbiSpi1Transfer_native spi hNine hDma dc buf hEven
      maxChunk hGranted,
    fun _ _ => map_index_dst16Writes,
    accessesInBounds_iff w spi hDma bitsPerWord dc buf len
      maxChunk⟩

/- The parameters of a command. -/
theorem native_accesses_parameters :
    AccessesInBounds (World.atProbe (-1)) nineBitSpi 8 true
      (.heap fun _ => 0) 4 4096 :=
  (native_accesses_iff Env.granting nineBitSpi (by decide)
    (by decide) 8 4 true (.heap fun _ => 0) (by decide) 4096
    (World.atProbe (-1)) rfl).2.2.mpr (Or.inl rfl)

/- One pixel: four entries are written, two are allocated. -/
theorem native_accesses_pixel :
    ¬ AccessesInBounds (World.atProbe (-1)) nineBitSpi 16 true
      (.heap fun _ => 0) 2 4096 := by
  rw [accessesInBounds_iff _ nineBitSpi (by decide)]
  decide

end Utinydrm
