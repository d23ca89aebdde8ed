import Utinydrm.MipiDbi.Option1
import Utinydrm.Spi.Pixels

/-
  The bits of the blocks `mipi_dbi_spi1e_transfer` packs.

  The words of eight bytes fill nine bytes. A last block of
  fewer bytes is padded with zeros, which are NOP words.

  Key definitions include:
    * `dcWord` and `nopWord`
    * `packedU9`
    * `packedBytes`

  Main declarations:
    * `bits_packedU9`
    * `ofBytes_fullBlock8`, `ofBytes_tailBlock8`
    * `ofBytes_packedBytes_whole`
-/

------------------------------------------------------------
-- Words Of Nine Bits
------------------------------------------------------------

namespace Utinydrm

/- A byte with its D/C bit in front. -/
def dcWord (dc : Bool) (b : UInt8) : List Bool :=
  dc :: BitStream.bits 8 b.toNat

/- `MIPI_DCS_NOP`. -/
def nopWord : List Bool := List.replicate 9 false

@[simp] theorem length_dcWord (dc : Bool) (b : UInt8) :
    (dcWord dc b).length = 9 := by
  simp [dcWord]

/- The number of the word of a data byte. -/
theorem bits_dcWord (b : UInt8) :
    BitStream.bits 9 (256 ||| b.toNat) = dcWord true b := by
  have hByte : b.toNat < 2 ^ 8 := b.toNat_lt
  have hSplit := BitStream.bits_append 1 1 hByte
  simpa [BitStream.bits, dcWord] using hSplit

end Utinydrm

------------------------------------------------------------
-- Words In A Number Of 64 Bits
------------------------------------------------------------

namespace Utinydrm

variable (src : Nat → UInt8)

/- The words of the first `n` bytes, shifted in in order. -/
def packedU9 (n : Nat) : Nat :=
  (List.range n).foldl
    (fun tmp j => shiftU9IntoU64 tmp (src j) j) 0

theorem packedU9_succ (n : Nat) :
    packedU9 src (n + 1) =
      shiftU9IntoU64 (packedU9 src n) (src n) n := by
  simp [packedU9, List.range_succ]

/- They are the joined words at the top of the number. -/
theorem packedU9_eq
    {n : Nat}
    (hFits : n ≤ 7) :
    packedU9 src n =
      BitStream.joined 9 (fun i => 256 ||| (src i).toNat) n <<<
        (64 - 9 * n) := by
  induction n with
  | zero => simp [packedU9, BitStream.joined]
  | succ n ih =>
      have hHigh : 64 - 9 * n = 9 + (64 - 9 * (n + 1)) := by
        omega
      have hBit : 63 - n * 9 = 8 + (64 - 9 * (n + 1)) := by
        omega
      have hLow : 63 - 8 - n * 9 = 64 - 9 * (n + 1) := by
        omega
      have hDc : (256 : Nat) = 1 <<< 8 := rfl
      rw [packedU9_succ, ih (by omega), shiftU9IntoU64, hHigh,
        hBit, hLow, BitStream.joined, Nat.shiftLeft_or_distrib,
        Nat.shiftLeft_or_distrib, hDc, ← Nat.shiftLeft_add,
        ← Nat.shiftLeft_add, Nat.or_assoc]

theorem bits_packedU9
    {n : Nat}
    (hFits : n ≤ 7) :
    BitStream.bits 64 (packedU9 src n) =
      ((List.range n).flatMap fun i => dcWord true (src i)) ++
        List.replicate (64 - 9 * n) false := by
  have hWord : ∀ i, 256 ||| (src i).toNat < 2 ^ 9 := by
    intro i
    exact Nat.or_lt_two_pow (by decide)
      ((src i).toNat_lt.trans (by decide))
  have hWidth : n * 9 + (64 - 9 * n) = 64 := by omega
  rw [packedU9_eq src hFits, ← hWidth,
    show n * 9 + (64 - 9 * n) - 9 * n = 64 - 9 * n by omega,
    BitStream.bits_shiftLeft, BitStream.bits_joined hWord]
  simp only [bits_dcWord]

/- Words may be shifted in in any order. -/
theorem shiftU9IntoU64_comm
    (dst : Nat) (a b : UInt8) (i j : Nat) :
    shiftU9IntoU64 (shiftU9IntoU64 dst a i) b j =
      shiftU9IntoU64 (shiftU9IntoU64 dst b j) a i := by
  unfold shiftU9IntoU64
  ac_rfl

end Utinydrm

------------------------------------------------------------
-- Blocks
------------------------------------------------------------

namespace Utinydrm

/- The words of the first `n` bytes. -/
def dataWords (src : Nat → UInt8) (n : Nat) : List Bool :=
  (List.range n).flatMap fun i => dcWord true (src i)

theorem dataWords_succ (src : Nat → UInt8) (n : Nat) :
    dataWords src (n + 1) =
      dataWords src n ++ dcWord true (src n) := by
  simp [dataWords, List.range_succ]

/- A block whose eighth word ends with the ninth byte. -/
theorem ofBytes_closedBlock (src : Nat → UInt8) :
    BitStream.ofBytes
        (storeBe64 (packedU9 src 7 ||| 1) ++ [src 7]) =
      dataWords src 8 := by
  have hWord : ∀ i, 256 ||| (src i).toNat < 2 ^ 9 := by
    intro i
    exact Nat.or_lt_two_pow (by decide)
      ((src i).toNat_lt.trans (by decide))
  have hBits : BitStream.bits 64 (packedU9 src 7 ||| 1) =
      dataWords src 7 ++ [true] := by
    have hOne : 1 < 2 ^ 1 := by decide
    rw [packedU9_eq src (le_refl 7),
      show (64 : Nat) = 7 * 9 + 1 by rfl,
      show 7 * 9 + 1 - 9 * 7 = 1 by rfl,
      BitStream.bits_append _ _ hOne,
      BitStream.bits_joined hWord]
    simp only [bits_dcWord]
    rfl
  rw [BitStream.ofBytes_append, storeBe64,
    BitStream.ofBytes_beBytes, hBits, dataWords_succ src 7]
  simp [dcWord]

theorem ofBytes_fullBlock8 (src : Nat → UInt8) :
    BitStream.ofBytes (fullBlock8 src) = dataWords src 8 := by
  rw [← ofBytes_closedBlock]
  simp [fullBlock8, packedU9, List.range_succ]

theorem ofBytes_fullBlock16 (src : Nat → UInt8) :
    BitStream.ofBytes (fullBlock16 src) =
      dataWords (swapPairs src) 8 := by
  rw [← ofBytes_closedBlock]
  -- the words of a pair are shifted in the other way round
  unfold fullBlock16
  dsimp only
  rw [shiftU9IntoU64_comm 0 (src 0) (src 1) 1 0,
    shiftU9IntoU64_comm _ (src 2) (src 3) 3 2,
    shiftU9IntoU64_comm _ (src 4) (src 5) 5 4]
  simp [packedU9, List.range_succ, swapPairs]

/- A block padded with NOP words at its end. -/
theorem ofBytes_paddedBlock
    (src : Nat → UInt8) {n : Nat} (hFits : n ≤ 7) :
    BitStream.ofBytes (storeBe64 (packedU9 src n) ++ [0]) =
      dataWords src n ++
        List.replicate (9 * (8 - n)) false := by
  have hZeros : 9 * (8 - n) = 64 - 9 * n + 8 := by omega
  rw [BitStream.ofBytes_append, storeBe64,
    BitStream.ofBytes_beBytes, bits_packedU9 src hFits, hZeros,
    List.replicate_add]
  simp [dataWords]

theorem ofBytes_tailBlock8
    (src : Nat → UInt8) {chunk : Nat} (hTail : chunk < 8) :
    BitStream.ofBytes (tailBlock8 src chunk) =
      dataWords src chunk ++
        List.replicate (9 * (8 - chunk)) false :=
  ofBytes_paddedBlock src (by omega)

/-
  The loop over a tail of 16-bit words takes every second of
  them.
-/
theorem ofBytes_tailBlock16
    (src : Nat → UInt8) {chunk n : Nat}
    (hTail : chunk < 8) (hTaken : n = (chunk / 2 + 1) / 2) :
    BitStream.ofBytes (tailBlock16 src chunk) =
      dataWords (swapPairs src) (2 * n) ++
        List.replicate (9 * (8 - 2 * n)) false := by
  have hPairs : ∀ k, (List.range k).foldl
      (fun tmp k =>
        shiftU9IntoU64
          (shiftU9IntoU64 tmp (src (2 * k)) (2 * k + 1))
          (src (2 * k + 1)) (2 * k)) 0 =
      packedU9 (swapPairs src) (2 * k) := by
    intro k
    induction k with
    | zero => rfl
    | succ k ih =>
        have hTwo : 2 * (k + 1) = 2 * k + 1 + 1 := by omega
        rw [List.range_succ, List.foldl_append, ih, hTwo,
          packedU9_succ, packedU9_succ, shiftU9IntoU64_comm]
        simp [swapPairs]
  rw [← ofBytes_paddedBlock _ (by omega), tailBlock16,
    ← hTaken]
  simp only [hPairs]

end Utinydrm

------------------------------------------------------------
-- Chunks
------------------------------------------------------------

namespace Utinydrm

/- The bytes in the order of their words. -/
def wordOrder
    (bitsPerWord : Nat) (src : Nat → UInt8) : Nat → UInt8 :=
  if bitsPerWord = 8 then src else swapPairs src

/- The bytes of the message for a chunk. -/
def packedBytes
    (bitsPerWord : Nat) (src : Nat → UInt8) (chunk : Nat) :
    List UInt8 :=
  (packChunk bitsPerWord src chunk).1.take
    (packChunk bitsPerWord src chunk).2

/- The source bytes whose words are in a padded block. -/
def tailTaken (bitsPerWord chunk : Nat) : Nat :=
  if bitsPerWord = 8 then chunk else 2 * ((chunk / 2 + 1) / 2)

variable (bitsPerWord : Nat) (src : Nat → UInt8)

/- A full block of either width. -/
def fullBlock : List UInt8 :=
  if bitsPerWord = 8 then fullBlock8 src else fullBlock16 src

theorem ofBytes_fullBlock :
    BitStream.ofBytes (fullBlock bitsPerWord src) =
      dataWords (wordOrder bitsPerWord src) 8 := by
  unfold fullBlock wordOrder
  split
  · exact ofBytes_fullBlock8 src
  · exact ofBytes_fullBlock16 src

theorem length_fullBlock :
    (fullBlock bitsPerWord src).length = 9 := by
  unfold fullBlock fullBlock8 fullBlock16 storeBe64
  split <;> simp

theorem wordOrder_add
    {offset : Nat} (hEven : offset % 2 = 0) (i : Nat) :
    wordOrder bitsPerWord (fun i => src (offset + i)) i =
      wordOrder bitsPerWord src (offset + i) := by
  unfold wordOrder
  split
  · rfl
  · exact swapPairs_add src hEven i

/- The words of two stretches, one after the other. -/
theorem dataWords_add (m n : Nat) :
    dataWords src (m + n) =
      dataWords src m ++ dataWords (fun i => src (m + i)) n := by
  simp [dataWords, List.range_add, List.flatMap_map]

/- The blocks of a chunk hold the words of all its bytes. -/
theorem ofBytes_blocks (added : Nat) :
    BitStream.ofBytes
        ((List.range added).flatMap fun k =>
          fullBlock bitsPerWord fun i => src (8 * k + i)) =
      dataWords (wordOrder bitsPerWord src) (8 * added) := by
  induction added with
  | zero => rfl
  | succ added ih =>
      rw [List.range_succ, List.flatMap_append,
        BitStream.ofBytes_append, ih, List.flatMap_singleton,
        ofBytes_fullBlock, Nat.mul_succ, dataWords_add]
      congr 2
      funext i
      exact wordOrder_add bitsPerWord src (by omega) i

theorem length_blocks (added : Nat) :
    ((List.range added).flatMap fun k =>
      fullBlock bitsPerWord fun i => src (8 * k + i)).length =
      9 * added := by
  induction added with
  | zero => rfl
  | succ added ih =>
      rw [List.range_succ, List.flatMap_append,
        List.length_append, ih, List.flatMap_singleton,
        length_fullBlock, Nat.mul_succ]

theorem packChunk_of_le
    {chunk : Nat} (hLong : 8 ≤ chunk) :
    packChunk bitsPerWord src chunk =
      ((List.range ((chunk + 7) / 8)).flatMap fun k =>
          fullBlock bitsPerWord fun i => src (8 * k + i),
        chunk + (chunk + 7) / 8) := by
  rw [packChunk, if_neg (by omega)]
  rfl

/- A chunk of whole blocks is sent as the words of its bytes. -/
theorem ofBytes_packedBytes_whole
    {chunk : Nat}
    (hLong : 8 ≤ chunk) (hWhole : chunk % 8 = 0) :
    BitStream.ofBytes (packedBytes bitsPerWord src chunk) =
      dataWords (wordOrder bitsPerWord src) chunk := by
  have hBlocks : 8 * ((chunk + 7) / 8) = chunk := by omega
  have hLength := length_blocks bitsPerWord src
    ((chunk + 7) / 8)
  rw [packedBytes, packChunk_of_le _ _ hLong,
    List.take_of_length_le (by rw [hLength]; omega),
    ofBytes_blocks, hBlocks]

/- Any other chunk that long is cut off within a block. -/
theorem length_packedBytes
    {chunk : Nat} (hLong : 8 ≤ chunk) :
    (packedBytes bitsPerWord src chunk).length =
      chunk + (chunk + 7) / 8 := by
  have hLength := length_blocks bitsPerWord src
    ((chunk + 7) / 8)
  rw [packedBytes, packChunk_of_le _ _ hLong, List.length_take,
    hLength]
  omega

/- A chunk of less than a block is padded. -/
theorem ofBytes_packedBytes_tail
    {chunk : Nat} (hTail : chunk < 8) :
    BitStream.ofBytes (packedBytes bitsPerWord src chunk) =
      dataWords (wordOrder bitsPerWord src)
          (tailTaken bitsPerWord chunk) ++
        List.replicate
          (9 * (8 - tailTaken bitsPerWord chunk)) false := by
  unfold packedBytes packChunk wordOrder tailTaken
  rw [if_pos hTail]
  dsimp only
  split
  · rw [List.take_of_length_le (by
      simp [tailBlock8, storeBe64])]
    exact ofBytes_tailBlock8 src hTail
  · rw [List.take_of_length_le (by
      simp [tailBlock16, storeBe64])]
    exact ofBytes_tailBlock16 src hTail rfl

end Utinydrm
