import Utinydrm.MipiDbi.Packing
import Utinydrm.MipiDbi.Option3

/-
  What a controller without words of 9 bits clocks out.

  All chunks but the last are whole blocks. What follows them
  decides: a tail of less than a block is padded, which for
  16-bit data only takes every second pixel, and a longer
  tail that is no whole number of blocks is cut off within
  its last block.

  Key definitions include:
    * `WordsThenNops`
    * `TailFits`

  Main declarations:
    * `packed_words_iff`
    * `mipiDbiSpi1eTransfer_walk`
    * `emulated_pixels_iff`
    * `emulated_command_iff`
-/

------------------------------------------------------------
-- The Stream Of Words
------------------------------------------------------------

namespace Utinydrm

/-
  Cut into words of 9 bits, the bytes are the given words and
  less than eight NOP words after them.
-/
def WordsThenNops
    (sent : List UInt8) (words : List (List Bool)) : Prop :=
  ∃ k < 8, BitStream.cut 9 (BitStream.ofBytes sent) =
    words ++ List.replicate k nopWord

/- The same, said of the bits. -/
theorem wordsThenNops_iff
    {sent : List UInt8} {words : List (List Bool)}
    (hWords : ∀ word ∈ words, word.length = 9) :
    WordsThenNops sent words ↔
      ∃ k < 8, BitStream.ofBytes sent =
        words.flatten ++ List.replicate (9 * k) false := by
  have hAll : ∀ k,
      ∀ word ∈ words ++ List.replicate k nopWord,
        word.length = 9 := by
    intro k word hMem
    rcases List.mem_append.mp hMem with hWord | hNop
    · exact hWords word hWord
    · rw [List.eq_of_mem_replicate hNop]
      rfl
  have hFlat : ∀ k, (words ++ List.replicate k nopWord).flatten =
      words.flatten ++ List.replicate (9 * k) false := by
    intro k
    rw [List.flatten_append, nopWord,
      List.flatten_replicate_replicate, Nat.mul_comm]
  unfold WordsThenNops
  simp only [BitStream.cut_eq_iff (by decide) (hAll _), hFlat]

theorem length_dataWords (src : Nat → UInt8) (n : Nat) :
    (dataWords src n).length = 9 * n := by
  induction n with
  | zero => rfl
  | succ n ih =>
      rw [dataWords_succ, List.length_append, ih,
        length_dcWord]
      omega

/- The words of some bytes in a row are words of the stream. -/
theorem dataWords_eq_slice (src : Nat → UInt8) (n : Nat) :
    dataWords src n =
      (Chunking.slice (fun i => dcWord true (src i))
        ⟨0, n⟩).flatten := by
  simp [dataWords, Chunking.slice, List.flatMap_def]

end Utinydrm

------------------------------------------------------------
-- The Last Chunk
------------------------------------------------------------

namespace Utinydrm

/-
  What is left behind the full chunks is whole blocks, or
  less than a block that is taken as a whole.
-/
def TailFits (bitsPerWord tail : Nat) : Prop :=
  tail % 8 = 0 ∨
    (tail < 8 ∧ tailTaken bitsPerWord tail = tail)

variable (bitsPerWord : Nat) (src : Nat → UInt8)

/- A word of data is no NOP. -/
theorem padded_ne_dataWords
    {taken tail count : Nat} (rest : List Bool)
    (hLost : taken < tail) :
    dataWords src taken ++ List.replicate count false ≠
      dataWords src tail ++ rest := by
  intro hEq
  rcases Nat.exists_eq_add_of_lt hLost with ⟨n, hn⟩
  have hTail : tail = taken + (n + 1) := by omega
  rw [hTail, dataWords_add, List.append_assoc,
    List.append_cancel_left_eq, dataWords,
    List.range_succ_eq_map] at hEq
  cases count with
  | zero => simp [dcWord] at hEq
  | succ count => simp [List.replicate_succ, dcWord] at hEq

theorem tail_words_iff
    {tail : Nat} (hPos : 0 < tail) :
    (∃ k < 8, BitStream.ofBytes
        (packedBytes bitsPerWord src tail) =
      dataWords (wordOrder bitsPerWord src) tail ++
        List.replicate (9 * k) false) ↔
      TailFits bitsPerWord tail := by
  unfold TailFits
  by_cases hTail : tail < 8
  · -- one padded block
    have hTaken : tailTaken bitsPerWord tail ≤ tail := by
      unfold tailTaken
      split <;> omega
    rw [ofBytes_packedBytes_tail bitsPerWord src hTail]
    constructor
    · rintro ⟨k, _, hBits⟩
      refine Or.inr ⟨hTail, ?_⟩
      by_contra hLost
      exact padded_ne_dataWords _ _ (by omega) hBits
    · intro hFits
      have hAll : tailTaken bitsPerWord tail = tail := by omega
      exact ⟨8 - tail, by omega, by rw [hAll]⟩
  · by_cases hWhole : tail % 8 = 0
    · refine iff_of_true ⟨0, by decide, ?_⟩ (Or.inl hWhole)
      rw [ofBytes_packedBytes_whole _ _ (by omega) hWhole]
      simp
    · -- the length of the message is no whole number of words
      refine iff_of_false ?_ (by omega)
      rintro ⟨k, _, hBits⟩
      have hLength := congrArg List.length hBits
      rw [BitStream.length_ofBytes,
        length_packedBytes _ _ (by omega), List.length_append,
        length_dataWords, List.length_replicate] at hLength
      omega

end Utinydrm

------------------------------------------------------------
-- All Chunks
------------------------------------------------------------

namespace Utinydrm

variable (bitsPerWord : Nat) (src : Nat → UInt8)

/- What the messages for a buffer send. -/
def packedStream (max len : Nat) : List UInt8 :=
  (Chunking.pieces max len).flatMap fun p =>
    packedBytes bitsPerWord (fun i => src (p.offset + i)) p.size

/- Full chunks of whole blocks send the words of their bytes. -/
theorem ofBytes_full
    {max stop : Nat} {full : List Chunking.Piece}
    (hBlocks : 8 ≤ max ∧ max % 8 = 0)
    (hTiles : Chunking.Tiles 0 full stop)
    (hFull : ∀ p ∈ full, p.size = max ∧ p.offset % 2 = 0) :
    BitStream.ofBytes (full.flatMap fun p =>
        packedBytes bitsPerWord (fun i => src (p.offset + i))
          p.size) =
      dataWords (wordOrder bitsPerWord src) stop := by
  have hSlices := hTiles.flatMap_slice
    (fun i => dcWord true (wordOrder bitsPerWord src i))
  rw [Nat.sub_zero] at hSlices
  rw [dataWords_eq_slice, ← hSlices]
  clear hTiles hSlices
  induction full with
  | nil => rfl
  | cons p full ih =>
      rcases hFull p (by simp) with ⟨hSize, hEven⟩
      rw [List.flatMap_cons, BitStream.ofBytes_append,
        List.flatMap_cons, List.flatten_append,
        ih fun q hq => hFull q (by simp [hq]),
        ofBytes_packedBytes_whole _ _ (by omega) (by omega),
        dataWords]
      congr 1
      rw [Chunking.slice, ← List.flatMap_def]
      congr 1
      funext i
      rw [wordOrder_add bitsPerWord src hEven]

/-
  The messages for a buffer send its words and a few NOP
  words if and only if its tail fits.
-/
theorem packed_words_iff
    {max : Nat} (hBlocks : 8 ≤ max ∧ max % 8 = 0)
    (len : Nat) :
    (∃ k < 8, BitStream.ofBytes
        (packedStream bitsPerWord src max len) =
      dataWords (wordOrder bitsPerWord src) len ++
        List.replicate (9 * k) false) ↔
      TailFits bitsPerWord (len % max) := by
  have hMax : 0 < max := by omega
  rcases Chunking.pieces_split hMax len with
    ⟨full, hPieces, hTiles, hSize⟩
  have hFull : ∀ p ∈ full,
      p.size = max ∧ p.offset % 2 = 0 := by
    intro p hp
    have hMem : p ∈ Chunking.pieces max len := by
      rw [hPieces]
      exact List.mem_append_left _ hp
    rcases Chunking.mem_pieces hMax hMem with ⟨k, hOffset, _⟩
    have hEven : max % 2 = 0 := by omega
    refine ⟨hSize p hp, ?_⟩
    rw [hOffset, Nat.mul_mod, hEven, Nat.mul_zero,
      Nat.zero_mod]
  have hWords := ofBytes_full bitsPerWord src hBlocks hTiles
    hFull
  have hLen : len = len / max * max + len % max := by
    rw [Nat.mul_comm]
    exact (Nat.div_add_mod len max).symm
  unfold packedStream
  rw [hPieces, List.flatMap_append, BitStream.ofBytes_append,
    hWords]
  unfold Chunking.tailPiece
  split
  case isTrue hNone =>
    refine iff_of_true ⟨0, by decide, ?_⟩ (Or.inl (by omega))
    have hAll : len / max * max = len := by omega
    simp [hAll]
  case isFalse hSome =>
    have hEven : len / max * max % 2 = 0 := by
      have hEvenMax : max % 2 = 0 := by omega
      rw [Nat.mul_mod, hEvenMax, Nat.mul_zero, Nat.zero_mod]
    have hTail : dataWords (wordOrder bitsPerWord src) len =
        dataWords (wordOrder bitsPerWord src)
            (len / max * max) ++
          dataWords
            (wordOrder bitsPerWord
              (fun i => src (len / max * max + i)))
            (len % max) := by
      conv_lhs => rw [hLen, dataWords_add]
      congr 2
      funext i
      exact (wordOrder_add bitsPerWord src hEven i).symm
    simp only [List.flatMap_singleton, Nat.zero_add, hTail,
      List.append_assoc, List.append_cancel_left_eq]
    exact tail_words_iff bitsPerWord _ (by omega)

end Utinydrm

------------------------------------------------------------
-- The Chunk Loop
------------------------------------------------------------

namespace Utinydrm

variable {env : Env}

/- All chunks but the last are whole blocks. -/
theorem maxSrcChunk_blocks (maxChunk len : Nat) :
    8 ≤ maxSrcChunk maxChunk len ∧
      maxSrcChunk maxChunk len % 8 = 0 := by
  unfold maxSrcChunk
  omega

/- `max_src_chunk`, from the limit of the controller. -/
def emulatedMaxSrcChunk
    (spi : SpiDevice) (len maxChunk : Nat) : Nat :=
  maxSrcChunk (mipiDbiSpiClampSize spi maxChunk) len

/- The iterations of the chunk loop. -/
def emulatedPieces
    (spi : SpiDevice) (len maxChunk : Nat) :
    List Chunking.Piece :=
  Chunking.pieces (emulatedMaxSrcChunk spi len maxChunk) len

/- The message of an iteration. -/
def emulatedMessage
    (env : Env) (w : World) (bitsPerWord : Nat)
    (buf : Ptr) (offset chunk : Nat) : SpiMessage :=
  let packed :=
    packChunk bitsPerWord (w.byte (buf.add offset)) chunk
  { first :=
      { txBuf := some (.ofBytes packed.1 (env.garbage w.now))
        len := packed.2
        bitsPerWord := 8 } }

/-
  With room for a block the transfer is a walk over its
  iterations.
-/
theorem mipiDbiSpi1eTransfer_walk
    (spi : SpiDevice) (bitsPerWord : Nat)
    (buf : Ptr) (len maxChunk : Nat)
    (hRoom : 9 ≤ mipiDbiSpiClampSize spi maxChunk)
    {w : World} (hGranted : env.kmalloc w.now = true) :
    mipiDbiSpi1eTransfer env spi bitsPerWord true buf len
        maxChunk w =
      Chunking.runPieces
        (fun offset chunk => spiSync env spi
          (emulatedMessage env w bitsPerWord buf offset chunk))
        (emulatedPieces spi len maxChunk)
        (w.record (.kmalloc true)) := by
  have hMax := maxSrcChunk_blocks
    (mipiDbiSpiClampSize spi maxChunk) len
  unfold mipiDbiSpi1eTransfer
  rw [Effect.bind_of_ok (Effect.get_apply w)]
  dsimp only
  rw [if_neg (by omega), if_neg (by decide), kmalloc_bind,
    hGranted, if_pos rfl,
    Chunking.chunkLoop_eq_runPieces _ (by omega)]
  rfl

end Utinydrm

------------------------------------------------------------
-- The Transfer
------------------------------------------------------------

namespace Utinydrm

variable {env : Env}

/- A message is no longer than what was written for it. -/
theorem packChunk_fits
    (bitsPerWord : Nat) (src : Nat → UInt8) (chunk : Nat) :
    (packChunk bitsPerWord src chunk).2 ≤
      (packChunk bitsPerWord src chunk).1.length := by
  by_cases hTail : chunk < 8
  · rw [packChunk, if_pos hTail]
    dsimp only
    split <;> simp [tailBlock8, tailBlock16, storeBe64]
  · rw [packChunk_of_le _ _ (by omega), length_blocks]
    omega

theorem World.clocked_kmalloc (w : World) (granted : Bool) :
    (w.record (.kmalloc granted)).clocked = w.clocked := by
  simp [World.clocked, World.wire, World.record, World.wireOf]

/- A message from the first bytes of a buffer filled before. -/
theorem clocked_ofBytes
    (hBus : ∀ n, env.spidev n = none)
    (spi : SpiDevice) (bytes : List UInt8)
    (rest : Nat → UInt8) {len : Nat}
    (hLen : len ≤ bytes.length)
    {w : World} (hTx : w.TxOk) :
    ∃ w', spiSync env spi
        { first :=
            { txBuf := some (.ofBytes bytes rest)
              len := len
              bitsPerWord := 8 } } w = .ok 0 w' ∧
      World.SameBus w w' ∧
      w'.clocked = w.clocked ++ bytes.take len := by
  refine ⟨_, spiSync_heap hBus spi rfl hTx,
    (World.SameBus.refl w).afterSpidev _, ?_⟩
  rw [World.clocked_afterSpidev hBus, w.mosi_iocOf spi rfl,
    w.bytes_ofBytes bytes rest hLen]

/- Data is clocked out as it was packed. -/
theorem mipiDbiSpi1eTransfer_data
    (hBus : ∀ n, env.spidev n = none)
    (spi : SpiDevice) (bitsPerWord : Nat)
    (buf : Ptr) (len maxChunk : Nat)
    {w : World}
    (hAlloc : env.kmalloc w.now = true)
    (hRoom : 9 ≤ mipiDbiSpiClampSize spi maxChunk)
    (hTx : w.TxOk) :
    ∃ w', mipiDbiSpi1eTransfer env spi bitsPerWord true buf len
        maxChunk w = .ok 0 w' ∧
      w'.clocked = w.clocked ++
        packedStream bitsPerWord (w.byte buf)
          (maxSrcChunk (mipiDbiSpiClampSize spi maxChunk) len)
          len := by
  rw [mipiDbiSpi1eTransfer_walk spi bitsPerWord buf len
    maxChunk hRoom hAlloc]
  have hSource : ∀ offset, w.byte (buf.add offset) =
      fun i => w.byte buf (offset + i) := by
    intro offset
    funext i
    exact World.byte_add w buf offset i
  rcases Chunking.runPieces_emits World.TxOk World.clocked
      (fun p => packedBytes bitsPerWord
        (fun i => w.byte buf (p.offset + i)) p.size)
      (fun offset chunk => spiSync env spi
        (emulatedMessage env w bitsPerWord buf offset chunk))
      (emulatedPieces spi len maxChunk)
      (by
        intro p _ s hs
        rcases clocked_ofBytes hBus spi _ (env.garbage w.now)
            (packChunk_fits bitsPerWord
              (w.byte (buf.add p.offset)) p.size) hs with
          ⟨s', hRun, hSame, hSent⟩
        refine ⟨s', hRun,
          by simpa [World.TxOk, hSame.txBuf] using hs, ?_⟩
        rw [hSent, packedBytes, hSource])
      (s := w.record (.kmalloc true)) hTx with
    ⟨w', hRun, _, hSent⟩
  rw [World.clocked_kmalloc] at hSent
  exact ⟨w', hRun, hSent⟩

end Utinydrm

------------------------------------------------------------
-- Pixels
------------------------------------------------------------

namespace Utinydrm

variable {env : Env}

/-
  The program succeeds, having clocked out the words and
  then less than eight NOP words.
-/
def ClocksWords
    (program : Driver Int) (w : World)
    (words : List (List Bool)) : Prop :=
  ∃ w' sent, program w = .ok 0 w' ∧
    w'.clocked = w.clocked ++ sent ∧
    WordsThenNops sent words

/- A program that clocks out the bytes given. -/
theorem clocksWords_iff
    {program : Driver Int} {w w' : World}
    {sent : List UInt8}
    (hRun : program w = .ok 0 w')
    (hSent : w'.clocked = w.clocked ++ sent)
    (words : List (List Bool)) :
    ClocksWords program w words ↔ WordsThenNops sent words := by
  constructor
  · rintro ⟨w₂, sent₂, hRun₂, hSent₂, hWords⟩
    cases hRun.symm.trans hRun₂
    rw [hSent, List.append_cancel_left_eq] at hSent₂
    rwa [hSent₂]
  · intro hWords
    exact ⟨w', sent, hRun, hSent, hWords⟩

/-
  Behind whole words, the messages for a buffer are its words
  and a few NOP words if and only if its tail fits.
-/
theorem packedStream_words_iff
    (bitsPerWord : Nat) (src : Nat → UInt8)
    {max : Nat} (hBlocks : 8 ≤ max ∧ max % 8 = 0)
    (len : Nat)
    (sent : List UInt8) (words : List (List Bool))
    (hSent : BitStream.ofBytes sent = words.flatten)
    (hWords : ∀ word ∈ words, word.length = 9) :
    WordsThenNops
        (sent ++ packedStream bitsPerWord src max len)
        (words ++
          (Chunking.slice (wordOrder bitsPerWord src)
            ⟨0, len⟩).map (dcWord true)) ↔
      TailFits bitsPerWord (len % max) := by
  have hAll : ∀ word ∈ words ++
      (Chunking.slice (wordOrder bitsPerWord src)
        ⟨0, len⟩).map (dcWord true), word.length = 9 := by
    intro word hMem
    rcases List.mem_append.mp hMem with hWord | hData
    · exact hWords word hWord
    · rcases List.mem_map.mp hData with ⟨b, _, rfl⟩
      exact length_dcWord true b
  have hData : ((Chunking.slice (wordOrder bitsPerWord src)
      ⟨0, len⟩).map (dcWord true)).flatten =
        dataWords (wordOrder bitsPerWord src) len := by
    rw [dataWords_eq_slice, Chunking.slice, Chunking.slice,
      List.map_map]
    rfl
  rw [wordsThenNops_iff hAll,
    ← packed_words_iff bitsPerWord src hBlocks len]
  simp only [BitStream.ofBytes_append, hSent,
    List.flatten_append, hData, List.append_assoc,
    List.append_cancel_left_eq]

/- The one padded tail that takes all of its pixels is one. -/
theorem tailFits_sixteen_iff
    {tail : Nat} (hEven : tail % 2 = 0) :
    TailFits 16 tail ↔ tail % 8 = 0 ∨ tail = 2 := by
  unfold TailFits tailTaken
  rw [if_neg (by decide)]
  omega

theorem clocksWords_pixels_iff
    (hBus : ∀ n, env.spidev n = none)
    (spi : SpiDevice) (maxChunk : Nat)
    (hRoom : 9 ≤ mipiDbiSpiClampSize spi maxChunk)
    (buf : Ptr) {len : Nat} (hEven : len % 2 = 0)
    {w : World} (hAlloc : env.kmalloc w.now = true)
    (hTx : w.TxOk) :
    ClocksWords
        (mipiDbiSpi1eTransfer env spi 16 true buf len
          maxChunk) w
        ((pixelBytes w buf len).map (dcWord true)) ↔
      TailFits 16
        (len % maxSrcChunk (mipiDbiSpiClampSize spi maxChunk)
          len) := by
  rcases mipiDbiSpi1eTransfer_data hBus spi 16 buf len maxChunk
      hAlloc hRoom hTx with
    ⟨w', hRun, hSent⟩
  rw [clocksWords_iff hRun hSent,
    pixelBytes_eq_exchanged w buf hEven]
  exact packedStream_words_iff 16 (w.byte buf)
    (maxSrcChunk_blocks _ len) len [] [] rfl (by simp)

/-
  The pixels of a buffer are clocked out if and only if what
  is left behind the full chunks is whole blocks or a single
  pixel.
-/
theorem emulated_pixels_iff
    (env : Env) (hBus : ∀ n, env.spidev n = none)
    (spi : SpiDevice) (maxChunk : Nat)
    (hRoom : 9 ≤ mipiDbiSpiClampSize spi maxChunk)
    (buf : Ptr) (len : Nat) (hEven : len % 2 = 0)
    (w : World) (hAlloc : env.kmalloc w.now = true)
    (hTx : w.TxOk) :
    ClocksWords
        (mipiDbiSpi1eTransfer env spi 16 true buf len
          maxChunk) w
        ((pixelBytes w buf len).map (dcWord true)) ↔
      len % maxSrcChunk (mipiDbiSpiClampSize spi maxChunk)
          len % 8 = 0 ∨
        len % maxSrcChunk (mipiDbiSpiClampSize spi maxChunk)
          len = 2 := by
  have hBlocks := maxSrcChunk_blocks
    (mipiDbiSpiClampSize spi maxChunk) len
  have hTail : len %
      maxSrcChunk (mipiDbiSpiClampSize spi maxChunk) len % 2 =
        0 := by
    rw [Nat.mod_mod_of_dvd len (by omega), hEven]
  rw [clocksWords_pixels_iff hBus spi maxChunk hRoom buf hEven hAlloc
    hTx]
  exact tailFits_sixteen_iff hTail

/- A single pixel. -/
theorem emulated_pixels_single :
    ClocksWords
      (mipiDbiSpi1eTransfer Env.granting eightBitSpi 16 true
        (.ofBytes [0x00, 0xF8] fun _ => 0) 2 4096)
      (World.atProbe (-1))
      ((pixelBytes (World.atProbe (-1))
        (.ofBytes [0x00, 0xF8] fun _ => 0) 2).map
          (dcWord true)) :=
  (emulated_pixels_iff Env.granting (fun _ => rfl) eightBitSpi
    4096 (by decide) (.ofBytes [0x00, 0xF8] fun _ => 0) 2 rfl
    (World.atProbe (-1)) rfl (World.txOk_atProbe (-1))).mpr
    (Or.inr rfl)

/- Of two pixels the second one is not clocked out. -/
theorem emulated_pixels_two :
    ¬ ∀ (env : Env) (spi : SpiDevice) (buf : Ptr)
      (len maxChunk : Nat) (w : World),
      (∀ n, env.spidev n = none) →
      9 ≤ mipiDbiSpiClampSize spi maxChunk →
      len % 2 = 0 →
      env.kmalloc w.now = true → w.TxOk →
      ClocksWords
        (mipiDbiSpi1eTransfer env spi 16 true buf len
          maxChunk) w
        ((pixelBytes w buf len).map (dcWord true)) := by
  intro hClaim
  let buf : Ptr := .ofBytes [0x00, 0xF8, 0x1F, 0x00] fun _ => 0
  have hTx := World.txOk_atProbe (-1)
  have hSends := hClaim Env.granting eightBitSpi buf 4 4096
    (World.atProbe (-1)) (fun _ => rfl) (by decide) rfl rfl hTx
  have hFits := (clocksWords_pixels_iff (fun _ => rfl)
    eightBitSpi 4096 (by decide) buf rfl rfl
    hTx).mp hSends
  revert hFits
  unfold TailFits
  decide

end Utinydrm

------------------------------------------------------------
-- Commands
------------------------------------------------------------

namespace Utinydrm

variable {env : Env}

theorem mipiDbiSpi1Transfer_emulated
    (spi : SpiDevice)
    (hNine : tinydrmSpiBpwSupported spi 9 = false)
    (bitsPerWord : Nat) (dc : Bool)
    (buf : Ptr) (len maxChunk : Nat) :
    mipiDbiSpi1Transfer env spi bitsPerWord dc buf len
        maxChunk =
      mipiDbiSpi1eTransfer env spi bitsPerWord dc buf len
        maxChunk := by
  funext w
  unfold mipiDbiSpi1Transfer
  rw [Effect.bind_of_ok (Effect.get_apply w), if_pos hNine]

/- A controller without room for a block is refused. -/
theorem mipiDbiSpi1eTransfer_refused
    (spi : SpiDevice) {maxChunk : Nat}
    (hNoRoom : mipiDbiSpiClampSize spi maxChunk < 9)
    (bitsPerWord : Nat) (dc : Bool)
    (buf : Ptr) (len : Nat) (w : World) :
    mipiDbiSpi1eTransfer env spi bitsPerWord dc buf len
        maxChunk w = .ok (-EINVAL) w := by
  unfold mipiDbiSpi1eTransfer
  rw [Effect.bind_of_ok (Effect.get_apply w)]
  dsimp only
  rw [if_pos hNoRoom]
  rfl

/- The transfer of a command byte is one message. -/
theorem mipiDbiSpi1eTransfer_low
    (env : Env) (spi : SpiDevice) (reg : Ptr) (maxChunk : Nat)
    {w : World}
    (hAlloc : env.kmalloc w.now = true)
    (hRoom : 9 ≤ mipiDbiSpiClampSize spi maxChunk) :
    mipiDbiSpi1eTransfer env spi 8 false reg 1 maxChunk w =
      spiSync env spi
        { first :=
            { txBuf := some
                (.ofBytes (commandBlock (w.byte reg 0))
                  (env.garbage w.now))
              len := 9
              bitsPerWord := 8 } }
        (w.record (.kmalloc true)) := by
  unfold mipiDbiSpi1eTransfer
  rw [Effect.bind_of_ok (Effect.get_apply w)]
  dsimp only
  rw [if_neg (by omega), if_pos rfl, if_neg (by decide),
    kmalloc_bind, hAlloc, if_pos rfl]

theorem mipiDbiSpi1eTransfer_command
    (hBus : ∀ n, env.spidev n = none)
    (spi : SpiDevice) (reg : Ptr) (maxChunk : Nat)
    {w : World}
    (hAlloc : env.kmalloc w.now = true)
    (hRoom : 9 ≤ mipiDbiSpiClampSize spi maxChunk)
    (hTx : w.TxOk) :
    ∃ w', mipiDbiSpi1eTransfer env spi 8 false reg 1 maxChunk w =
        .ok 0 w' ∧
      World.SameBus w w' ∧
      w'.clocked =
        w.clocked ++ commandBlock (w.byte reg 0) := by
  rw [mipiDbiSpi1eTransfer_low env spi reg maxChunk hAlloc
    hRoom]
  rcases clocked_ofBytes hBus spi (commandBlock (w.byte reg 0))
      (env.garbage w.now) (le_refl 9)
      (w := w.record (.kmalloc true)) hTx with
    ⟨w', hRun, hSame, hSent⟩
  refine ⟨w', hRun, ⟨hSame.fbs, hSame.bufFd, hSame.txBuf,
    hSame.mspiTxBuf, hSame.mem, hSame.level⟩, ?_⟩
  rw [hSent, World.clocked_kmalloc]
  rfl

/- Every padded tail of bytes is taken as a whole. -/
theorem tailFits_eight_iff (tail : Nat) :
    TailFits 8 tail ↔ tail < 8 ∨ tail % 8 = 0 := by
  unfold TailFits tailTaken
  rw [if_pos rfl]
  omega

/- The words of a command byte. -/
def commandWords (cmd : UInt8) : List (List Bool) :=
  List.replicate 7 nopWord ++ [dcWord false cmd]

theorem ofBytes_commandBlock (cmd : UInt8) :
    BitStream.ofBytes (commandBlock cmd) =
      (commandWords cmd).flatten := by
  simp [commandBlock, commandWords, dcWord, nopWord,
    List.replicate_succ, BitStream.bits_zero]

theorem length_of_mem_commandWords
    (cmd : UInt8) :
    ∀ word ∈ commandWords cmd, word.length = 9 := by
  intro word hMem
  rcases List.mem_append.mp hMem with hNop | hCmd
  · rw [List.eq_of_mem_replicate hNop]
    rfl
  · rw [List.mem_singleton.mp hCmd, length_dcWord]

/-
  A register write is refused with nothing clocked out, or it
  clocks out the command, padded in front, and the words of
  the parameters.
-/
def WritesCommand
    (program : Driver Int) (w : World)
    (cmd : UInt8) (params : List UInt8) : Prop :=
  (∃ w', program w = .ok (-EINVAL) w' ∧
    w'.clocked = w.clocked) ∨
  ClocksWords program w
    (List.replicate 7 nopWord ++
      dcWord false cmd :: params.map (dcWord true))

/- What a register write that is not refused clocks out. -/
theorem mipiDbiSpi1GatherWrite_emulated
    (hBus : ∀ n, env.spidev n = none)
    (hAlloc : ∀ n, env.kmalloc n = true)
    (mspi : MipiDbiSpi)
    (hNine : tinydrmSpiBpwSupported mspi.spi 9 = false)
    (hRoom : 9 ≤ mipiDbiSpiClampSize mspi.spi 4096)
    (reg p : Ptr) (len : Nat)
    {w : World}
    (hCmd : (w.byte reg 0).toNat ≠ mspi.ramReg)
    (hTx : w.TxOk) :
    ∃ w', mipiDbiSpi1GatherWrite env mspi reg 1 (some p) len w =
        .ok 0 w' ∧
      w'.clocked = w.clocked ++
        (commandBlock (w.byte reg 0) ++
          packedStream 8 (w.byte p)
            (maxSrcChunk (mipiDbiSpiClampSize mspi.spi 4096)
              len)
            len) := by
  rcases mipiDbiSpi1eTransfer_command hBus mspi.spi reg 4096
      (hAlloc w.now) hRoom hTx with
    ⟨w₁, hRun₁, hSame, hSent₁⟩
  rw [← mipiDbiSpi1Transfer_emulated mspi.spi hNine] at hRun₁
  rcases Nat.eq_zero_or_pos len with rfl | hLen
  · refine ⟨w₁, mipiDbiSpi1GatherWrite_empty hRun₁ (some p), ?_⟩
    simpa [packedStream, Chunking.pieces_zero] using hSent₁
  · rcases mipiDbiSpi1eTransfer_data hBus mspi.spi 8 p len 4096
        (w := w₁) (hAlloc _) hRoom
        (by simpa [World.TxOk, hSame.txBuf] using hTx) with
      ⟨w', hRun, hSent⟩
    refine ⟨w', ?_, ?_⟩
    · rw [mipiDbiSpi1GatherWrite_data hRun₁ p hLen.ne',
        if_neg hCmd, mipiDbiSpi1Transfer_emulated mspi.spi hNine]
      exact hRun
    · rw [hSent, hSent₁, hSame.byte_eq p, List.append_assoc]

/- With room for a block, all depends on the last chunk. -/
theorem writesCommand_iff
    (hBus : ∀ n, env.spidev n = none)
    (hAlloc : ∀ n, env.kmalloc n = true)
    (mspi : MipiDbiSpi)
    (hNine : tinydrmSpiBpwSupported mspi.spi 9 = false)
    (hRoom : 9 ≤ mipiDbiSpiClampSize mspi.spi 4096)
    (reg p : Ptr) (len : Nat)
    {w : World}
    (hCmd : (w.byte reg 0).toNat ≠ mspi.ramReg)
    (hTx : w.TxOk) :
    WritesCommand
        (mipiDbiSpi1GatherWrite env mspi reg 1 (some p) len) w
        (w.byte reg 0) (w.bytes p len) ↔
      TailFits 8
        (len % maxSrcChunk (mipiDbiSpiClampSize mspi.spi 4096)
          len) := by
  rcases mipiDbiSpi1GatherWrite_emulated hBus hAlloc mspi hNine
      hRoom reg p len hCmd hTx with
    ⟨w', hRun, hSent⟩
  have hAccepted : ¬ ∃ w', mipiDbiSpi1GatherWrite env mspi reg 1
      (some p) len w = .ok (-EINVAL) w' ∧
        w'.clocked = w.clocked := by
    rintro ⟨w₂, hRun₂, _⟩
    cases hRun.symm.trans hRun₂
  have hWords : List.replicate 7 nopWord ++
      dcWord false (w.byte reg 0) ::
        (w.bytes p len).map (dcWord true) =
      commandWords (w.byte reg 0) ++
        (Chunking.slice (wordOrder 8 (w.byte p))
          ⟨0, len⟩).map (dcWord true) := by
    simp [commandWords, World.bytes, Chunking.slice, wordOrder]
  unfold WritesCommand
  rw [or_iff_right hAccepted, clocksWords_iff hRun hSent,
    hWords]
  exact packedStream_words_iff 8 (w.byte p)
    (maxSrcChunk_blocks _ len) len
    (commandBlock (w.byte reg 0)) (commandWords (w.byte reg 0))
    (ofBytes_commandBlock (w.byte reg 0))
    (length_of_mem_commandWords (w.byte reg 0))

/- With less room nothing is clocked out at all. -/
theorem mipiDbiSpi1GatherWrite_refused
    (mspi : MipiDbiSpi)
    (hNine : tinydrmSpiBpwSupported mspi.spi 9 = false)
    (hNoRoom : mipiDbiSpiClampSize mspi.spi 4096 < 9)
    (reg : Ptr) (val : Option Ptr) (len : Nat) (w : World) :
    mipiDbiSpi1GatherWrite env mspi reg 1 val len w =
      .ok (-EINVAL) w := by
  apply mipiDbiSpi1GatherWrite_failed _ (by decide)
  rw [mipiDbiSpi1Transfer_emulated mspi.spi hNine]
  exact mipiDbiSpi1eTransfer_refused mspi.spi hNoRoom 8 false
    reg 1 w

/-
  A command with its parameters is clocked out, or refused,
  if and only if there is no room for a block or what is left
  of the parameters behind the full chunks is less than a
  block or whole blocks.
-/
theorem emulated_command_iff
    (env : Env) (hBus : ∀ n, env.spidev n = none)
    (hAlloc : ∀ n, env.kmalloc n = true)
    (spi : SpiDevice)
    (hNine : tinydrmSpiBpwSupported spi 9 = false)
    (writeOnly : Bool) (reg p : Ptr) (len : Nat)
    (w : World)
    (hCmd :
      (w.byte reg 0).toNat ≠ MIPI_DCS_WRITE_MEMORY_START)
    (hTx : w.TxOk) :
    WritesCommand
        (mipiDbiSpi1GatherWrite env
          (mipiDbiSpiInit spi false writeOnly) reg 1 (some p)
          len) w
        (w.byte reg 0) (w.bytes p len) ↔
      mipiDbiSpiClampSize spi 4096 < 9 ∨
        len % maxSrcChunk (mipiDbiSpiClampSize spi 4096)
          len < 8 ∨
        len % maxSrcChunk (mipiDbiSpiClampSize spi 4096)
          len % 8 = 0 := by
  by_cases hRoom : mipiDbiSpiClampSize spi 4096 < 9
  · refine iff_of_true (Or.inl ⟨w, ?_, rfl⟩) (Or.inl hRoom)
    exact mipiDbiSpi1GatherWrite_refused
      (mipiDbiSpiInit spi false writeOnly) hNine hRoom reg
      (some p) len w
  · rw [or_iff_right hRoom, writesCommand_iff hBus hAlloc
      (mipiDbiSpiInit spi false writeOnly) hNine (by
        simpa [mipiDbiSpiInit] using hRoom) reg p len hCmd hTx]
    exact tailFits_eight_iff _

/- A display is switched on, without parameters. -/
theorem emulated_command_bare :
    WritesCommand
      (mipiDbiSpi1GatherWrite Env.granting
        (mipiDbiSpiInit eightBitSpi false true)
        (.heap fun _ => 0x29) 1 (some (.heap fun _ => 0)) 0)
      (World.atProbe (-1)) 0x29 [] :=
  (emulated_command_iff Env.granting (fun _ => rfl)
    (fun _ => rfl) eightBitSpi rfl true (.heap fun _ => 0x29)
    (.heap fun _ => 0) 0 (World.atProbe (-1)) (by decide)
    (World.txOk_atProbe (-1))).mpr (Or.inr (Or.inl
      (by decide)))

/- A device that takes at most 20 bytes a message. -/
def shortDmaSpi : SpiDevice where
  master :=
    { bitsPerWordMask := spiBpwMask 8
      maxDmaLen := 20 }
  maxSpeedHz := 32000000

/-
  Of 28 parameters 12 are left behind a chunk of 16. They
  are written as two blocks, the second of which is cut off.
-/
theorem emulated_command_cut :
    ¬ ∀ (env : Env) (spi : SpiDevice) (writeOnly : Bool)
      (reg p : Ptr) (len : Nat) (w : World),
      (∀ n, env.spidev n = none) →
      (∀ n, env.kmalloc n = true) →
      tinydrmSpiBpwSupported spi 9 = false →
      (w.byte reg 0).toNat ≠ MIPI_DCS_WRITE_MEMORY_START →
      w.TxOk →
      WritesCommand
        (mipiDbiSpi1GatherWrite env
          (mipiDbiSpiInit spi false writeOnly) reg 1 (some p)
          len) w
        (w.byte reg 0) (w.bytes p len) := by
  intro hClaim
  have hTx := World.txOk_atProbe (-1)
  have hCmd : ((World.atProbe (-1)).byte
      (.heap fun _ => 0xE0) 0).toNat ≠
        MIPI_DCS_WRITE_MEMORY_START := by
    decide
  have hSends := hClaim Env.granting shortDmaSpi true
    (.heap fun _ => 0xE0) (.heap fun _ => 0) 28
    (World.atProbe (-1)) (fun _ => rfl) (fun _ => rfl) rfl hCmd
    hTx
  have hFits := (writesCommand_iff (fun _ => rfl)
    (fun _ => rfl) (mipiDbiSpiInit shortDmaSpi false true) rfl
    (by decide) (.heap fun _ => 0xE0) (.heap fun _ => 0) 28
    hCmd hTx).mp hSends
  revert hFits
  unfold TailFits
  decide

end Utinydrm
