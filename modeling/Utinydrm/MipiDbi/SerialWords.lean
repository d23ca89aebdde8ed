import Utinydrm.MipiDbi.EmulatedWords
import Utinydrm.MipiDbi.Regmap

/-
  The words a panel receives over option 1.

  It shifts in words of 9 bits, beginning anew with every
  message. A word that is not complete when the message ends
  is not received.

  Key definitions include:
    * `serialWords`, `World.serial`
    * `wordsTaken`, `streamTaken`
    * `SerialStep`

  Main declarations:
    * `serialWords_packedBytes`
    * `serialStream_eq`
    * `mipiDbiSpi1eTransfer_serial`
-/

------------------------------------------------------------
-- The Words Of A Message
------------------------------------------------------------

namespace Utinydrm

/- A word as it is received: its D/C bit and its byte. -/
def wordByte : List Bool → Bool × UInt8
| [] => (false, 0)
| dc :: byte => (dc, (BitStream.number byte).toUInt8)

/- `MIPI_DCS_NOP`, as it is received. -/
def nop : Bool × UInt8 := (false, 0)

/- The words that are complete when the message ends. -/
def serialWords (bytes : List UInt8) : List (Bool × UInt8) :=
  (BitStream.fullWords 9 (BitStream.ofBytes bytes)).map wordByte

theorem wordByte_dcWord (dc : Bool) (b : UInt8) :
    wordByte (dcWord dc b) = (dc, b) := by
  rw [dcWord, wordByte, BitStream.number_bits_byte]

/- A message of words, and less than another one. -/
theorem serialWords_of_bits
    {bytes : List UInt8} {words : List (Bool × UInt8)}
    (rest : List Bool) (hRest : rest.length < 9)
    (hBits : BitStream.ofBytes bytes =
      (words.flatMap fun word => dcWord word.1 word.2) ++
        rest) :
    serialWords bytes = words := by
  have hWords : ∀ word ∈ words.map fun word =>
      dcWord word.1 word.2, word.length = 9 := by
    intro word hMem
    rcases List.mem_map.mp hMem with ⟨x, _, rfl⟩
    exact length_dcWord x.1 x.2
  have hSame : (wordByte ∘ fun word : Bool × UInt8 =>
      dcWord word.1 word.2) = id := by
    funext word
    exact wordByte_dcWord word.1 word.2
  rw [serialWords, hBits, List.flatMap_def,
    BitStream.fullWords_flatten_append (by decide) hWords
      hRest, List.map_map, hSame, List.map_id]

/- The bits of labelled bytes are words of data. -/
theorem flatMap_labelled_range
    (src : Nat → UInt8) (n : Nat) :
    ((labelled true ((List.range n).map src)).flatMap
      fun word => dcWord word.1 word.2) = dataWords src n := by
  simp [labelled, dataWords, List.flatMap_map]

theorem flatMap_replicate_nop (n : Nat) :
    ((List.replicate n nop).flatMap
      fun word => dcWord word.1 word.2) =
      List.replicate (9 * n) false := by
  have hNop : dcWord nop.1 nop.2 = List.replicate 9 false := by
    decide
  rw [List.flatMap_replicate, hNop,
    List.flatten_replicate_replicate, Nat.mul_comm]

/- A command byte comes behind seven words that do nothing. -/
theorem serialWords_commandBlock (cmd : UInt8) :
    serialWords (commandBlock cmd) =
      List.replicate 7 nop ++ [(false, cmd)] := by
  apply serialWords_of_bits [] (by decide)
  rw [List.flatMap_append, flatMap_replicate_nop,
    ofBytes_commandBlock]
  simp [commandWords, nopWord]

end Utinydrm

------------------------------------------------------------
-- The Words Of A Chunk
------------------------------------------------------------

namespace Utinydrm

/- The source bytes of a chunk whose words are sent. -/
def wordsTaken (bitsPerWord chunk : Nat) : Nat :=
  if chunk < 8 then tailTaken bitsPerWord chunk else chunk

variable (bitsPerWord : Nat) (src : Nat → UInt8)

/-
  The words of a chunk of a block or more are its bytes: the
  last block is cut off behind them, within a word. Those of
  a smaller one are padded with words that do nothing.
-/
theorem serialWords_packedBytes (chunk : Nat) :
    ∃ k, serialWords (packedBytes bitsPerWord src chunk) =
        labelled true
          ((List.range (wordsTaken bitsPerWord chunk)).map
            (wordOrder bitsPerWord src)) ++
          List.replicate k nop ∧
      (8 ≤ chunk → k = 0) := by
  unfold wordsTaken
  by_cases hTail : chunk < 8
  · refine ⟨8 - tailTaken bitsPerWord chunk, ?_, by omega⟩
    rw [if_pos hTail]
    apply serialWords_of_bits [] (by decide)
    rw [ofBytes_packedBytes_tail bitsPerWord src hTail,
      List.flatMap_append, flatMap_labelled_range,
      flatMap_replicate_nop, List.append_nil]
  · refine ⟨0, ?_, fun _ => rfl⟩
    rw [if_neg hTail, List.replicate_zero, List.append_nil]
    let blocks := (List.range ((chunk + 7) / 8)).flatMap
      fun k => fullBlock bitsPerWord fun i => src (8 * k + i)
    have hBytes : packedBytes bitsPerWord src chunk <+:
        blocks := by
      rw [packedBytes, packChunk_of_le _ _ (by omega)]
      exact List.take_prefix _ _
    have hMessage : BitStream.ofBytes
        (packedBytes bitsPerWord src chunk) <+:
          BitStream.ofBytes blocks := by
      rcases hBytes with ⟨cut, hCut⟩
      rw [← hCut, BitStream.ofBytes_append]
      exact List.prefix_append _ _
    have hData : dataWords (wordOrder bitsPerWord src) chunk
        <+: BitStream.ofBytes blocks := by
      have hBlocks : 8 * ((chunk + 7) / 8) =
          chunk + (8 * ((chunk + 7) / 8) - chunk) := by
        omega
      rw [ofBytes_blocks, hBlocks, dataWords_add]
      exact List.prefix_append _ _
    have hLong : 8 ≤ chunk := by omega
    have hLength := length_packedBytes bitsPerWord src hLong
    -- the message is long enough for the words of its bytes
    rcases List.prefix_of_prefix_length_le hData hMessage (by
        rw [length_dataWords, BitStream.length_ofBytes, hLength]
        omega) with ⟨rest, hRest⟩
    apply serialWords_of_bits rest _
      (by rw [flatMap_labelled_range, hRest])
    have hBits := congrArg List.length hRest
    rw [List.length_append, length_dataWords,
      BitStream.length_ofBytes, hLength] at hBits
    omega

/- Chunks of a block or more send all of their bytes. -/
theorem serialWords_full
    {full : List Chunking.Piece} {stop : Nat}
    (hTiles : Chunking.Tiles 0 full stop)
    (hFull : ∀ p ∈ full, 8 ≤ p.size ∧ p.offset % 2 = 0) :
    (full.flatMap fun p =>
      serialWords (packedBytes bitsPerWord
        (fun i => src (p.offset + i)) p.size)) =
      labelled true
        ((List.range stop).map (wordOrder bitsPerWord src)) := by
  have hSlices := hTiles.flatMap_slice
    (fun i => (true, wordOrder bitsPerWord src i))
  have hLabels : labelled true
      ((List.range stop).map (wordOrder bitsPerWord src)) =
      Chunking.slice
        (fun i => (true, wordOrder bitsPerWord src i))
        ⟨0, stop⟩ := by
    simp [labelled, Chunking.slice]
  rw [Nat.sub_zero] at hSlices
  rw [hLabels, ← hSlices]
  apply List.flatMap_congr
  intro p hp
  rcases hFull p hp with ⟨hLong, hEven⟩
  rcases serialWords_packedBytes bitsPerWord
      (fun i => src (p.offset + i)) p.size with
    ⟨k, hWords, hNone⟩
  have hTaken : wordsTaken bitsPerWord p.size = p.size :=
    if_neg (by omega)
  rw [hWords, hNone hLong, hTaken, List.replicate_zero,
    List.append_nil, labelled, List.map_map, Chunking.slice]
  apply List.map_congr_left
  intro i _
  exact congrArg (Prod.mk true)
    (wordOrder_add bitsPerWord src hEven i)

/- What is received of the messages for a buffer. -/
def serialStream (max len : Nat) : List (Bool × UInt8) :=
  (Chunking.pieces max len).flatMap fun p =>
    serialWords (packedBytes bitsPerWord
      (fun i => src (p.offset + i)) p.size)

/- The bytes of a buffer whose words are sent. -/
def streamTaken (max len : Nat) : Nat :=
  len / max * max + wordsTaken bitsPerWord (len % max)

/-
  It is the bytes that are taken, in the order of the words,
  and words that do nothing behind them.
-/
theorem serialStream_eq
    {max : Nat} (hBlocks : 8 ≤ max ∧ max % 8 = 0)
    (len : Nat) :
    ∃ k, serialStream bitsPerWord src max len =
      labelled true
        ((List.range (streamTaken bitsPerWord max len)).map
          (wordOrder bitsPerWord src)) ++
        List.replicate k nop := by
  have hMax : 0 < max := by omega
  have hEvenMax : max % 2 = 0 := by omega
  have hEven : ∀ k, k * max % 2 = 0 := by
    intro k
    rw [Nat.mul_mod, hEvenMax, Nat.mul_zero, Nat.zero_mod]
  rcases Chunking.pieces_split hMax len with
    ⟨full, hPieces, hTiles, hSize⟩
  have hFull : ∀ p ∈ full, 8 ≤ p.size ∧ p.offset % 2 = 0 := by
    intro p hp
    have hMem : p ∈ Chunking.pieces max len := by
      rw [hPieces]
      exact List.mem_append_left _ hp
    rcases Chunking.mem_pieces hMax hMem with ⟨k, hOffset, _⟩
    rw [hSize p hp, hOffset]
    exact ⟨hBlocks.1, hEven k⟩
  unfold serialStream streamTaken
  rw [hPieces, List.flatMap_append,
    serialWords_full bitsPerWord src hTiles hFull]
  unfold Chunking.tailPiece
  split
  case isTrue hNone =>
    have hTaken : wordsTaken bitsPerWord 0 = 0 := by
      simp [wordsTaken, tailTaken]
    exact ⟨0, by simp [hNone, hTaken]⟩
  case isFalse hSome =>
    rcases serialWords_packedBytes bitsPerWord
        (fun i => src (len / max * max + i)) (len % max) with
      ⟨k, hWords, _⟩
    have hOrder : wordOrder bitsPerWord
          (fun i => src (len / max * max + i)) =
        fun i => wordOrder bitsPerWord src
          (len / max * max + i) :=
      funext (wordOrder_add bitsPerWord src (hEven _))
    refine ⟨k, ?_⟩
    rw [List.flatMap_singleton]
    simp only [Nat.zero_add, hWords, hOrder]
    simp [labelled, List.range_add, Function.comp_def]

@[simp] theorem streamTaken_zero (max : Nat) :
    streamTaken bitsPerWord max 0 = 0 := by
  simp [streamTaken, wordsTaken, tailTaken]

/- Bytes are all taken, whatever is left for the last chunk. -/
theorem streamTaken_eight (max len : Nat) :
    streamTaken 8 max len = len := by
  have hTail : wordsTaken 8 (len % max) = len % max := by
    simp [wordsTaken, tailTaken]
  rw [streamTaken, hTail]
  exact Nat.div_add_mod' len max

/-
  Pixels are, but for one of them when two or three are left
  for the last chunk.
-/
theorem streamTaken_sixteen
    {max len : Nat} (hEvenMax : max % 2 = 0)
    (hEven : len % 2 = 0) :
    streamTaken 16 max len =
      if len % max = 4 ∨ len % max = 6 then len - 2
      else len := by
  have hTail : len % max % 2 = 0 := by
    rw [Nat.mod_mod_of_dvd len
      (Nat.dvd_of_mod_eq_zero hEvenMax), hEven]
  have hLen := Nat.div_add_mod' len max
  have hTaken : wordsTaken 16 (len % max) =
      if len % max = 4 ∨ len % max = 6 then len % max - 2
      else len % max := by
    unfold wordsTaken tailTaken
    rw [if_neg (by decide : ¬ 16 = 8)]
    split <;> split <;> omega
  rw [streamTaken, hTaken]
  split <;> omega

end Utinydrm

------------------------------------------------------------
-- What A Panel Receives
------------------------------------------------------------

namespace Utinydrm

variable {env : Env}

/- The words of a message, if it is delivered. -/
def SpiRecord.serial (r : SpiRecord) : List (Bool × UInt8) :=
  match r.result with
  | none => serialWords r.mosi.flatten
  | some _ => []

namespace World

/- The words a panel has received over option 1. -/
def serial (w : World) : List (Bool × UInt8) :=
  w.messages.flatMap SpiRecord.serial

theorem serial_afterSpidev
    (hBus : ∀ n, env.spidev n = none)
    (w : World) (xfer : SpiIocTransfer) :
    (w.afterSpidev env [xfer]).serial =
      w.serial ++ serialWords (w.mosi env xfer) := by
  rw [serial, messages_afterSpidev, List.flatMap_append,
    List.flatMap_singleton]
  simp [serial, SpiRecord.serial, spiRecord, hBus]

theorem Quiet.serial
    {w w' : World} (hQuiet : w.Quiet w') :
    w'.serial = w.serial := by
  rw [World.serial, hQuiet.messages, World.serial]

end World

/- Words are sent, and the state of the bus stays. -/
structure SerialStep
    (w w' : World) (sent : List (Bool × UInt8)) : Prop where
  bus : World.SameBus w w'
  serial : w'.serial = w.serial ++ sent

namespace SerialStep

variable {w w₁ w₂ : World} {first second : List (Bool × UInt8)}

theorem trans
    (h₁ : SerialStep w w₁ first)
    (h₂ : SerialStep w₁ w₂ second) :
    SerialStep w w₂ (first ++ second) :=
  ⟨h₁.bus.trans h₂.bus, by
    rw [h₂.serial, h₁.serial, List.append_assoc]⟩

theorem txOk
    (hStep : SerialStep w w₁ first) (hTx : w.TxOk) :
    w₁.TxOk := by
  rwa [World.TxOk, hStep.bus.txBuf]

/- Calls that are no messages send nothing. -/
theorem of_quiet
    (hQuiet : w.Quiet w₁) (hBus : World.SameBus w w₁) :
    SerialStep w w₁ [] :=
  ⟨hBus, by rw [hQuiet.serial, List.append_nil]⟩

theorem of_kmalloc (w : World) (granted : Bool) :
    SerialStep w (w.record (.kmalloc granted)) [] :=
  .of_quiet (.of_log _ rfl (by simp [Call.isMessage]))
    ⟨rfl, rfl, rfl, rfl, rfl, rfl⟩

theorem of_workBuf (w : World) (buf : Nat → UInt8) :
    SerialStep w { w with workBuf := buf } [] :=
  .of_quiet (.of_log_eq rfl) ⟨rfl, rfl, rfl, rfl, rfl, rfl⟩

end SerialStep

/- A message from the first bytes of a buffer filled before. -/
theorem serialStep_ofBytes
    (hBus : ∀ n, env.spidev n = none)
    (spi : SpiDevice) (bytes : List UInt8)
    (rest : Nat → UInt8) {len : Nat}
    (hLen : len ≤ bytes.length)
    {w : World} (hTx : w.TxOk) :
    ∃ w', spiSync env spi
        { first :=
            { txBuf := some (.ofBytes bytes rest)
              len := len
              bitsPerWord := 8 } } w = .ok 0 w' ∧
      SerialStep w w' (serialWords (bytes.take len)) := by
  refine ⟨_, spiSync_heap hBus spi rfl hTx,
    (World.SameBus.refl w).afterSpidev _, ?_⟩
  rw [World.serial_afterSpidev hBus, w.mosi_iocOf spi rfl,
    w.bytes_ofBytes bytes rest hLen]

/- A command byte. -/
theorem mipiDbiSpi1eTransfer_serial_low
    (hBus : ∀ n, env.spidev n = none)
    (spi : SpiDevice) (reg : Ptr) (maxChunk : Nat)
    {w : World}
    (hAlloc : env.kmalloc w.now = true)
    (hRoom : 9 ≤ mipiDbiSpiClampSize spi maxChunk)
    (hTx : w.TxOk) :
    ∃ w', mipiDbiSpi1eTransfer env spi 8 false reg 1 maxChunk
        w = .ok 0 w' ∧
      SerialStep w w'
        (List.replicate 7 nop ++ [(false, w.byte reg 0)]) := by
  rw [mipiDbiSpi1eTransfer_low env spi reg maxChunk hAlloc
    hRoom]
  rcases serialStep_ofBytes hBus spi
      (commandBlock (w.byte reg 0)) (env.garbage w.now)
      (le_refl 9) (w := w.record (.kmalloc true)) hTx with
    ⟨w', hRun, hStep⟩
  refine ⟨w', hRun, ?_⟩
  rw [← serialWords_commandBlock]
  exact (SerialStep.of_kmalloc w true).trans hStep

/- Data, as it was packed. -/
theorem mipiDbiSpi1eTransfer_serial
    (hBus : ∀ n, env.spidev n = none)
    (spi : SpiDevice) (bitsPerWord : Nat)
    (buf : Ptr) (len maxChunk : Nat)
    {w : World}
    (hAlloc : env.kmalloc w.now = true)
    (hRoom : 9 ≤ mipiDbiSpiClampSize spi maxChunk)
    (hTx : w.TxOk) :
    ∃ w', mipiDbiSpi1eTransfer env spi bitsPerWord true buf len
        maxChunk w = .ok 0 w' ∧
      SerialStep w w'
        (serialStream bitsPerWord (w.byte buf)
          (maxSrcChunk (mipiDbiSpiClampSize spi maxChunk) len)
          len) := by
  rw [mipiDbiSpi1eTransfer_walk spi bitsPerWord buf len
    maxChunk hRoom hAlloc]
  have hSource : ∀ offset, w.byte (buf.add offset) =
      fun i => w.byte buf (offset + i) := by
    intro offset
    funext i
    exact World.byte_add w buf offset i
  rcases Chunking.runPieces_emits
      (fun s => World.SameBus w s) World.serial
      (fun p => serialWords (packedBytes bitsPerWord
        (fun i => w.byte buf (p.offset + i)) p.size))
      (fun offset chunk => spiSync env spi
        (emulatedMessage env w bitsPerWord buf offset chunk))
      (emulatedPieces spi len maxChunk)
      (by
        intro p _ s hs
        have hTx' : s.TxOk := by
          rwa [World.TxOk, hs.txBuf]
        rcases serialStep_ofBytes hBus spi _
            (env.garbage w.now)
            (packChunk_fits bitsPerWord
              (w.byte (buf.add p.offset)) p.size) hTx' with
          ⟨s', hRun, hStep⟩
        refine ⟨s', hRun, hs.trans hStep.bus, ?_⟩
        rw [hStep.serial, packedBytes, hSource])
      (SerialStep.of_kmalloc w true).bus with
    ⟨w', hRun, hSame, hSent⟩
  refine ⟨w', hRun, hSame, ?_⟩
  rw [hSent, (SerialStep.of_kmalloc w true).serial,
    List.append_nil]
  rfl

end Utinydrm
