import Utinydrm.MipiDbi.SerialWords
import Utinydrm.MipiDbi.Panel

/-
  A panel at the end of option 1, from a controller without
  words of 9 bits.

  Words that do nothing come before and behind every register
  write. The panel takes them for commands, which change
  nothing that it shows, so that it ends up as one does that
  is given the write alone.

  Key definitions include:
    * `padded`
    * `TailLost`, `pixelsTaken`

  Main declarations:
    * `carries_padded`
    * `regmapRawWrite_serial`, `regmapRawWrite_serial_pixels`
    * `mipiDbiWriteBuf_serial`, `regmapRawRead_serial`
-/

------------------------------------------------------------
-- Words That Do Nothing
------------------------------------------------------------

namespace Utinydrm

theorem idle_run_nops (panel : Panel) (n : Nat) :
    (panel.run (List.replicate n nop)).idle = panel.idle := by
  induction n generalizing panel with
  | zero => rfl
  | succ n ih => exact ih panel.idle

/- A write with words that do nothing around it. -/
def padded
    (n : Nat) (frame : List (Bool × UInt8)) :
    List (Bool × UInt8) :=
  List.replicate 7 nop ++ (frame ++ List.replicate n nop)

/- It is received as the write alone. -/
theorem carries_padded
    (n : Nat) (cmd : UInt8) (data : List UInt8) :
    Carries (padded n (commandFrame cmd data))
      (commandFrame cmd data) := by
  have hBefore : Carries (List.replicate 7 nop) [] :=
    fun panel _ hIdle => (idle_run_nops panel 7).trans hIdle
  have hBehind : Carries (List.replicate n nop) [] :=
    fun panel _ hIdle => (idle_run_nops panel n).trans hIdle
  have hFrame := hBefore.append
    ((carries_frame cmd data).append hBehind)
  rwa [List.nil_append, List.append_nil] at hFrame

end Utinydrm

------------------------------------------------------------
-- Register Writes
------------------------------------------------------------

namespace Utinydrm

variable {env : Env}

theorem mipiDbiSpi1GatherWrite_serial
    (hEnv : env.Delivers)
    (mspi : MipiDbiSpi)
    (hNine : tinydrmSpiBpwSupported mspi.spi 9 = false)
    (hRoom : 9 ≤ mipiDbiSpiClampSize mspi.spi 4096)
    (reg p : Ptr) (len : Nat)
    {w : World} (hTx : w.TxOk) :
    ∃ w', mipiDbiSpi1GatherWrite env mspi reg 1 (some p) len
        w = .ok 0 w' ∧
      SerialStep w w'
        (List.replicate 7 nop ++ (false, w.byte reg 0) ::
          serialStream (valWidth mspi (w.byte reg 0))
            (w.byte p) (emulatedMaxSrcChunk mspi.spi len 4096)
            len) := by
  rcases mipiDbiSpi1eTransfer_serial_low hEnv.spidev mspi.spi
      reg 4096 (hEnv.kmalloc w.now) hRoom hTx with
    ⟨w₁, hRun₁, hStep₁⟩
  rw [← mipiDbiSpi1Transfer_emulated mspi.spi hNine] at hRun₁
  rcases Nat.eq_zero_or_pos len with rfl | hLen
  · exact ⟨w₁, mipiDbiSpi1GatherWrite_empty hRun₁ (some p),
      hStep₁⟩
  · rcases mipiDbiSpi1eTransfer_serial hEnv.spidev mspi.spi
        (valWidth mspi (w.byte reg 0)) p len 4096 (w := w₁)
        (hEnv.kmalloc _) hRoom (hStep₁.txOk hTx) with
      ⟨w', hRun, hStep⟩
    refine ⟨w', ?_, ?_⟩
    · rw [mipiDbiSpi1GatherWrite_data hRun₁ p hLen.ne',
        mipiDbiSpi1Transfer_emulated mspi.spi hNine]
      exact hRun
    · have hBoth := hStep₁.trans hStep
      rw [hStep₁.bus.byte_eq p, List.append_assoc] at hBoth
      exact hBoth

/- Option 1 is what there is without a D/C line. -/
theorem busGatherWrite_serial
    (env : Env) (spi : SpiDevice) (writeOnly : Bool)
    (reg : Ptr) (regLen : Nat)
    (val : Option Ptr) (valLen : Nat) :
    busGatherWrite env (mipiDbiSpiInit spi false writeOnly) reg
        regLen val valLen =
      mipiDbiSpi1GatherWrite env
        (mipiDbiSpiInit spi false writeOnly) reg regLen val
        valLen := rfl

/- Bytes of data in the order of their words. -/
def wordBytes
    (bitsPerWord : Nat) (w : World) (p : Ptr) (n : Nat) :
    List UInt8 :=
  (List.range n).map (wordOrder bitsPerWord (w.byte p))

section Writes

variable (hEnv : env.Delivers)
variable (spi : SpiDevice) (writeOnly : Bool)
variable (hNine : tinydrmSpiBpwSupported spi 9 = false)
variable (hRoom : 9 ≤ mipiDbiSpiClampSize spi 4096)
variable {w : World} (hTx : w.TxOk)

include hEnv hNine hRoom hTx

/- A write of the register map, from a copy of its data. -/
theorem regmapRawWrite_words
    (cmd : Nat) (val : Ptr) (len : Nat) :
    ∃ p w' n, regmapRawWrite env
        (mipiDbiSpiInit spi false writeOnly) cmd val len w =
          .ok 0 w' ∧
      p.Copies val len w ∧
      SerialStep w w'
        (padded n (commandFrame cmd.toUInt8
          (wordBytes
            (valWidth (mipiDbiSpiInit spi false writeOnly)
              cmd.toUInt8) w p
            (streamTaken
              (valWidth (mipiDbiSpiInit spi false writeOnly)
                cmd.toUInt8)
              (emulatedMaxSrcChunk spi len 4096) len)))) := by
  let mspi := mipiDbiSpiInit spi false writeOnly
  rcases regmapRawWrite_out env mspi cmd val len w with
    ⟨buf, p, hOut, hReg, hCopies⟩
  let s : World := { w with workBuf := buf }
  rcases mipiDbiSpi1GatherWrite_serial hEnv mspi hNine hRoom
      (.heap buf) p len (w := s) hTx with
    ⟨w', hRun, hStep⟩
  have hCmd : s.byte (.heap buf) 0 = cmd.toUInt8 := hReg
  rw [hCmd] at hStep
  rcases serialStream_eq (valWidth mspi cmd.toUInt8) (s.byte p)
      (maxSrcChunk_blocks (mipiDbiSpiClampSize spi 4096) len)
      len with ⟨n, hStream⟩
  refine ⟨p, w', n, ?_, hCopies, ?_⟩
  · rw [hOut, busGatherWrite_serial, Effect.bind_of_ok hRun,
      if_neg (by decide)]
    rfl
  · have hBoth := (SerialStep.of_workBuf w buf).trans hStep
    have hSent : serialStream (valWidth mspi cmd.toUInt8)
        (s.byte p) (emulatedMaxSrcChunk mspi.spi len 4096) len =
        _ := hStream
    rw [hSent] at hBoth
    exact hBoth

/- Bytes of data all arrive. -/
theorem regmapRawWrite_serial
    (cmd : Nat) (val : Ptr) (len : Nat)
    (hBytes : cmd.toUInt8.toNat ≠
      MIPI_DCS_WRITE_MEMORY_START ∨ len = 0) :
    ∃ w' n, regmapRawWrite env
        (mipiDbiSpiInit spi false writeOnly) cmd val len w =
          .ok 0 w' ∧
      SerialStep w w'
        (padded n (commandFrame cmd.toUInt8
          (w.bytes val len))) := by
  rcases regmapRawWrite_words hEnv spi writeOnly hNine hRoom
      hTx cmd val len with ⟨p, w', n, hRun, hCopies, hStep⟩
  rcases hBytes with hBytes | rfl
  · have hWidth : valWidth (mipiDbiSpiInit spi false writeOnly)
        cmd.toUInt8 = 8 := if_neg hBytes
    have hData : wordBytes 8 w p len = w.bytes val len := by
      apply List.map_congr_left
      intro i hi
      exact hCopies.bytes i (List.mem_range.mp hi)
    rw [hWidth, streamTaken_eight, hData] at hStep
    exact ⟨w', n, hRun, hStep⟩
  · rw [streamTaken_zero] at hStep
    exact ⟨w', n, hRun, hStep⟩

theorem mipiDbiWriteBuf_serial
    (cmd : Nat)
    (hCmd : cmd.toUInt8.toNat ≠ MIPI_DCS_WRITE_MEMORY_START)
    (parameters : List UInt8) :
    ∃ w' n, mipiDbiWriteBuf env
        (mipiDbiSpiInit spi false writeOnly) cmd parameters w =
          .ok 0 w' ∧
      SerialStep w w'
        (padded n (commandFrame cmd.toUInt8 parameters)) := by
  let s := w.record (.kmalloc (env.kmalloc w.now))
  rcases regmapRawWrite_serial hEnv spi writeOnly hNine hRoom
      (w := s) hTx cmd
      (.ofBytes parameters (env.garbage w.now))
      parameters.length (Or.inl hCmd) with ⟨w', n, hRun, hStep⟩
  rw [s.bytes_ofBytes parameters (env.garbage w.now)
    (le_refl _), List.take_length] at hStep
  refine ⟨w', n, ?_, (SerialStep.of_kmalloc w _).trans hStep⟩
  rw [mipiDbiWriteBuf, Effect.bind_of_ok (Effect.get_apply w),
    kmalloc_bind, if_pos (hEnv.kmalloc _)]
  exact hRun

end Writes

/- A read is refused, with nothing sent. -/
theorem regmapRawRead_serial
    (env : Env) (spi : SpiDevice) (writeOnly : Bool)
    (reg valLen : Nat) (w : World) :
    ∃ result w', regmapRawRead env
        (mipiDbiSpiInit spi false writeOnly) reg valLen w =
          .ok result w' ∧ SerialStep w w' [] := by
  have hRefl : SerialStep w w [] :=
    ⟨World.SameBus.refl w, (List.append_nil _).symm⟩
  unfold regmapRawRead
  by_cases hWhole : valLen % valBytes ≠ 0
  · exact ⟨_, w, by rw [if_pos hWhole]; rfl, hRefl⟩
  · by_cases hNone : valLen / valBytes = 0
    · exact ⟨_, w, by rw [if_neg hWhole, if_pos hNone]; rfl,
        hRefl⟩
    · refine ⟨(-ENOTSUPP, []), _, ?_,
        SerialStep.of_workBuf w
          (Function.update w.workBuf 0 reg.toUInt8)⟩
      rw [if_neg hWhole, if_neg hNone]
      rfl

/-
  Two or three pixels are left for the last chunk, of which
  the last one is not sent.
-/
def TailLost (spi : SpiDevice) (n : Nat) : Prop :=
  2 * n % emulatedMaxSrcChunk spi (2 * n) 4096 = 4 ∨
    2 * n % emulatedMaxSrcChunk spi (2 * n) 4096 = 6

instance (spi : SpiDevice) (n : Nat) :
    Decidable (TailLost spi n) :=
  inferInstanceAs (Decidable (_ ∨ _))

/- How many of some pixels arrive. -/
def pixelsTaken (spi : SpiDevice) (n : Nat) : Nat :=
  if TailLost spi n then n - 1 else n

theorem streamTaken_pixels (spi : SpiDevice) (n : Nat) :
    streamTaken 16 (emulatedMaxSrcChunk spi (2 * n) 4096)
      (2 * n) = 2 * pixelsTaken spi n := by
  have hBlocks := maxSrcChunk_blocks
    (mipiDbiSpiClampSize spi 4096) (2 * n)
  have hEven : emulatedMaxSrcChunk spi (2 * n) 4096 % 2 = 0 := by
    unfold emulatedMaxSrcChunk
    omega
  rw [streamTaken_sixteen hEven (by omega)]
  change (if TailLost spi n then 2 * n - 2 else 2 * n) = _
  unfold pixelsTaken
  split <;> omega

theorem pixelsTaken_le (spi : SpiDevice) (n : Nat) :
    pixelsTaken spi n ≤ n := by
  unfold pixelsTaken
  split <;> omega

/- The pixels of a memory write arrive up to that one. -/
theorem regmapRawWrite_serial_pixels
    (hEnv : env.Delivers)
    (spi : SpiDevice) (writeOnly : Bool)
    (hNine : tinydrmSpiBpwSupported spi 9 = false)
    (hRoom : 9 ≤ mipiDbiSpiClampSize spi 4096)
    {w : World} (hTx : w.TxOk)
    (val : Ptr) (n : Nat) :
    ∃ w' k, regmapRawWrite env
        (mipiDbiSpiInit spi false writeOnly)
        MIPI_DCS_WRITE_MEMORY_START val (2 * n) w = .ok 0 w' ∧
      SerialStep w w'
        (padded k (commandFrame 0x2C
          (bigEndianBytes
            (w.pixels val (pixelsTaken spi n))))) := by
  rcases regmapRawWrite_words hEnv spi writeOnly hNine hRoom
      hTx MIPI_DCS_WRITE_MEMORY_START val (2 * n) with
    ⟨p, w', k, hRun, hCopies, hStep⟩
  have hWidth : valWidth (mipiDbiSpiInit spi false writeOnly)
      MIPI_DCS_WRITE_MEMORY_START.toUInt8 = 16 := if_pos rfl
  have hLe := pixelsTaken_le spi n
  have hPixels : w.pixels p (pixelsTaken spi n) =
      w.pixels val (pixelsTaken spi n) := by
    apply List.map_congr_left
    intro i hi
    have hLess := List.mem_range.mp hi
    rw [World.loadU16, World.loadU16,
      hCopies.bytes _ (by omega), hCopies.bytes _ (by omega)]
  have hData : wordBytes 16 w p (2 * pixelsTaken spi n) =
      bigEndianBytes (w.pixels val (pixelsTaken spi n)) := by
    rw [← hPixels, ← pixelBytes_eq_bigEndianBytes,
      pixelBytes_eq_exchanged w p (by omega)]
    simp [wordBytes, wordOrder, Chunking.slice, exchanged]
  rw [hWidth, streamTaken_pixels, hData] at hStep
  exact ⟨w', k, hRun, hStep⟩

end Utinydrm
