import Utinydrm.MipiDbi.Option3
import Utinydrm.Spi.Pixels

/-
  The order in which the bytes of pixels are clocked out.

  A panel expects the high byte of a pixel first. When the
  controller does not send 16-bit words the bytes are
  exchanged in the transmit buffer; when it does they are
  left as they are, but spidev is told to send 8-bit words.

  Key definitions include:
    * `TxBufReady`
    * `SendsPixels`

  Main declarations:
    * `tinydrmSpiTransfer_swapped`
    * `pixel_order_iff`
-/

------------------------------------------------------------
-- The Transfer
------------------------------------------------------------

namespace Utinydrm

variable {env : Env}

theorem World.dmaByte_txBuf
    {w : World} {buf : UdmaBuf}
    (hBuf : w.txBuf = .valid buf) (offset : Nat) :
    w.dmaByte env buf.fd offset = w.mem (buf.map + offset) := by
  unfold World.dmaByte
  rw [hBuf]
  cases w.fbs.find? (·.bufFd = buf.fd) <;> simp

/- One round of the loop over a chunk that is exchanged. -/
def swappedChunk
    (env : Env) (spi : SpiDevice) (speedHz : Nat)
    (p : Ptr) (dst offset chunk : Nat) : Driver Int := do
  let txBuf ←
    chunkSource true (some dst) (p.add offset) chunk
  spiSync env spi
    { first :=
        { txBuf := some txBuf
          len := chunk
          bitsPerWord := 8
          speedHz := speedHz } }

/- The source and what decides where it is sent from stay. -/
structure SwapFrame (buf : UdmaBuf) (w s : World) : Prop where
  fbs : s.fbs = w.fbs
  txBuf : s.txBuf = w.txBuf
  memory : SameOutside buf.map buf.mapSize w s

theorem SwapFrame.refl (buf : UdmaBuf) (w : World) :
    SwapFrame buf w w :=
  ⟨rfl, rfl, fun _ _ => rfl⟩

section Swapped

variable (hBus : ∀ n, env.spidev n = none)
variable (spi : SpiDevice) (speedHz : Nat)
variable {w : World} {p : Ptr} {len : Nat} {buf : UdmaBuf}
variable (hBuf : w.txBuf = .valid buf) (hFd : buf.fd ≠ 0)
variable (hFbs : w.OutsideFbs (.mapped buf.map))
variable (hApart : p.Apart len buf.map buf.mapSize)

include hBus hBuf hFd hFbs hApart

/-
  A chunk whose words are exchanged into the transmit buffer
  and sent from there.
-/
theorem swappedChunk_clocks
    {q : Chunking.Piece}
    (hEven : 2 ∣ q.offset ∧ 2 ∣ q.size)
    (hInside : q.offset + q.size ≤ len)
    (hPos : 0 < q.size) (hRoom : q.size ≤ buf.mapSize)
    {s : World} (hFrame : SwapFrame buf w s) :
    ∃ s', swappedChunk env spi speedHz p buf.map q.offset
        q.size s = .ok 0 s' ∧
      SwapFrame buf w s' ∧
      s'.clocked = s.clocked ++
        Chunking.slice (exchanged w p) q := by
  let t := s.swapWords (p.add q.offset) buf.map (q.size / 2)
  rcases s.swapWords_eq (p.add q.offset) buf.map
      (q.size / 2) with ⟨mem, hSwapped⟩
  rcases swapWords_payload hApart hFrame.memory hEven hInside
      hRoom with ⟨hBytes, hMemory⟩
  have hTxBuf : t.txBuf = .valid buf := by
    simp only [t, hSwapped]
    exact hFrame.txBuf.trans hBuf
  have hSameFbs : t.fbs = w.fbs := by
    simp only [t, hSwapped]
    exact hFrame.fbs
  have hClocked : t.clocked = s.clocked := by
    simp [t, hSwapped, World.clocked, World.wire]
  have hOutside : t.OutsideFbs (.mapped buf.map) := by
    rw [World.OutsideFbs, hSameFbs]
    exact hFbs
  have hContains :
      buf.contains (.mapped buf.map) = true := by
    simp [UdmaBuf.contains, Ptr.within]
    omega
  have hSource : chunkSource true (some buf.map)
      (p.add q.offset) q.size s = .ok (.mapped buf.map) t :=
    rfl
  let tr : SpiTransfer :=
    { txBuf := some (.mapped buf.map)
      len := q.size
      bitsPerWord := 8
      speedHz := speedHz }
  have hPtr : tr.txBuf = some (.mapped buf.map) := rfl
  have hSync : spiSync env spi { first := tr } t = _ :=
    (spiSync_txBuf spi hPtr hTxBuf hOutside hContains).trans
      (spidev_eq _ t)
  rw [hBus] at hSync
  refine ⟨_, (Effect.bind_of_ok hSource).trans hSync,
    ⟨hSameFbs, hTxBuf.trans hBuf.symm, hMemory⟩, ?_⟩
  rw [World.clocked_afterSpidev hBus, hClocked, ← hBytes]
  congr 1
  simp only [World.mosi, if_neg hFd, iocOf, World.bytes,
    World.dmaByte_txBuf hTxBuf, Ptr.diff, Nat.sub_self,
    Nat.zero_mod, Nat.zero_add]
  rfl

/-
  A transfer of 16-bit words to a controller without them
  clocks out the bytes of every word exchanged.
-/
theorem tinydrmSpiTransfer_swapped
    (hNot : tinydrmSpiBpwSupported spi 16 = false)
    {maxChunk : Nat}
    (hMax : 0 < maxChunk) (hEvenMax : maxChunk % 2 = 0)
    (hEven : len % 2 = 0)
    (hSize : maxChunk ≤ buf.mapSize) :
    ∃ w', tinydrmSpiTransfer env spi speedHz none 16 p len
        (some buf.map) maxChunk w = .ok 0 w' ∧
      w'.clocked = w.clocked ++
        Chunking.slice (exchanged w p) ⟨0, len⟩ := by
  have hSwap : swapNeeded spi 16 = true := by
    simp [swapNeeded, hNot, tinydrmGetMachineEndian]
  have hTiles := Chunking.tiles_pieces hMax len
  have hBody : ∀ q ∈ Chunking.pieces maxChunk len,
      ∀ s, SwapFrame buf w s →
      ∃ s', swappedChunk env spi speedHz p buf.map q.offset
          q.size s = .ok 0 s' ∧
        SwapFrame buf w s' ∧
        s'.clocked = s.clocked ++
          Chunking.slice (exchanged w p) q := by
    intro q hq s hFrame
    have hBounds := hTiles.offset_bounds hq
    have hFits := Chunking.size_le_of_mem_pieces hMax hq
    exact swappedChunk_clocks hBus spi speedHz hBuf hFd hFbs
      hApart
      (Chunking.unit_dvd_of_mem_pieces hMax
        (Nat.dvd_of_mod_eq_zero hEvenMax)
        (Nat.dvd_of_mod_eq_zero hEven) hq)
      (by omega) (Chunking.size_pos_of_mem_pieces hMax hq)
      (by omega) hFrame
  rcases Chunking.runPieces_emits (SwapFrame buf w)
      World.clocked (Chunking.slice (exchanged w p))
      (swappedChunk env spi speedHz p buf.map) _ hBody
      (.refl buf w) with ⟨w', hRun, _, hClocked⟩
  refine ⟨w', ?_, ?_⟩
  · rw [← hRun, tinydrmSpiTransfer, if_neg (by decide)]
    simp only [hSwap, Option.isNone_some, Bool.and_false,
      Bool.false_eq_true, if_false, if_true, chunkMessage,
      Chunking.chunkLoop_eq_runPieces _ hMax]
    rfl
  · rw [hClocked, hTiles.flatMap_slice, Nat.sub_zero]

end Swapped

/- The words sent as they are. -/
theorem tinydrmSpiTransfer_unswapped
    (hBus : ∀ n, env.spidev n = none)
    {spi : SpiDevice} (speedHz : Nat) (swapBuf : Option Nat)
    (hSupported : tinydrmSpiBpwSupported spi 16 = true)
    {w : World} {p : Ptr} {len maxChunk : Nat}
    (hMax : 0 < maxChunk) (hTx : w.TxOk)
    (hOutside : w.Outside p len) :
    ∃ w', tinydrmSpiTransfer env spi speedHz none 16 p len
        swapBuf maxChunk w = .ok 0 w' ∧
      w'.clocked = w.clocked ++ w.bytes p len := by
  rcases tinydrmSpiTransfer_verbatim env spi speedHz swapBuf
      (sentAsIs_sixteen hSupported) hMax hTx hOutside with
    ⟨ret, w', hRun, _, ⟨hZero, hWire⟩ |
      ⟨_, ⟨t, e, hFailed, _⟩, _⟩⟩
  · refine ⟨w', by rw [hRun, hZero], ?_⟩
    simp [World.clocked, hWire, labelled, Function.comp_def]
  · rw [hBus] at hFailed
    cases hFailed

end Utinydrm

------------------------------------------------------------
-- The Write
------------------------------------------------------------

namespace Utinydrm

variable {env : Env}

/- After a command byte that was sent. -/
def World.afterCommand
    (env : Env) (w : World)
    (spi : SpiDevice) (reg : Nat → UInt8) : World :=
  (w.afterGpio env .dc false).afterSpidev env
    [iocOf spi
      { txBuf := some (.heap reg)
        len := 1
        bitsPerWord := 8 }]

section Send

variable (hBus : ∀ n, env.spidev n = none)
variable (mspi : MipiDbiSpi) (hChunk : 0 < mspi.chunkSize)
variable (txBuf width : Nat) (reg : Nat → UInt8) (p : Ptr)
variable {w : World}

include hBus

theorem World.clocked_afterCommand :
    (w.afterCommand env mspi.spi reg).clocked =
      w.clocked ++ [reg 0] := by
  rw [World.afterCommand, World.clocked_afterSpidev hBus,
    World.clocked_afterGpio, World.mosi_iocOf _ _ rfl]
  rfl

variable (hTx : w.TxOk)

include hChunk hTx

theorem tinydrmSpiTransfer_command :
    tinydrmSpiTransfer env mspi.spi 0 none 8 (.heap reg) 1
        (some txBuf) mspi.chunkSize
        (w.afterGpio env .dc false) =
      .ok 0 (w.afterCommand env mspi.spi reg) := by
  rw [tinydrmSpiTransfer_byte (w := w.afterGpio env .dc false)
    mspi.spi reg hChunk hTx, spidev_eq, hBus]
  rfl

/- A write without parameters is done after its command. -/
theorem mipiDbiSpi3Send_empty :
    mipiDbiSpi3Send env mspi txBuf width (.heap reg) (some p)
        0 w =
      .ok 0 (w.afterCommand env mspi.spi reg) :=
  mipiDbiSpi3Send_command _ _ _
    (tinydrmSpiTransfer_command hBus mspi hChunk txBuf reg hTx)
    (Or.inr (Or.inr rfl))

/- Parameters are sent with the line set for them. -/
theorem mipiDbiSpi3Send_parameters
    {len : Nat} (hLen : len ≠ 0) :
    mipiDbiSpi3Send env mspi txBuf width (.heap reg) (some p)
        len w =
      tinydrmSpiTransfer env mspi.spi 0 none width p len
        (some txBuf) mspi.chunkSize
        ((w.afterCommand env mspi.spi reg).afterGpio env .dc
          true) :=
  mipiDbiSpi3Send_data _ _
    (tinydrmSpiTransfer_command hBus mspi hChunk txBuf reg hTx)
    p hLen

end Send

/-
  The transmit buffer the write gets: a mapped dma-buf that
  is large enough, whose descriptor is not that of the
  standard input, and outside the framebuffers.
-/
structure TxBufReady
    (env : Env) (mspi : MipiDbiSpi) (w : World)
    (buf : UdmaBuf) (w' : World) : Prop where
  asked :
    mipiDbiSpi3TxBuf env mspi w = .ok (some buf.map) w'
  global : w'.txBuf = .valid buf
  large : mspi.chunkSize ≤ buf.mapSize
  fd : buf.fd ≠ 0
  outside : w.OutsideFbs (.mapped buf.map)

/-
  The write returns, having clocked out its command and the
  high byte and then the low byte of every pixel.
-/
def SendsPixels
    (env : Env) (mspi : MipiDbiSpi) (w : World)
    (reg : Nat → UInt8) (p : Ptr) (len : Nat) : Prop :=
  ∃ ret w', mipiDbiSpi3GatherWrite env mspi (.heap reg) 1
      (some p) len w = .ok ret w' ∧
    w'.clocked = w.clocked ++ reg 0 :: pixelBytes w p len

/- The chunks of the interface hold whole pixels. -/
theorem mipiDbiSpiInit_chunkSize
    (spi : SpiDevice) (dc writeOnly : Bool) :
    0 < (mipiDbiSpiInit spi dc writeOnly).chunkSize ∧
      (mipiDbiSpiInit spi dc writeOnly).chunkSize % 2 = 0 := by
  refine ⟨tinydrmSpiMaxTransferSize_pos spi 0, ?_⟩
  have hWhole : ∀ n : Nat,
      (if n / 4 * 4 < 4 then 4 else n / 4 * 4) % 2 = 0 := by
    intro n
    split <;> omega
  exact hWhole _

/- The pixels, from outside the framebuffers and the buffer. -/
theorem pixels_clocked
    (hBus : ∀ n, env.spidev n = none)
    (spi : SpiDevice) {maxChunk : Nat}
    (hMax : 0 < maxChunk ∧ maxChunk % 2 = 0)
    {p : Ptr} {len : Nat} (hEven : len % 2 = 0)
    {w : World} {buf : UdmaBuf}
    (hBuf : w.txBuf = .valid buf) (hFd : buf.fd ≠ 0)
    (hLarge : maxChunk ≤ buf.mapSize)
    (hOutside : w.OutsideFbs (.mapped buf.map))
    (hFbs : ∀ i < len, w.OutsideFbs (p.add i))
    (hApart : p.Apart len buf.map buf.mapSize) :
    ∃ w', tinydrmSpiTransfer env spi 0 none 16 p len
        (some buf.map) maxChunk w = .ok 0 w' ∧
      w'.clocked = w.clocked ++
        if tinydrmSpiBpwSupported spi 16 then
          w.bytes p len
        else
          pixelBytes w p len := by
  cases hSupported : tinydrmSpiBpwSupported spi 16 with
  | true =>
      have hTx : w.TxOk := World.txOk_of_valid hBuf
      have hSource : w.Outside p len := by
        intro i hi
        refine ⟨hFbs i hi, fun buf' hBuf' => ?_⟩
        cases hBuf.symm.trans hBuf'
        exact hApart.not_contains hi
      exact tinydrmSpiTransfer_unswapped hBus 0 (some buf.map)
        hSupported hMax.1 hTx hSource
  | false =>
      rw [pixelBytes_eq_exchanged w p hEven]
      exact tinydrmSpiTransfer_swapped hBus spi 0 hBuf hFd
        hOutside hApart hSupported hMax.1 hMax.2 hEven hLarge

/- With its buffer, a write of pixels sends 16-bit words. -/
theorem mipiDbiSpi3GatherWrite_pixels
    (mspi : MipiDbiSpi)
    {reg : Nat → UInt8} (hWidth : valWidth mspi (reg 0) = 16)
    (p : Ptr) (len : Nat)
    {w s : World} {buf : UdmaBuf}
    (hReady : TxBufReady env mspi w buf s) :
    mipiDbiSpi3GatherWrite env mspi (.heap reg) 1 (some p) len
        w =
      mipiDbiSpi3Send env mspi buf.map 16 (.heap reg)
        (some p) len s := by
  rw [mipiDbiSpi3GatherWrite_buf _ _ _ hReady.asked]
  simp only [World.byte, hWidth]

/-
  The bytes the write clocks out after the command: those of
  the buffer, exchanged when 16-bit words are not supported.
-/
theorem mipiDbiSpi3GatherWrite_clocks
    (hBus : ∀ n, env.spidev n = none)
    (spi : SpiDevice) (writeOnly : Bool)
    (reg : Nat → UInt8)
    (hReg : (reg 0).toNat = MIPI_DCS_WRITE_MEMORY_START)
    {p : Ptr} {len : Nat} (hEven : len % 2 = 0)
    {w s : World} {buf : UdmaBuf}
    (hReady : TxBufReady env
      (mipiDbiSpiInit spi true writeOnly) w buf s)
    (hFbs : ∀ i < len, w.OutsideFbs (p.add i))
    (hApart : p.Apart len buf.map buf.mapSize) :
    ∃ w', mipiDbiSpi3GatherWrite env
        (mipiDbiSpiInit spi true writeOnly) (.heap reg) 1
        (some p) len w = .ok 0 w' ∧
      w'.clocked = w.clocked ++ reg 0 ::
        if tinydrmSpiBpwSupported spi 16 then
          w.bytes p len
        else
          pixelBytes w p len := by
  let mspi := mipiDbiSpiInit spi true writeOnly
  have hChunk := mipiDbiSpiInit_chunkSize spi true writeOnly
  have hTx : s.TxOk := World.txOk_of_valid hReady.global
  -- the state asking for the buffer leads to
  rcases mipiDbiSpi3TxBuf_returns env mspi w with
    ⟨txBuf, s', hAsked, hSameFbs, hSameMem, hQuiet, _⟩
  cases hAsked.symm.trans hReady.asked
  have hClocked : s.clocked = w.clocked := by
    rw [World.clocked, hQuiet.wire, World.clocked]
  have hWidth : valWidth mspi (reg 0) = 16 := by
    simp [valWidth, mspi, mipiDbiSpiInit, hReg]
  rw [mipiDbiSpi3GatherWrite_pixels mspi hWidth p len hReady,
    ← hClocked]
  rcases Nat.eq_zero_or_pos len with hLen | hLen
  · subst hLen
    refine ⟨_, mipiDbiSpi3Send_empty hBus mspi hChunk.1
      buf.map 16 reg p hTx, ?_⟩
    rw [World.clocked_afterCommand hBus]
    split <;> rfl
  -- the pixels follow, with the line high
  let t :=
    (s.afterCommand env mspi.spi reg).afterGpio env .dc true
  rw [mipiDbiSpi3Send_parameters hBus mspi hChunk.1 buf.map 16
    reg p hTx hLen.ne']
  have hCommand : t.clocked = s.clocked ++ [reg 0] := by
    rw [World.clocked_afterGpio,
      World.clocked_afterCommand hBus]
  have hBytes : t.byte p = w.byte p := by
    cases p with
    | heap bytes => rfl
    | mapped addr =>
        funext i
        exact congrFun hSameMem (addr + i)
  have hSameOutside : ∀ q, w.OutsideFbs q → t.OutsideFbs q :=
    fun q hOut ufb hMem => hOut ufb (hSameFbs ▸ hMem)
  rcases pixels_clocked hBus spi hChunk hEven (w := t)
      hReady.global hReady.fd hReady.large
      (hSameOutside _ hReady.outside)
      (fun i hi => hSameOutside _ (hFbs i hi)) hApart with
    ⟨w', hRun, hSent⟩
  refine ⟨w', hRun, ?_⟩
  rw [hSent, hCommand, List.append_assoc, World.bytes, hBytes,
    pixelBytes_congr hBytes]
  rfl

/-
  The high byte of every pixel goes out first if and only if
  16-bit words are not supported or the two bytes of every
  pixel are the same.
-/
theorem pixel_order_iff
    (env : Env) (hBus : ∀ n, env.spidev n = none)
    (spi : SpiDevice) (writeOnly : Bool)
    (reg : Nat → UInt8)
    (hReg : (reg 0).toNat = MIPI_DCS_WRITE_MEMORY_START)
    (p : Ptr) (len : Nat) (hEven : len % 2 = 0)
    (w s : World) (buf : UdmaBuf)
    (hReady : TxBufReady env
      (mipiDbiSpiInit spi true writeOnly) w buf s)
    (hFbs : ∀ i < len, w.OutsideFbs (p.add i))
    (hApart : p.Apart len buf.map buf.mapSize) :
    SendsPixels env (mipiDbiSpiInit spi true writeOnly) w reg
        p len ↔
      tinydrmSpiBpwSupported spi 16 = false ∨
        ∀ i < len / 2,
          w.byte p (2 * i) = w.byte p (2 * i + 1) := by
  rcases mipiDbiSpi3GatherWrite_clocks hBus spi writeOnly reg
      hReg hEven hReady hFbs hApart with
    ⟨w', hRun, hClocked⟩
  have hSends :
      SendsPixels env (mipiDbiSpiInit spi true writeOnly) w reg
          p len ↔
        w'.clocked =
          w.clocked ++ reg 0 :: pixelBytes w p len := by
    constructor
    · rintro ⟨ret, w₂, hRun₂, hSent⟩
      cases hRun.symm.trans hRun₂
      exact hSent
    · intro hSent
      exact ⟨0, w', hRun, hSent⟩
  rw [hSends, hClocked, List.append_cancel_left_eq,
    List.cons_eq_cons, ← bytes_eq_pixelBytes_iff w p hEven]
  cases tinydrmSpiBpwSupported spi 16 <;> simp

/- The buffer a kernel that grants everything gives first. -/
def UdmaBuf.granted : UdmaBuf := ⟨7, 6 * 2 ^ 20, 153600⟩

/- A red pixel on such a device, as a first write. -/
theorem pixel_order_eightBit :
    SendsPixels Env.granting
      (mipiDbiSpiInit eightBitSpi true false)
      (World.atProbe (-1)) (fun _ => 0x2C)
      (.ofBytes [0x00, 0xF8] fun _ => 0) 2 := by
  have hReady : ∃ s, TxBufReady Env.granting
      (mipiDbiSpiInit eightBitSpi true false)
      (World.atProbe (-1)) .granted s :=
    ⟨_, rfl, rfl, by decide, by decide,
      fun _ hMem => by cases hMem⟩
  rcases hReady with ⟨s, hReady⟩
  exact (pixel_order_iff Env.granting (fun _ => rfl)
    eightBitSpi false (fun _ => 0x2C) rfl
    (.ofBytes [0x00, 0xF8] fun _ => 0) 2 rfl
    (World.atProbe (-1)) s .granted hReady
    (fun _ _ _ hMem => by cases hMem) trivial).mpr
    (Or.inl rfl)

/- On the device of `main` the low byte goes out first. -/
theorem pixel_order_sixteenBit :
    ¬ ∀ (env : Env) (spi : SpiDevice) (writeOnly : Bool)
      (reg : Nat → UInt8) (p : Ptr) (len : Nat)
      (w s : World) (buf : UdmaBuf),
      (∀ n, env.spidev n = none) →
      (reg 0).toNat = MIPI_DCS_WRITE_MEMORY_START →
      len % 2 = 0 →
      TxBufReady env (mipiDbiSpiInit spi true writeOnly) w buf
        s →
      (∀ i < len, w.OutsideFbs (p.add i)) →
      p.Apart len buf.map buf.mapSize →
      SendsPixels env (mipiDbiSpiInit spi true writeOnly) w
        reg p len := by
  intro hClaim
  have hReady : ∃ s, TxBufReady Env.granting
      (mipiDbiSpiInit mainSpi true false)
      (World.atProbe (-1)) .granted s :=
    ⟨_, rfl, rfl, by decide, by decide,
      fun _ hMem => by cases hMem⟩
  rcases hReady with ⟨s, hReady⟩
  rcases hClaim Env.granting mainSpi false (fun _ => 0x2C)
      (.ofBytes [0x00, 0xF8] fun _ => 0) 2
      (World.atProbe (-1)) s .granted (fun _ => rfl) rfl rfl
      hReady (fun _ _ _ hMem => by cases hMem) trivial with
    ⟨ret, w', hRun, hSent⟩
  have hLowFirst : ∃ s', mipiDbiSpi3GatherWrite Env.granting
      (mipiDbiSpiInit mainSpi true false)
      (.heap fun _ => 0x2C) 1
      (some (.ofBytes [0x00, 0xF8] fun _ => 0)) 2
      (World.atProbe (-1)) = .ok 0 s' ∧
      s'.clocked = [0x2C, 0x00, 0xF8] :=
    ⟨_, rfl, rfl⟩
  rcases hLowFirst with ⟨s', hRun', hLow⟩
  cases hRun.symm.trans hRun'
  rw [hLow] at hSent
  revert hSent
  decide

end Utinydrm
