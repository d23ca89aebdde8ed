import Utinydrm.MipiDbi.WriteFrame
import Utinydrm.Spi.ChunkedFlush
import Utinydrm.Tinydrm.Xrgb8888

/-
  The frames that register writes put on the wire of option 3
  when every message is delivered.

  The pixels of a memory write arrive high byte first. They
  are the ones in memory when their bytes were exchanged in
  the transmit buffer, and have their bytes the wrong way
  round when the controller was trusted with 16-bit words.

  Key definitions include:
    * `BuffersReady`
    * `PixelSource`
    * `sentPixel`

  Main declarations:
    * `tinydrmSpiTransfer_pixels`
    * `regmapRawWrite_pixels`
    * `mipiDbiWriteBuf_frame`
-/

------------------------------------------------------------
-- Pixels On The Wire
------------------------------------------------------------

namespace Utinydrm

/- Pixels as a panel expects them, the high byte first. -/
def bigEndianBytes (pixels : List UInt16) : List UInt8 :=
  pixels.flatMap fun (x : UInt16) =>
    [(x >>> 8).toUInt8, x.toUInt8]

/- A pixel that was sent, as it arrives. -/
def sentPixel (spi : SpiDevice) (pixel : UInt16) : UInt16 :=
  if tinydrmSpiBpwSupported spi 16 then swab16 pixel
  else pixel

/- The pixels behind a pointer. -/
def World.pixels (w : World) (p : Ptr) (n : Nat) :
    List UInt16 :=
  (List.range n).map (w.loadU16 p)

/- Their bytes as they are arrive exchanged. -/
theorem bytes_eq_bigEndianBytes
    (w : World) (p : Ptr) (n : Nat) :
    w.bytes p (2 * n) =
      bigEndianBytes ((w.pixels p n).map swab16) := by
  rw [World.bytes_eq_pixels, bigEndianBytes, World.pixels,
    List.map_map, List.flatMap_map]
  apply List.flatMap_congr
  intro k _
  simp only [Function.comp_apply, World.loadU16, swab16_le16,
    le16_lo, le16_hi]

/- Exchanged they arrive as they are. -/
theorem pixelBytes_eq_bigEndianBytes
    (w : World) (p : Ptr) (n : Nat) :
    pixelBytes w p (2 * n) =
      bigEndianBytes (w.pixels p n) := by
  have hHalf : 2 * n / 2 = n := by omega
  rw [pixelBytes, hHalf, bigEndianBytes, World.pixels,
    List.flatMap_map]

end Utinydrm

------------------------------------------------------------
-- Buffers
------------------------------------------------------------

namespace Utinydrm

/-
  The transmit buffer was created earlier and has room for a
  chunk. The kernel gave the buffers that are in use mappings
  that do not overlap and descriptors that differ, and none
  to share when it is trusted with 16-bit words.
-/
structure BuffersReady
    (mspi : MipiDbiSpi) (w : World) (buf : UdmaBuf) : Prop where
  asked : w.mspiTxBuf = some buf.map
  global : w.txBuf = .valid buf
  large : mspi.chunkSize ≤ buf.mapSize
  fd : buf.fd ≠ 0
  disjoint : w.MappingsDisjoint
  apart : ∀ ufb ∈ w.fbs,
    (Ptr.mapped ufb.map).Apart ufb.mapSize.toNat buf.map
      buf.mapSize
  fds : w.fbs.Pairwise fun a b => a.bufFd ≠ b.bufFd
  fdsApart : ∀ ufb ∈ w.fbs,
    ufb.bufFd ≠ 0 ∧ ufb.bufFd ≠ buf.fd
  own : tinydrmSpiBpwSupported mspi.spi 16 = true →
    w.bufFd < 0

/-
  Where pixels are sent from: memory of the process, or a
  range of the mapping of a registered framebuffer.
-/
inductive PixelSource (w : World) (len : Nat) : Ptr → Prop
| heap (bytes : Nat → UInt8) : PixelSource w len (.heap bytes)
| framebuffer (ufb : UtinydrmFb) (offset : Nat) :
    ufb ∈ w.fbs → offset + len ≤ ufb.mapSize.toNat →
    PixelSource w len (.mapped (ufb.map + offset))

namespace BuffersReady

variable {mspi : MipiDbiSpi} {w w' : World} {buf : UdmaBuf}

/- It is a matter of a few fields of the state. -/
theorem of_same
    (hReady : BuffersReady mspi w buf)
    (hFbs : w'.fbs = w.fbs) (hBufFd : w'.bufFd = w.bufFd)
    (hTxBuf : w'.txBuf = w.txBuf)
    (hAsked : w'.mspiTxBuf = w.mspiTxBuf) :
    BuffersReady mspi w' buf where
  asked := hAsked.trans hReady.asked
  global := hTxBuf.trans hReady.global
  large := hReady.large
  fd := hReady.fd
  disjoint := by
    rw [World.MappingsDisjoint, hFbs]
    exact hReady.disjoint
  apart := by
    rw [hFbs]
    exact hReady.apart
  fds := by
    rw [hFbs]
    exact hReady.fds
  fdsApart := by
    rw [hFbs]
    exact hReady.fdsApart
  own := by
    rw [hBufFd]
    exact hReady.own

theorem txOk (hReady : BuffersReady mspi w buf) : w.TxOk :=
  World.txOk_of_valid hReady.global

/- What a bus function leaves alone is enough. -/
theorem of_stays
    (hReady : BuffersReady mspi w buf)
    (hBus : BusStep w w') (hStays : Stays buf w w') :
    BuffersReady mspi w' buf :=
  hReady.of_same hBus.fbs hBus.bufFd hStays.txBuf
    (hStays.mspiTxBuf.trans hReady.asked.symm)

/- Its transmit buffer lies outside the framebuffers. -/
theorem outsideFbs
    (hReady : BuffersReady mspi w buf)
    (hPos : 0 < mspi.chunkSize) :
    w.OutsideFbs (.mapped buf.map) := by
  intro ufb hMem
  have hLarge := hReady.large
  have hApart := hReady.apart ufb hMem
  simp only [Ptr.Apart] at hApart
  simp only [UtinydrmFb.contains, Ptr.within,
    Bool.and_eq_false_iff, decide_eq_false_iff_not]
  omega

/- The source of pixels lies outside the transmit buffer. -/
theorem source_apart
    (hReady : BuffersReady mspi w buf)
    {p : Ptr} {len : Nat} (hSource : PixelSource w len p) :
    p.Apart len buf.map buf.mapSize := by
  cases hSource with
  | heap bytes => trivial
  | framebuffer ufb offset hMem hInside =>
      have hApart := hReady.apart ufb hMem
      simp only [Ptr.Apart] at hApart ⊢
      omega

/- The bytes of a framebuffer's dma-buf are in its mapping. -/
theorem dmaByte_framebuffer
    (hReady : BuffersReady mspi w buf)
    {env : Env} {ufb : UtinydrmFb} (hMem : ufb ∈ w.fbs)
    (offset : Nat) :
    w.dmaByte env ufb.bufFd offset =
      w.mem (ufb.map + offset) := by
  have hFind : w.fbs.find?
      (fun other => other.bufFd = ufb.bufFd) = some ufb := by
    cases hFound : w.fbs.find?
        (fun other => other.bufFd = ufb.bufFd) with
    | none =>
        have hNone := List.find?_eq_none.mp hFound ufb hMem
        exact absurd (decide_eq_true rfl) hNone
    | some other =>
        have hSame := List.find?_some hFound
        have hMemOther := List.mem_of_find?_eq_some hFound
        simp only [decide_eq_true_eq] at hSame
        by_contra hNe
        have : Std.Symm
            fun a b : UtinydrmFb => a.bufFd ≠ b.bufFd :=
          ⟨fun _ _ hDiffer => hDiffer.symm⟩
        exact hReady.fds.forall hMemOther hMem
          (fun hEq => hNe (by rw [hEq])) hSame
  have hOther := (hReady.fdsApart ufb hMem).2
  unfold World.dmaByte
  rw [hReady.global, hFind]
  simp only
  rw [if_neg hOther.symm]

end BuffersReady

end Utinydrm

------------------------------------------------------------
-- The Transfer Of Pixels
------------------------------------------------------------

namespace Utinydrm

variable {env : Env}

/- The lines do not change, so the bytes say what is sent. -/
theorem SendStep.wire_of_clocked
    {w w' : World} {data : List UInt8}
    (hStep : SendStep w w')
    (hClocked : w'.clocked = w.clocked ++ data) :
    w'.wire = w.wire ++ labelled (w.level .dc) data := by
  rcases hStep.wire with ⟨sent, hWire⟩
  have hSent : w'.clocked = w.clocked ++ sent := by
    simp [World.clocked, hWire, labelled, Function.comp_def]
  rw [hSent] at hClocked
  rw [hWire, List.append_cancel_left hClocked]

section Transfer

variable (hBus : ∀ n, env.spidev n = none)
variable {mspi : MipiDbiSpi} {w : World} {buf : UdmaBuf}
variable (hReady : BuffersReady mspi w buf)

include hBus hReady

/-
  A chunk of a framebuffer is sent from its dma-buf, which
  holds the bytes of the mapping.
-/
theorem spiSync_framebuffer_wire
    {ufb : UtinydrmFb} (hMem : ufb ∈ w.fbs)
    (hOwn : w.bufFd < 0) (speedHz bpw chunk offset : Nat)
    (hInside : offset < ufb.mapSize.toNat)
    {s : World} (hSame : World.SameBus w s) :
    ∃ s', spiSync env mspi.spi
        { first :=
            { txBuf := some (.mapped (ufb.map + offset))
              len := chunk
              bitsPerWord := bpw
              speedHz := speedHz } } s = .ok 0 s' ∧
      World.SameBus w s' ∧
      s'.wire = s.wire ++ labelled (w.level .dc)
        (w.bytes (.mapped (ufb.map + offset)) chunk) := by
  have hReady' : BuffersReady mspi s buf :=
    hReady.of_same hSame.fbs hSame.bufFd hSame.txBuf
      hSame.mspiTxBuf
  have hMem' : ufb ∈ s.fbs := by rwa [hSame.fbs]
  have hOffset : offset % 2 ^ 32 = offset := by
    have hSmall := ufb.mapSize.toNat_lt
    exact Nat.mod_eq_of_lt (by omega)
  have hNotShared : ¬ 0 ≤ s.bufFd := by
    rw [hSame.bufFd]
    omega
  rw [spiSync_framebuffer mspi.spi rfl
      (hReady'.disjoint.find?_eq hMem' hInside),
    if_neg hNotShared]
  let tr : SpiTransfer :=
    { txBuf := some (.mapped (ufb.map + offset))
      len := chunk
      bitsPerWord := bpw
      speedHz := speedHz }
  let utr : SpiIocTransfer :=
    { iocOf mspi.spi tr with
      txBuf := none
      txDmaFd := ufb.bufFd
      dmaOffset :=
        (Ptr.mapped (ufb.map + offset)).diff ufb.map % 2 ^ 32 }
  have hBytes : s.mosi env utr =
      w.bytes (.mapped (ufb.map + offset)) chunk := by
    simp only [utr, tr, World.mosi,
      if_neg (hReady'.fdsApart ufb hMem').1, iocOf, Ptr.diff,
      Nat.add_sub_cancel_left, hOffset]
    apply List.map_congr_left
    intro i _
    rw [hReady'.dmaByte_framebuffer hMem', hSame.mem,
      World.byte, Nat.add_assoc]
  refine ⟨s.afterSpidev env [utr], ?_,
    hSame.afterSpidev [utr], ?_⟩
  · rw [spidev_eq, hBus]
    rfl
  · rw [World.wire_afterSpidev, hBus, List.map_singleton,
      hBytes, hSame.level]
    simp [labelled]

/- So the whole of a range is sent as it is in memory. -/
theorem tinydrmSpiTransfer_framebuffer
    {ufb : UtinydrmFb} (hMem : ufb ∈ w.fbs)
    (hOwn : w.bufFd < 0)
    {bpw : Nat} (hAsIs : SentAsIs mspi.spi bpw)
    {offset len : Nat}
    (hInside : offset + len ≤ ufb.mapSize.toNat)
    (speedHz : Nat) (swapBuf : Option Nat)
    {maxChunk : Nat} (hMax : 0 < maxChunk) :
    ∃ w', tinydrmSpiTransfer env mspi.spi speedHz none bpw
        (.mapped (ufb.map + offset)) len swapBuf maxChunk w =
          .ok 0 w' ∧
      w'.wire = w.wire ++ labelled (w.level .dc)
        (w.bytes (.mapped (ufb.map + offset)) len) := by
  let p := Ptr.mapped (ufb.map + offset)
  have hTiles := Chunking.tiles_pieces hMax len
  have hBody : ∀ q ∈ Chunking.pieces maxChunk len,
      ∀ s, World.SameBus w s →
      ∃ s', spiSync env mspi.spi
          { first :=
              { txBuf := some (p.add q.offset)
                len := q.size
                bitsPerWord := bpw
                speedHz := speedHz } } s = .ok 0 s' ∧
        World.SameBus w s' ∧
        s'.wire = s.wire ++ Chunking.slice
          (fun i => (w.level .dc, w.byte p i)) q := by
    intro q hq s hSame
    have hBounds := hTiles.offset_bounds hq
    have hPos := Chunking.size_pos_of_mem_pieces hMax hq
    rcases spiSync_framebuffer_wire hBus hReady hMem hOwn
        speedHz bpw q.size (offset + q.offset) (by omega)
        hSame with
      ⟨s', hRun, hSame', hWire⟩
    have hPlace : p.add q.offset =
        .mapped (ufb.map + (offset + q.offset)) := by
      simp [p, Ptr.add, Nat.add_assoc]
    have hBytes : labelled (w.level .dc)
        (w.bytes (p.add q.offset) q.size) =
        Chunking.slice
          (fun i => (w.level .dc, w.byte p i)) q := by
      simp [labelled, World.bytes, Chunking.slice,
        World.byte_add]
    rw [← hBytes, hPlace]
    exact ⟨s', hRun, hSame', hWire⟩
  rcases Chunking.runPieces_emits (World.SameBus w) World.wire
      (Chunking.slice (fun i => (w.level .dc, w.byte p i)))
      (fun chunkOffset chunk =>
        spiSync env mspi.spi
          { first :=
              { txBuf := some (p.add chunkOffset)
                len := chunk
                bitsPerWord := bpw
                speedHz := speedHz } })
      _ hBody (World.SameBus.refl w) with
    ⟨w', hRun, _, hWire⟩
  refine ⟨w', ?_, ?_⟩
  · rw [hAsIs.transfer_eq,
      Chunking.chunkLoop_eq_runPieces _ hMax]
    exact hRun
  · rw [hWire, hTiles.flatMap_slice]
    simp [labelled, World.bytes, Chunking.slice, p]

/-
  Pixels are sent whole, each with its high byte first or, by
  a controller that is trusted with 16-bit words, last.
-/
theorem tinydrmSpiTransfer_pixels
    (hChunk : 0 < mspi.chunkSize ∧ mspi.chunkSize % 2 = 0)
    {p : Ptr} {n : Nat} (hSource : PixelSource w (2 * n) p) :
    ∃ w', tinydrmSpiTransfer env mspi.spi 0 none 16 p (2 * n)
        (some buf.map) mspi.chunkSize w = .ok 0 w' ∧
      w'.wire = w.wire ++ labelled (w.level .dc)
        (bigEndianBytes
          ((w.pixels p n).map (sentPixel mspi.spi))) := by
  cases hSupported : tinydrmSpiBpwSupported mspi.spi 16 with
  | true =>
      have hSent : (w.pixels p n).map (sentPixel mspi.spi) =
          (w.pixels p n).map swab16 := by
        simp [sentPixel, hSupported]
      rw [hSent, ← bytes_eq_bigEndianBytes]
      have hAsIs := sentAsIs_sixteen hSupported
      cases hSource with
      | heap bytes =>
          rcases tinydrmSpiTransfer_verbatim env mspi.spi 0
              (some buf.map) hAsIs hChunk.1 hReady.txOk
              (w.outside_heap bytes (2 * n)) with
            ⟨ret, w', hRun, _, ⟨hZero, hWire⟩ |
              ⟨_, ⟨t, e, hFailed, _⟩, _⟩⟩
          · rw [hZero] at hRun
            exact ⟨w', hRun, hWire⟩
          · rw [hBus] at hFailed
            cases hFailed
      | framebuffer ufb offset hMem hInside =>
          exact tinydrmSpiTransfer_framebuffer hBus hReady hMem
            (hReady.own hSupported) hAsIs hInside 0
            (some buf.map) hChunk.1
  | false =>
      have hSent : (w.pixels p n).map (sentPixel mspi.spi) =
          w.pixels p n := by
        have hId : sentPixel mspi.spi = id := by
          funext x
          simp [sentPixel, hSupported]
        rw [hId, List.map_id]
      rcases tinydrmSpiTransfer_swapped hBus mspi.spi 0
          hReady.global hReady.fd
          (hReady.outsideFbs hChunk.1)
          (hReady.source_apart hSource) hSupported hChunk.1
          hChunk.2 (by omega) hReady.large with
        ⟨w', hRun, hClocked⟩
      have hMeets := meets_tinydrmSpiTransfer
        (sendContract_sendStep env) mspi.spi 0 none 16 p
        (2 * n) (some buf.map) mspi.chunkSize w
        (fun hZero => absurd hZero hChunk.1.ne')
      refine ⟨w', hRun, ?_⟩
      rw [hSent, ← pixelBytes_eq_bigEndianBytes,
        pixelBytes_eq_exchanged w p (by omega)]
      exact (hMeets.of_ok hRun).wire_of_clocked hClocked

end Transfer

end Utinydrm

------------------------------------------------------------
-- One Write
------------------------------------------------------------

namespace Utinydrm

variable {env : Env}

/-
  From a state with the same buffers and memory, a transfer
  of parameters sends these bytes.
-/
def TransferSends
    (env : Env) (mspi : MipiDbiSpi) (buf : UdmaBuf)
    (w : World) (width : Nat) (p : Ptr) (len : Nat)
    (data : List UInt8) : Prop :=
  (len = 0 → data = []) ∧
  ∀ t : World, BuffersReady mspi t buf → t.fbs = w.fbs →
    t.mem = w.mem →
    ∃ t', tinydrmSpiTransfer env mspi.spi 0 none width p len
        (some buf.map) mspi.chunkSize t = .ok 0 t' ∧
      t'.wire = t.wire ++ labelled (t.level .dc) data

/- Another memory can hold the same bytes. -/
theorem World.byte_of_mem
    {w t : World} (hMem : t.mem = w.mem) (p : Ptr) :
    t.byte p = w.byte p := by
  cases p with
  | heap bytes => rfl
  | mapped addr =>
      funext i
      rw [World.byte, World.byte, hMem]

section Write

variable (hBus : ∀ n, env.spidev n = none)
variable {mspi : MipiDbiSpi} {w : World} {buf : UdmaBuf}

include hBus

/- Bytes from memory of the process are sent as they are. -/
theorem transferSends_bytes
    (hChunk : 0 < mspi.chunkSize)
    (bytes : Nat → UInt8) (len : Nat) :
    TransferSends env mspi buf w 8 (.heap bytes) len
      (w.bytes (.heap bytes) len) := by
  refine ⟨fun hLen => by rw [hLen]; rfl, ?_⟩
  intro t hReady _ _
  rcases tinydrmSpiTransfer_verbatim env mspi.spi 0
      (some buf.map) (sentAsIs_eight mspi.spi) hChunk
      hReady.txOk (t.outside_heap bytes len) with
    ⟨ret, t', hRun, _, ⟨hZero, hWire⟩ |
      ⟨_, ⟨n, e, hFailed, _⟩, _⟩⟩
  · rw [hZero] at hRun
    exact ⟨t', hRun, hWire⟩
  · rw [hBus] at hFailed
    cases hFailed

theorem transferSends_pixels
    (hChunk : 0 < mspi.chunkSize ∧ mspi.chunkSize % 2 = 0)
    {p : Ptr} {n : Nat} (hSource : PixelSource w (2 * n) p) :
    TransferSends env mspi buf w 16 p (2 * n)
      (bigEndianBytes
        ((w.pixels p n).map (sentPixel mspi.spi))) := by
  constructor
  · intro hLen
    have hNone : n = 0 := by omega
    rw [hNone]
    rfl
  · intro t hReady hFbs hMem
    have hSource' : PixelSource t (2 * n) p := by
      cases hSource with
      | heap bytes => exact .heap bytes
      | framebuffer ufb offset hListed hInside =>
          exact .framebuffer ufb offset (by rwa [hFbs])
            hInside
    have hPixels : w.pixels p n = t.pixels p n := by
      unfold World.pixels World.loadU16
      rw [World.byte_of_mem hMem]
    rw [hPixels]
    exact tinydrmSpiTransfer_pixels hBus hReady hChunk hSource'

variable (hDc : ∀ n, env.gpio .dc n = true)
variable (hReady : BuffersReady mspi w buf)
variable (hChunk : 0 < mspi.chunkSize)

include hDc

theorem World.wire_afterCommand
    (w : World) (spi : SpiDevice) (reg : Nat → UInt8) :
    (w.afterCommand env spi reg).wire =
      w.wire ++ [(false, reg 0)] := by
  rw [World.afterCommand, World.wire_afterSpidev, hBus,
    World.afterGpio_level_self (hDc _),
    (w.quiet_afterGpio .dc false).wire, List.map_singleton,
    World.mosi_iocOf _ _ rfl]
  rfl

include hReady hChunk

theorem mipiDbiSpi3GatherWrite_frame
    (reg : Nat → UInt8) {p : Ptr} {len : Nat}
    {data : List UInt8}
    (hSends : TransferSends env mspi buf w
      (valWidth mspi (reg 0)) p len data) :
    ∃ w', mipiDbiSpi3GatherWrite env mspi (.heap reg) 1
        (some p) len w = .ok 0 w' ∧
      w'.wire = w.wire ++ commandFrame (reg 0) data := by
  have hAsked : mipiDbiSpi3TxBuf env mspi w =
      .ok (some buf.map) w := by
    rw [mipiDbiSpi3TxBuf,
      Effect.bind_of_ok (Effect.get_apply w), hReady.asked]
    rfl
  have hCommand := World.wire_afterCommand hBus hDc w mspi.spi
    reg
  rw [mipiDbiSpi3GatherWrite_buf _ _ _ hAsked]
  rcases Nat.eq_zero_or_pos len with hLen | hLen
  · subst hLen
    refine ⟨_, mipiDbiSpi3Send_empty hBus mspi hChunk buf.map _
      reg p hReady.txOk, ?_⟩
    rw [hCommand, hSends.1 rfl]
    rfl
  · -- the parameters follow, with the line high
    let t :=
      (w.afterCommand env mspi.spi reg).afterGpio env .dc true
    have hQuiet : (w.afterCommand env mspi.spi reg).Quiet t :=
      World.quiet_afterGpio _ .dc true
    have hHigh : t.level .dc = true :=
      World.afterGpio_level_self (hDc _)
    rcases hSends.2 t (hReady.of_same rfl rfl rfl rfl) rfl rfl
      with ⟨t', hRun, hWire⟩
    refine ⟨t', ?_, ?_⟩
    · rw [mipiDbiSpi3Send_parameters hBus mspi hChunk buf.map _
        reg p hReady.txOk hLen.ne']
      exact hRun
    · rw [hWire, hHigh, hQuiet.wire, hCommand,
        List.append_assoc]
      rfl

/-
  A register write sends the frame of its command when what
  its parameters are sent from, or a copy of it, does so.
-/
theorem regmapRawWrite_frame
    (hOption3 : mspi.dc = true)
    (cmd : UInt8) {val : Ptr} {len : Nat} {data : List UInt8}
    (hSends : ∀ p, p.Copies val len w →
      TransferSends env mspi buf w (valWidth mspi cmd) p len
        data) :
    ∃ w', regmapRawWrite env mspi cmd.toNat val len w =
        .ok 0 w' ∧
      w'.wire = w.wire ++ commandFrame cmd data := by
  rcases regmapRawWrite_out env mspi cmd.toNat val len w with
    ⟨regs, p, hOut, hCmd, hCopies⟩
  have hReg : regs 0 = cmd := by simpa using hCmd
  have hSends' : TransferSends env mspi buf
      { w with workBuf := regs } (valWidth mspi (regs 0)) p len
      data := by
    rw [hReg]
    exact hSends p hCopies
  rcases mipiDbiSpi3GatherWrite_frame hBus hDc
      (w := { w with workBuf := regs })
      (hReady.of_same rfl rfl rfl rfl) hChunk regs hSends' with
    ⟨w', hRun, hWire⟩
  rw [hReg] at hWire
  refine ⟨w', ?_, hWire⟩
  rw [hOut, busGatherWrite, hOption3, if_pos rfl,
    Effect.bind_of_ok hRun, if_neg (by decide)]
  rfl

end Write

end Utinydrm

------------------------------------------------------------
-- Commands And Pixels
------------------------------------------------------------

namespace Utinydrm

variable {env : Env}

/- What is granted besides the delivery of the messages. -/
structure Env.Delivers (env : Env) : Prop where
  spidev : ∀ n, env.spidev n = none
  dcLine : ∀ n, env.gpio .dc n = true
  kmalloc : ∀ n, env.kmalloc n = true

section Init

variable (hEnv : env.Delivers)
variable (spi : SpiDevice) (writeOnly : Bool)
variable {w : World} {buf : UdmaBuf}
variable (hReady :
  BuffersReady (mipiDbiSpiInit spi true writeOnly) w buf)

include hEnv hReady

/- A command and its parameters. -/
theorem mipiDbiWriteBuf_frame
    (cmd : UInt8)
    (hCmd : cmd.toNat ≠ MIPI_DCS_WRITE_MEMORY_START)
    (parameters : List UInt8) :
    ∃ w', mipiDbiWriteBuf env
        (mipiDbiSpiInit spi true writeOnly) cmd.toNat
        parameters w = .ok 0 w' ∧
      w'.wire = w.wire ++ commandFrame cmd parameters := by
  let mspi := mipiDbiSpiInit spi true writeOnly
  have hChunk := (mipiDbiSpiInit_chunkSize spi true
    writeOnly).1
  have hEight : valWidth mspi cmd = 8 :=
    (valWidth_eq_eight_iff mspi cmd).mpr hCmd
  let s := w.record (.kmalloc (env.kmalloc w.now))
  have hQuiet : w.Quiet s :=
    .of_log _ rfl (by simp [Call.isMessage])
  let bytes := fun i => parameters.getD i (env.garbage w.now i)
  have hBytes : s.bytes (.heap bytes) parameters.length =
      parameters := by
    have hTake := s.bytes_ofBytes parameters
      (env.garbage w.now) (le_refl parameters.length)
    rwa [List.take_length] at hTake
  have hSends : ∀ p, p.Copies (.heap bytes) parameters.length
      s → TransferSends env mspi buf s (valWidth mspi cmd) p
        parameters.length parameters := by
    intro p hCopies
    rcases hCopies.exists_heap with ⟨copy, rfl⟩
    have hCopy : s.bytes (.heap copy) parameters.length =
        parameters := by
      rw [← hBytes, World.length_bytes]
      apply List.map_congr_left
      intro i hi
      exact hCopies.bytes i (List.mem_range.mp hi)
    have hTransfer : TransferSends env mspi buf s 8
        (.heap copy) parameters.length
        (s.bytes (.heap copy) parameters.length) :=
      transferSends_bytes hEnv.spidev hChunk copy _
    rwa [hCopy, ← hEight] at hTransfer
  have hReady' : BuffersReady mspi s buf :=
    hReady.of_same rfl rfl rfl rfl
  rcases regmapRawWrite_frame hEnv.spidev hEnv.dcLine
      hReady' hChunk rfl cmd hSends with
    ⟨w', hRun, hWire⟩
  rw [hQuiet.wire] at hWire
  refine ⟨w', ?_, hWire⟩
  rw [mipiDbiWriteBuf, Effect.bind_of_ok (Effect.get_apply w),
    kmalloc_bind, if_pos (hEnv.kmalloc _)]
  exact hRun

/- The pixels of a memory write, high byte first. -/
theorem regmapRawWrite_pixels
    {val : Ptr} {n : Nat}
    (hSource : PixelSource w (2 * n) val) :
    ∃ w', regmapRawWrite env
        (mipiDbiSpiInit spi true writeOnly)
        MIPI_DCS_WRITE_MEMORY_START val (2 * n) w = .ok 0 w' ∧
      w'.wire = w.wire ++ commandFrame 0x2C
        (bigEndianBytes
          ((w.pixels val n).map (sentPixel spi))) := by
  let mspi := mipiDbiSpiInit spi true writeOnly
  have hChunk := mipiDbiSpiInit_chunkSize spi true writeOnly
  have hSends : ∀ p, p.Copies val (2 * n) w →
      TransferSends env mspi buf w (valWidth mspi 0x2C) p
        (2 * n)
        (bigEndianBytes
          ((w.pixels val n).map (sentPixel spi))) := by
    intro p hCopies
    have hSource' : PixelSource w (2 * n) p := by
      rcases hCopies.place with hSame | ⟨bytes, hHeap⟩
      · rwa [hSame]
      · rw [hHeap]
        exact .heap bytes
    have hPixels : w.pixels val n = w.pixels p n := by
      apply List.map_congr_left
      intro k hk
      have hLess := List.mem_range.mp hk
      rw [World.loadU16, World.loadU16,
        hCopies.bytes _ (by omega),
        hCopies.bytes _ (by omega)]
    rw [hPixels]
    exact transferSends_pixels hEnv.spidev hChunk hSource'
  exact regmapRawWrite_frame hEnv.spidev hEnv.dcLine hReady
    hChunk.1 rfl 0x2C hSends

end Init

end Utinydrm
