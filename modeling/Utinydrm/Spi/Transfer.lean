import Utinydrm.Spi.Sync
import Mathlib.Tactic.IntervalCases

/-
  The SPI helpers of `tinydrm-regmap.c`: the transfer size
  limit, the word sizes of the controller, and the transfer
  of a buffer in chunks with the bytes of every 16-bit word
  exchanged when the controller cannot send 16-bit words.

  Key definitions include:
    * `tinydrmSpiMaxTransferSize`
    * `tinydrmSpiBpwSupported`
    * `tinydrmSpiTransfer`

  What a transfer puts on the wire is given by:
    * `tinydrmSpiTransfer_verbatim`
-/

------------------------------------------------------------
-- Limits Of The Controller
------------------------------------------------------------

namespace Utinydrm

/- `enum regmap_endian`. -/
inductive RegmapEndian where
| default
| big
| little
| native
deriving DecidableEq, Repr

/- `tinydrm_get_machine_endian` on the little-endian target. -/
def tinydrmGetMachineEndian : RegmapEndian := .little

/- `SPI_BPW_MASK`. -/
def spiBpwMask (bits : Nat) : Nat := 1 <<< (bits - 1)

/- `spi_stack` in `main`. -/
def mainSpi : SpiDevice where
  master :=
    { bitsPerWordMask := spiBpwMask 8 ||| spiBpwMask 16
      maxDmaLen := 320 * 240 * 2 }
  maxSpeedHz := 32000000

/- The same device with words of 8 bits only. -/
def eightBitSpi : SpiDevice where
  master :=
    { bitsPerWordMask := spiBpwMask 8
      maxDmaLen := 320 * 240 * 2 }
  maxSpeedHz := 32000000

/- `tinydrm_spi_bpw_supported`. -/
def tinydrmSpiBpwSupported
    (spi : SpiDevice) (bpw : Nat) : Bool :=
  let bpwMask := spi.master.bitsPerWordMask
  if bpw = 8 then
    true
  else if bpwMask = 0 then
    false
  else
    decide (bpwMask &&& spiBpwMask bpw ≠ 0)

/- `spi_max_transfer_size`. -/
def spiMaxTransferSize (_spi : SpiDevice) : Nat := sizeMax

/- The module parameter `spi_max`, which is never set. -/
def spiMax : Nat := 0

/- `tinydrm_spi_max_transfer_size`. -/
def tinydrmSpiMaxTransferSize
    (spi : SpiDevice) (maxLen : Nat) : Nat :=
  let ret := min (spiMaxTransferSize spi) spi.master.maxDmaLen
  let ret := if maxLen ≠ 0 then min ret maxLen else ret
  let ret := if spiMax ≠ 0 then min ret spiMax else ret
  -- `ret &= ~0x3`
  let ret := ret / 4 * 4
  if ret < 4 then 4 else ret

/- The limit is never zero. -/
theorem tinydrmSpiMaxTransferSize_pos
    (spi : SpiDevice) (maxLen : Nat) :
    0 < tinydrmSpiMaxTransferSize spi maxLen := by
  have hFloor : ∀ n : Nat, 0 < if n < 4 then 4 else n := by
    intro n
    split <;> omega
  exact hFloor _

end Utinydrm

------------------------------------------------------------
-- 16-Bit Words
------------------------------------------------------------

namespace Utinydrm

/- The `u16` stored as two bytes on a little-endian host. -/
def le16 (lo hi : UInt8) : UInt16 :=
  lo.toUInt16 ||| (hi.toUInt16 <<< 8)

/- `swab16`. -/
def swab16 (x : UInt16) : UInt16 :=
  ((x &&& 0x00ff) <<< 8) ||| ((x &&& 0xff00) >>> 8)

theorem le16_lo (lo hi : UInt8) :
    (le16 lo hi).toUInt8 = lo := by
  apply UInt8.toBitVec_inj.mp
  ext i hi'
  simp [le16]

theorem le16_hi (lo hi : UInt8) :
    (le16 lo hi >>> 8).toUInt8 = hi := by
  apply UInt8.toBitVec_inj.mp
  ext i hi'
  simp [le16]
  interval_cases i <;> simp

theorem swab16_le16 (lo hi : UInt8) :
    swab16 (le16 lo hi) = le16 hi lo := by
  apply UInt16.toBitVec_inj.mp
  ext i hi'
  simp [le16, swab16]
  interval_cases i <;> simp

namespace World

/- `((const u16 *)p)[i]`. -/
def loadU16 (w : World) (p : Ptr) (i : Nat) : UInt16 :=
  le16 (w.byte p (2 * i)) (w.byte p (2 * i + 1))

/- `((u16 *)addr)[i] = value`, for mapped memory. -/
def storeU16
    (w : World) (addr i : Nat) (value : UInt16) : World :=
  { w with
    mem :=
      Function.update
        (Function.update w.mem (addr + 2 * i) value.toUInt8)
        (addr + 2 * i + 1) (value >>> 8).toUInt8 }

/-
  `for (i = 0; i < n; i++) swap_buf[i] = swab16(buf16[i]);`
-/
def swapWords
    (w : World) (src : Ptr) (swapBuf : Nat) : Nat → World
| 0 => w
| n + 1 =>
    let w := swapWords w src swapBuf n
    w.storeU16 swapBuf n (swab16 (w.loadU16 src n))

end World

end Utinydrm

------------------------------------------------------------
-- Chunked Transfers
------------------------------------------------------------

namespace Utinydrm

variable (env : Env)

/-
  The bytes are exchanged on a little-endian machine when the
  words have 16 bits and the controller does not send those.
-/
def swapNeeded (spi : SpiDevice) (bpw : Nat) : Bool :=
  decide (tinydrmGetMachineEndian = .little) &&
    decide (bpw = 16) && !tinydrmSpiBpwSupported spi 16

/-
  What the chunk is sent from: the source itself, or the
  swap buffer after the exchanged words were stored there.
-/
def chunkSource
    (swap : Bool) (swapBuf : Option Nat)
    (src : Ptr) (chunk : Nat) : Driver Ptr :=
  match swap, swapBuf with
  | true, some dst => do
      modify fun w => w.swapWords src dst (chunk / 2)
      pure (.mapped dst)
  | _, _ => pure src

/- The header, if there is one, comes before the chunk. -/
def chunkMessage
    (header : Option SpiTransfer)
    (tr : SpiTransfer) : SpiMessage :=
  match header with
  | some h => { first := h, rest := [tr] }
  | none => { first := tr }

/-
  `tinydrm_spi_transfer`. The swap buffer is mapped memory.
-/
def tinydrmSpiTransfer
    (spi : SpiDevice) (speedHz : Nat)
    (header : Option SpiTransfer) (bpw : Nat)
    (buf : Ptr) (len : Nat)
    (swapBuf : Option Nat) (maxChunk : Nat) : Driver Int :=
  let swap := swapNeeded spi bpw
  if bpw ≠ 8 ∧ bpw ≠ 16 then
    pure (-EINVAL)
  else if swap && swapBuf.isNone then
    pure (-EINVAL)
  else
    Chunking.chunkLoop .hang maxChunk
      (fun offset chunk => do
        let txBuf ←
          chunkSource swap swapBuf (buf.add offset) chunk
        spiSync env spi
          (chunkMessage header
            { txBuf := some txBuf
              len := chunk
              bitsPerWord := if swap then 8 else bpw
              speedHz := speedHz }))
      len

end Utinydrm

------------------------------------------------------------
-- Contracts
------------------------------------------------------------

namespace Utinydrm

variable {env : Env}
variable {C : Effect.Contract Fault World}

/- Swapping only stores into memory. -/
theorem World.swapWords_eq
    (w : World) (src : Ptr) (swapBuf n : Nat) :
    ∃ mem, w.swapWords src swapBuf n =
      { w with mem := mem } := by
  induction n with
  | zero => exact ⟨w.mem, rfl⟩
  | succ n ih =>
      rcases ih with ⟨mem, hMem⟩
      exact ⟨_, by rw [swapWords, hMem]; rfl⟩

/- It stores into as many bytes as there are words. -/
theorem World.swapWords_outside
    (w : World) (src : Ptr) (swapBuf n : Nat) :
    ∀ a, a < swapBuf ∨ swapBuf + 2 * n ≤ a →
      (w.swapWords src swapBuf n).mem a = w.mem a := by
  induction n with
  | zero => exact fun _ _ => rfl
  | succ n ih =>
      intro a ha
      rw [swapWords, storeU16]
      dsimp only
      rw [Function.update_of_ne (by omega),
        Function.update_of_ne (by omega)]
      exact ih a (by omega)

theorem meets_chunkSource
    (hSend : SendContract env C)
    (swap : Bool) (swapBuf : Option Nat)
    (src : Ptr) (chunk : Nat) (w : World) :
    Effect.Meets C (chunkSource swap swapBuf src chunk) w := by
  unfold chunkSource
  split
  · refine Effect.meets_bind (Effect.meets_modify ?_)
      fun _ s _ => Effect.meets_pure _ s
    rcases w.swapWords_eq src _ (chunk / 2) with ⟨mem, hMem⟩
    rw [hMem]
    exact hSend.memory w mem
  · exact Effect.meets_pure _ w

theorem meets_tinydrmSpiTransfer
    (hSend : SendContract env C)
    (spi : SpiDevice) (speedHz : Nat)
    (header : Option SpiTransfer) (bpw : Nat)
    (buf : Ptr) (len : Nat)
    (swapBuf : Option Nat) (maxChunk : Nat) (w : World)
    (hStuck : maxChunk = 0 → ∀ s, C.fault .hang s) :
    Effect.Meets C
      (tinydrmSpiTransfer env spi speedHz header bpw buf len
        swapBuf maxChunk) w := by
  refine Effect.meets_ite
    (fun _ => Effect.meets_pure _ w) (fun _ => ?_)
  refine Effect.meets_ite
    (fun _ => Effect.meets_pure _ w) (fun _ => ?_)
  refine Chunking.meets_chunkLoop
    (fun hZero _ => hStuck hZero) (fun _ _ s => ?_) w
  exact Effect.meets_bind (meets_chunkSource hSend _ _ _ _ s)
    fun _ s' _ => meets_spiSync hSend _ _ s'

end Utinydrm

------------------------------------------------------------
-- Sending A Buffer As It Is
------------------------------------------------------------

namespace Utinydrm

variable {env : Env}

/- The words go out as they are, of a width that is sent. -/
def SentAsIs (spi : SpiDevice) (bpw : Nat) : Prop :=
  (bpw = 8 ∨ bpw = 16) ∧ swapNeeded spi bpw = false

theorem SentAsIs.transfer_eq
    {spi : SpiDevice} {bpw : Nat}
    (hAsIs : SentAsIs spi bpw)
    (speedHz : Nat) (buf : Ptr) (len : Nat)
    (swapBuf : Option Nat) (maxChunk : Nat) :
    tinydrmSpiTransfer env spi speedHz none bpw buf len
        swapBuf maxChunk =
      Chunking.chunkLoop .hang maxChunk
        (fun offset chunk =>
          spiSync env spi
            { first :=
                { txBuf := some (buf.add offset)
                  len := chunk
                  bitsPerWord := bpw
                  speedHz := speedHz } }) len := by
  rcases hAsIs with ⟨hBpw, hNoSwap⟩
  have hWidth : ¬ (bpw ≠ 8 ∧ bpw ≠ 16) := by omega
  simp only [tinydrmSpiTransfer, if_neg hWidth, hNoSwap,
    Bool.false_and, Bool.false_eq_true, if_false, chunkSource,
    chunkMessage, pure_bind]

theorem sentAsIs_eight (spi : SpiDevice) : SentAsIs spi 8 :=
  ⟨Or.inl rfl, rfl⟩

theorem sentAsIs_sixteen
    {spi : SpiDevice}
    (hSupported : tinydrmSpiBpwSupported spi 16 = true) :
    SentAsIs spi 16 :=
  ⟨Or.inr rfl, by simp [swapNeeded, hSupported]⟩

namespace World

theorem byte_add
    (w : World) (p : Ptr) (offset i : Nat) :
    w.byte (p.add offset) i = w.byte p (offset + i) := by
  cases p with
  | heap bytes => rfl
  | mapped addr => simp [byte, Ptr.add, Nat.add_assoc]

@[simp] theorem length_bytes
    (w : World) (p : Ptr) (len : Nat) :
    (w.bytes p len).length = len := by
  simp [bytes]

/- The first `len` bytes lie outside every dma-buf. -/
def Outside (w : World) (p : Ptr) (len : Nat) : Prop :=
  ∀ i < len, w.OutsideFbs (p.add i) ∧ w.OutsideTxBuf (p.add i)

theorem outside_heap
    (w : World) (bytes : Nat → UInt8) (len : Nat) :
    w.Outside (.heap bytes) len :=
  fun _ _ => ⟨w.outsideFbs_heap _, w.outsideTxBuf_heap _⟩

/-
  The part of the world that decides where a message is sent
  from, what its bytes are and how the D/C line stands.
-/
structure SameBus (w w' : World) : Prop where
  fbs : w'.fbs = w.fbs
  bufFd : w'.bufFd = w.bufFd
  txBuf : w'.txBuf = w.txBuf
  mspiTxBuf : w'.mspiTxBuf = w.mspiTxBuf
  mem : w'.mem = w.mem
  level : w'.level = w.level

theorem SameBus.refl (w : World) : SameBus w w :=
  ⟨rfl, rfl, rfl, rfl, rfl, rfl⟩

theorem SameBus.trans
    {w₁ w₂ w₃ : World}
    (h₁ : SameBus w₁ w₂) (h₂ : SameBus w₂ w₃) :
    SameBus w₁ w₃ :=
  ⟨h₂.fbs.trans h₁.fbs, h₂.bufFd.trans h₁.bufFd,
    h₂.txBuf.trans h₁.txBuf,
    h₂.mspiTxBuf.trans h₁.mspiTxBuf, h₂.mem.trans h₁.mem,
    h₂.level.trans h₁.level⟩

theorem SameBus.afterSpidev
    {w w' : World}
    (hSame : SameBus w w')
    (xfers : List SpiIocTransfer) :
    SameBus w (w'.afterSpidev env xfers) :=
  ⟨hSame.fbs, hSame.bufFd, hSame.txBuf, hSame.mspiTxBuf,
    hSame.mem, hSame.level⟩

theorem SameBus.byte_eq
    {w w' : World}
    (hSame : SameBus w w')
    (p : Ptr) :
    w'.byte p = w.byte p := by
  cases p with
  | heap bytes => rfl
  | mapped addr =>
      funext i
      simp [byte, hSame.mem]

end World

/- The result of a failed call of spidev. -/
def SpidevError (env : Env) (ret : Int) : Prop :=
  ∃ t e, env.spidev t = some e ∧ ret = e.ret

/- A range of bytes as the D/C line labels it. -/
def labelled
    (dc : Bool) (bytes : List UInt8) : List (Bool × UInt8) :=
  bytes.map fun b => (dc, b)

/-
  What one message from outside every dma-buf does: its bytes
  are clocked out, or it fails with nothing sent.
-/
theorem spiSync_verbatim
    (env : Env) (spi : SpiDevice) (tr : SpiTransfer)
    {w : World} {p : Ptr}
    (hPtr : tr.txBuf = some p)
    (hTx : w.TxOk)
    (hFbs : w.OutsideFbs p)
    (hTxBuf : w.OutsideTxBuf p) :
    ∃ ret w', spiSync env spi { first := tr } w =
        .ok ret w' ∧
      World.SameBus w w' ∧
      ((ret = 0 ∧ w'.wire = w.wire ++
          labelled (w.level .dc) (w.bytes p tr.len)) ∨
        (ret ≠ 0 ∧ SpidevError env ret ∧
          w'.wire = w.wire)) := by
  refine ⟨_, _,
    (spiSync_outside spi hPtr hTx hFbs hTxBuf).trans
      (spidev_eq _ w),
    (World.SameBus.refl w).afterSpidev _, ?_⟩
  rw [World.wire_afterSpidev]
  cases hResult : env.spidev w.now with
  | none =>
      refine Or.inl ⟨rfl, ?_⟩
      simp [World.mosi, iocOf, hPtr, labelled]
  | some e =>
      exact Or.inr ⟨e.ret_ne_zero, ⟨_, e, hResult, rfl⟩,
        List.append_nil _⟩

/- Its bytes are those behind the pointer. -/
theorem World.mosi_iocOf
    (w : World) (spi : SpiDevice) {tr : SpiTransfer} {p : Ptr}
    (hPtr : tr.txBuf = some p) :
    w.mosi env (iocOf spi tr) = w.bytes p tr.len := by
  simp [World.mosi, iocOf, hPtr]

/- An object that holds some bytes. -/
theorem World.bytes_ofBytes
    (w : World) (bytes : List UInt8) (rest : Nat → UInt8)
    {len : Nat} (hLen : len ≤ bytes.length) :
    w.bytes (.ofBytes bytes rest) len = bytes.take len := by
  apply List.ext_getElem
  · simp [hLen]
  · intro i hi _
    rw [World.length_bytes] at hi
    have hInside : i < bytes.length := by omega
    simp [World.bytes, Ptr.ofBytes, World.byte, hInside]

/- A message from an object of the process. -/
theorem spiSync_ofHeap
    (env : Env) (spi : SpiDevice)
    {w : World} {tr : SpiTransfer} {bytes : Nat → UInt8}
    (hPtr : tr.txBuf = some (.heap bytes))
    (hTx : w.TxOk) :
    spiSync env spi { first := tr } w =
      .ok ((env.spidev w.now).elim 0 Errno.ret)
        (w.afterSpidev env [iocOf spi tr]) :=
  (spiSync_outside spi hPtr hTx (w.outsideFbs_heap bytes)
    (w.outsideTxBuf_heap bytes)).trans (spidev_eq _ w)

/- One that succeeds. -/
theorem spiSync_heap
    (hBus : ∀ n, env.spidev n = none)
    (spi : SpiDevice) {w : World} {tr : SpiTransfer}
    {bytes : Nat → UInt8}
    (hPtr : tr.txBuf = some (.heap bytes))
    (hTx : w.TxOk) :
    spiSync env spi { first := tr } w =
      .ok 0 (w.afterSpidev env [iocOf spi tr]) := by
  rw [spiSync_ofHeap env spi hPtr hTx, hBus]
  rfl

/- One chunk of it, in a state with the same bus. -/
theorem spiSync_chunk_verbatim
    (env : Env) (spi : SpiDevice) (speedHz bpw : Nat)
    {buf : Ptr} {len : Nat} {w s : World}
    {p : Chunking.Piece}
    (hTx : w.TxOk)
    (hOutside : w.Outside buf len)
    (hInside : p.offset < len)
    (hs : World.SameBus w s) :
    ∃ ret s', spiSync env spi
        { first :=
            { txBuf := some (buf.add p.offset)
              len := p.size
              bitsPerWord := bpw
              speedHz := speedHz } } s = .ok ret s' ∧
      World.SameBus w s' ∧
      ((ret = 0 ∧ s'.wire = s.wire ++
          Chunking.slice
            (fun i => (w.level .dc, w.byte buf i)) p) ∨
        (ret ≠ 0 ∧ SpidevError env ret ∧
          s'.wire = s.wire)) := by
  have hHere := hOutside p.offset hInside
  rcases spiSync_verbatim env spi
      { txBuf := some (buf.add p.offset)
        len := p.size
        bitsPerWord := bpw
        speedHz := speedHz } (w := s) rfl
      (by simpa [World.TxOk, hs.txBuf] using hTx)
      (by simpa [World.OutsideFbs, hs.fbs] using hHere.1)
      (by simpa [World.OutsideTxBuf, hs.txBuf]
        using hHere.2) with
    ⟨ret, s', hRun, hSame, hResult⟩
  have hBytes :
      labelled (s.level .dc)
          (s.bytes (buf.add p.offset) p.size) =
        Chunking.slice
          (fun i => (w.level .dc, w.byte buf i)) p := by
    simp [labelled, World.bytes, Chunking.slice,
      World.byte_add, hs.level, hs.byte_eq buf]
  rw [hBytes] at hResult
  exact ⟨ret, s', hRun, hs.trans hSame, hResult⟩

/-
  A transfer without swapping from outside every dma-buf puts
  the buffer on the wire as it is; one that fails puts a
  proper initial part of it there.
-/
theorem tinydrmSpiTransfer_verbatim
    (env : Env) (spi : SpiDevice) (speedHz : Nat)
    (swapBuf : Option Nat) {bpw : Nat}
    {buf : Ptr} {len maxChunk : Nat}
    {w : World}
    (hAsIs : SentAsIs spi bpw)
    (hMax : 0 < maxChunk)
    (hTx : w.TxOk)
    (hOutside : w.Outside buf len) :
    ∃ ret w',
      tinydrmSpiTransfer env spi speedHz none bpw buf len
          swapBuf maxChunk w = .ok ret w' ∧
      World.SameBus w w' ∧
      ((ret = 0 ∧ w'.wire = w.wire ++
          labelled (w.level .dc) (w.bytes buf len)) ∨
        (ret ≠ 0 ∧ SpidevError env ret ∧
          ∃ k < len, w'.wire = w.wire ++
            labelled (w.level .dc) (w.bytes buf k))) := by
  rw [hAsIs.transfer_eq, Chunking.chunkLoop_eq_runPieces _ hMax]
  have hTiles := Chunking.tiles_pieces hMax len
  have hSlice : ∀ k, labelled (w.level .dc) (w.bytes buf k) =
      Chunking.slice
        (fun i => (w.level .dc, w.byte buf i)) ⟨0, k⟩ := by
    intro k
    simp [labelled, World.bytes, Chunking.slice]
  have hBefore : ∀ p ∈ Chunking.pieces maxChunk len,
      p.offset < len := by
    intro p hp
    have hPos := Chunking.size_pos_of_mem_pieces hMax hp
    have hBounds := hTiles.offset_bounds hp
    omega
  -- the walk: every piece adds its own slice of the buffer
  have hWalk := Chunking.runPieces_emits_prefix
    (World.SameBus w) (SpidevError env) World.wire
    (Chunking.slice (fun i => (w.level .dc, w.byte buf i)))
    (fun offset chunk =>
      spiSync env spi
        { first :=
            { txBuf := some (buf.add offset)
              len := chunk
              bitsPerWord := bpw
              speedHz := speedHz } })
    (Chunking.pieces maxChunk len)
    (fun p hp s hs =>
      spiSync_chunk_verbatim env spi speedHz bpw hTx hOutside
        (hBefore p hp) hs)
    (World.SameBus.refl w)
  rcases hWalk with ⟨ret, w', hRun, hSame, hResult⟩
  refine ⟨ret, w', hRun, hSame, ?_⟩
  rcases hResult with ⟨hZero, hWire⟩ |
    ⟨hNe, hError, sent, p, unsent, hSplit, hWire⟩
  · refine Or.inl ⟨hZero, ?_⟩
    rw [hWire, hTiles.flatMap_slice, hSlice]
    rfl
  · have hMem : p ∈ Chunking.pieces maxChunk len := by
      simp [hSplit]
    rw [hSplit] at hTiles
    refine Or.inr ⟨hNe, hError, p.offset, hBefore p hMem, ?_⟩
    rw [hWire, hTiles.before.flatMap_slice, hSlice]
    rfl

/- The transfer of one byte is one message. -/
theorem tinydrmSpiTransfer_byte
    (spi : SpiDevice) (bytes : Nat → UInt8)
    {swapBuf maxChunk : Nat} {w : World}
    (hMax : 0 < maxChunk)
    (hTx : w.TxOk) :
    tinydrmSpiTransfer env spi 0 none 8 (.heap bytes) 1
        (some swapBuf) maxChunk w =
      spidev env
        [iocOf spi
          { txBuf := some (.heap bytes)
            len := 1
            bitsPerWord := 8 }] w := by
  have hStart : (Ptr.heap bytes).add 0 = .heap bytes := by
    simp [Ptr.add]
  let tr : SpiTransfer :=
    { txBuf := some (.heap bytes), len := 1, bitsPerWord := 8 }
  have hMessage : spiSync env spi { first := tr } w =
      .ok ((env.spidev w.now).elim 0 Errno.ret)
        (w.afterSpidev env [iocOf spi tr]) :=
    spiSync_ofHeap env spi rfl hTx
  rw [(sentAsIs_eight spi).transfer_eq,
    Chunking.chunkLoop_eq_runPieces _ hMax,
    Chunking.pieces_of_le Nat.one_pos hMax,
    Chunking.runPieces, spidev_eq]
  simp only [hStart]
  rw [Effect.bind_of_ok hMessage]
  cases env.spidev w.now with
  | none => rfl
  | some e => simp [e.ret_ne_zero, tr]

end Utinydrm
