import Utinydrm.Device.BusContract
import Utinydrm.Device.Wire
import Utinydrm.Lib.Chunking

/-
  `spi.c`: handing an SPI message to spidev.

  A message whose first buffer lies in a registered
  framebuffer is sent from a dma-buf, either the one the
  kernel shares with the process (`udev->buf_fd`) or the one
  of the framebuffer. A buffer in the transmit buffer is sent
  from its dma-buf. Any other buffer is sent from memory.

  Key definitions include:
    * `spiBufTransfer`
    * `spiSync`

  What a message clocks out is given by:
    * `spiSync_outside`
    * `spiSync_framebuffer`
    * `spiSync_txBuf`
-/

------------------------------------------------------------
-- Sending A Message
------------------------------------------------------------

namespace Utinydrm

variable (env : Env)

/- `spi_buf_transfer`. -/
def spiBufTransfer
    (tr : SpiTransfer) (bufFd : Int) : Driver Int :=
  let maxChunk := 320 * 240 * 2 / 5
  Chunking.chunkLoop .hang maxChunk
    (fun offset chunk =>
      spidev env
        [{ txDmaFd := bufFd
           speedHz := tr.speedHz
           bitsPerWord := 8
           dmaOffset := offset % 2 ^ 32
           len := chunk }])
    tr.len

/-
  The end of `spi_sync`: the first transfer as prepared, and
  of a second one its receive buffer, length and speed.
-/
def spiSyncMessage
    (spi : SpiDevice) (m : SpiMessage)
    (utr : SpiIocTransfer) : Driver Int :=
  let utr₀ :=
    if utr.speedHz = 0 then
      { utr with speedHz := spi.maxSpeedHz }
    else
      utr
  match m.rest with
  | [] => spidev env [utr₀]
  | tr₂ :: _ =>
      spidev env
        [utr₀,
         { rxBuf := tr₂.rxBuf
           len := tr₂.len
           speedHz := tr₂.speedHz
           bitsPerWord := 8 }]

/-
  `spi_sync`. The word size of a transfer is not used: spidev
  is always told 8 bits. When the speed is filled in for
  `spi_buf_transfer` it is also stored in the transfer; the
  next message would fill in the same value.
-/
def spiSync
    (spi : SpiDevice) (m : SpiMessage) : Driver Int := do
  let w ← get
  let tr := m.first
  let utr : SpiIocTransfer :=
    { txBuf := tr.txBuf
      len := tr.len
      speedHz := tr.speedHz
      bitsPerWord := 8 }
  match w.fbs.find? (fun ufb => tr.txBuf.any ufb.contains) with
  | some ufb =>
      if 0 ≤ w.bufFd then
        spiBufTransfer env
          (if tr.speedHz = 0 then
            { tr with speedHz := spi.maxSpeedHz }
          else
            tr)
          w.bufFd
      else
        spiSyncMessage env spi m
          { utr with
            txBuf := none
            txDmaFd := ufb.bufFd
            dmaOffset :=
              tr.txBuf.elim 0 (·.diff ufb.map) % 2 ^ 32 }
  | none =>
      match w.txBuf with
      | .null => spiSyncMessage env spi m utr
      | .err _ => throw .errPtrDeref
      | .valid buf =>
          if tr.txBuf.any buf.contains then
            spiSyncMessage env spi m
              { utr with
                txBuf := none
                txDmaFd := buf.fd
                dmaOffset :=
                  tr.txBuf.elim 0 (·.diff buf.map) % 2 ^ 32 }
          else
            spiSyncMessage env spi m utr

end Utinydrm

------------------------------------------------------------
-- Contracts
------------------------------------------------------------

namespace Utinydrm

variable {env : Env}
variable {C : Effect.Contract Fault World}

section Spidev

variable (hSpidev :
  ∀ xfers w, Effect.Meets C (spidev env xfers) w)

include hSpidev

theorem meets_spiBufTransfer
    (tr : SpiTransfer) (bufFd : Int) (w : World) :
    Effect.Meets C (spiBufTransfer env tr bufFd) w :=
  Chunking.meets_chunkLoop
    (fun hZero => absurd hZero (by decide))
    (fun _ _ s => hSpidev _ s) w

theorem meets_spiSyncMessage
    (spi : SpiDevice) (m : SpiMessage)
    (utr : SpiIocTransfer) (w : World) :
    Effect.Meets C (spiSyncMessage env spi m utr) w := by
  unfold spiSyncMessage
  cases m.rest with
  | nil => exact hSpidev _ w
  | cons tr₂ rest => exact hSpidev _ w

/- All it does to the world are calls of spidev. -/
theorem meets_spiSync_of_spidev
    (hDeref : ∀ w e, w.txBuf = .err e →
      C.fault .errPtrDeref w)
    (spi : SpiDevice) (m : SpiMessage) (w : World) :
    Effect.Meets C (spiSync env spi m) w := by
  apply Effect.meets_get_bind
  dsimp only
  cases w.fbs.find?
      (fun ufb => m.first.txBuf.any ufb.contains) with
  | some ufb =>
      exact Effect.meets_ite
        (fun _ => meets_spiBufTransfer hSpidev _ _ w)
        (fun _ => meets_spiSyncMessage hSpidev _ _ _ w)
  | none =>
      cases hTx : w.txBuf with
      | null => exact meets_spiSyncMessage hSpidev _ _ _ w
      | err e => exact Effect.meets_throw (hDeref w e hTx)
      | valid buf =>
          exact Effect.meets_ite
            (fun _ => meets_spiSyncMessage hSpidev _ _ _ w)
            (fun _ => meets_spiSyncMessage hSpidev _ _ _ w)

end Spidev

theorem meets_spiSync
    (hSend : SendContract env C)
    (spi : SpiDevice) (m : SpiMessage) (w : World) :
    Effect.Meets C (spiSync env spi m) w :=
  meets_spiSync_of_spidev hSend.meets_spidev hSend.deref spi m w

end Utinydrm

------------------------------------------------------------
-- Where A Message Is Sent From
------------------------------------------------------------

namespace Utinydrm

variable {env : Env}

namespace World

/- The transmit buffer is not an error pointer. -/
def TxOk (w : World) : Prop :=
  ∀ e, w.txBuf ≠ .err e

theorem txOk_of_null
    {w : World}
    (hNull : w.txBuf = .null) :
    w.TxOk := by
  intro e hErr
  cases hNull.symm.trans hErr

theorem txOk_of_valid
    {w : World} {buf : UdmaBuf}
    (hBuf : w.txBuf = .valid buf) :
    w.TxOk := by
  intro e hErr
  cases hBuf.symm.trans hErr

theorem txOk_atProbe (bufFd : Int) : (atProbe bufFd).TxOk :=
  txOk_of_null rfl

/- The pointer is outside every registered framebuffer. -/
def OutsideFbs (w : World) (p : Ptr) : Prop :=
  ∀ ufb ∈ w.fbs, ufb.contains p = false

/- The pointer is outside the transmit buffer. -/
def OutsideTxBuf (w : World) (p : Ptr) : Prop :=
  ∀ buf, w.txBuf = .valid buf → buf.contains p = false

theorem outsideFbs_heap
    (w : World) (bytes : Nat → UInt8) :
    w.OutsideFbs (.heap bytes) :=
  fun _ _ => rfl

theorem outsideTxBuf_heap
    (w : World) (bytes : Nat → UInt8) :
    w.OutsideTxBuf (.heap bytes) :=
  fun _ _ => rfl

theorem OutsideFbs.find?_eq_none
    {w : World} {p : Ptr}
    (hOutside : w.OutsideFbs p) :
    w.fbs.find? (fun ufb => ufb.contains p) = none := by
  rw [List.find?_eq_none]
  intro ufb hMem
  simp [hOutside ufb hMem]

end World

/- The transfer spidev is given for a buffer in memory. -/
def iocOf
    (spi : SpiDevice) (tr : SpiTransfer) : SpiIocTransfer where
  txBuf := tr.txBuf
  len := tr.len
  speedHz :=
    if tr.speedHz = 0 then spi.maxSpeedHz else tr.speedHz
  bitsPerWord := 8

/- A message whose first buffer is outside every dma-buf. -/
theorem spiSync_eq_message
    (spi : SpiDevice)
    {w : World} {m : SpiMessage}
    (hTx : w.TxOk)
    (hOutside : ∀ p, m.first.txBuf = some p →
      w.OutsideFbs p ∧ w.OutsideTxBuf p) :
    spiSync env spi m w =
      spiSyncMessage env spi m
        { txBuf := m.first.txBuf
          len := m.first.len
          speedHz := m.first.speedHz
          bitsPerWord := 8 } w := by
  have hNoFb : w.fbs.find?
      (fun ufb => m.first.txBuf.any ufb.contains) = none := by
    rw [List.find?_eq_none]
    intro ufb hMem
    cases hPtr : m.first.txBuf with
    | none => simp
    | some p => simp [(hOutside p hPtr).1 ufb hMem]
  rw [spiSync, Effect.bind_of_ok (Effect.get_apply w)]
  simp only [hNoFb]
  cases hBuf : w.txBuf with
  | null => rfl
  | err e => exact absurd hBuf (hTx e)
  | valid buf =>
      have hOut : m.first.txBuf.any buf.contains = false := by
        cases hPtr : m.first.txBuf with
        | none => rfl
        | some p => exact (hOutside p hPtr).2 buf hBuf
      simp only [hOut]
      rw [if_neg (by simp)]

/- A single transfer. -/
theorem spiSync_outside
    (spi : SpiDevice)
    {w : World} {tr : SpiTransfer} {p : Ptr}
    (hPtr : tr.txBuf = some p)
    (hTx : w.TxOk)
    (hFbs : w.OutsideFbs p)
    (hTxBuf : w.OutsideTxBuf p) :
    spiSync env spi { first := tr } w =
      spidev env [iocOf spi tr] w := by
  have hOutside : ∀ q, tr.txBuf = some q →
      w.OutsideFbs q ∧ w.OutsideTxBuf q := by
    intro q hq
    cases hPtr.symm.trans hq
    exact ⟨hFbs, hTxBuf⟩
  rw [spiSync_eq_message spi hTx hOutside]
  simp only [spiSyncMessage, iocOf]
  by_cases hSpeed : tr.speedHz = 0 <;> simp [hSpeed]

/- The transfer spidev is given for a receive buffer. -/
def receiveOf (tr : SpiTransfer) : SpiIocTransfer where
  rxBuf := tr.rxBuf
  len := tr.len
  speedHz := tr.speedHz
  bitsPerWord := 8

/- A transfer from memory and one that receives. -/
theorem spiSync_receive
    (spi : SpiDevice)
    {w : World} {tr tr₂ : SpiTransfer} {bytes : Nat → UInt8}
    (hPtr : tr.txBuf = some (.heap bytes))
    (hTx : w.TxOk) :
    spiSync env spi { first := tr, rest := [tr₂] } w =
      spidev env [iocOf spi tr, receiveOf tr₂] w := by
  have hOutside : ∀ q, tr.txBuf = some q →
      w.OutsideFbs q ∧ w.OutsideTxBuf q := by
    intro q hq
    cases hPtr.symm.trans hq
    exact ⟨w.outsideFbs_heap bytes, w.outsideTxBuf_heap bytes⟩
  rw [spiSync_eq_message spi hTx hOutside]
  simp only [spiSyncMessage, iocOf, receiveOf]
  by_cases hSpeed : tr.speedHz = 0 <;> simp [hSpeed]

/- A message from memory that returns followed no error pointer. -/
theorem txOk_of_spiSync
    {spi : SpiDevice} {m : SpiMessage} {bytes : Nat → UInt8}
    {ret : Int} {w w' : World}
    (hPtr : m.first.txBuf = some (.heap bytes))
    (hRun : spiSync env spi m w = .ok ret w') :
    w.TxOk := by
  intro e hErr
  have hNoFb : w.fbs.find?
      (fun ufb => m.first.txBuf.any ufb.contains) = none := by
    rw [hPtr]
    exact (w.outsideFbs_heap bytes).find?_eq_none
  rw [spiSync, Effect.bind_of_ok (Effect.get_apply w)] at hRun
  simp only [hNoFb, hErr] at hRun
  cases hRun

/- A single transfer from the transmit buffer. -/
theorem spiSync_txBuf
    (spi : SpiDevice)
    {w : World} {tr : SpiTransfer} {p : Ptr} {buf : UdmaBuf}
    (hPtr : tr.txBuf = some p)
    (hBuf : w.txBuf = .valid buf)
    (hFbs : w.OutsideFbs p)
    (hInside : buf.contains p = true) :
    spiSync env spi { first := tr } w =
      spidev env
        [{ iocOf spi tr with
           txBuf := none
           txDmaFd := buf.fd
           dmaOffset := p.diff buf.map % 2 ^ 32 }] w := by
  rw [spiSync, Effect.bind_of_ok (Effect.get_apply w)]
  simp only [hPtr, Option.any_some, hFbs.find?_eq_none, hBuf,
    hInside, if_true, spiSyncMessage, iocOf,
    Option.elim_some]
  by_cases hSpeed : tr.speedHz = 0 <;> simp [hSpeed]

/-
  A single transfer from a framebuffer whose mapping is the
  first to contain the pointer.
-/
theorem spiSync_framebuffer
    (spi : SpiDevice)
    {w : World} {tr : SpiTransfer} {p : Ptr}
    {ufb : UtinydrmFb}
    (hPtr : tr.txBuf = some p)
    (hFind :
      w.fbs.find? (fun ufb => ufb.contains p) = some ufb) :
    spiSync env spi { first := tr } w =
      if 0 ≤ w.bufFd then
        spiBufTransfer env
          (if tr.speedHz = 0 then
            { tr with speedHz := spi.maxSpeedHz }
          else
            tr)
          w.bufFd w
      else
        spidev env
          [{ iocOf spi tr with
             txBuf := none
             txDmaFd := ufb.bufFd
             dmaOffset := p.diff ufb.map % 2 ^ 32 }] w := by
  rw [spiSync, Effect.bind_of_ok (Effect.get_apply w)]
  simp only [hPtr, Option.any_some, hFind]
  split
  · rfl
  · simp only [spiSyncMessage, iocOf, Option.elim_some]
    by_cases hSpeed : tr.speedHz = 0 <;> simp [hSpeed]

end Utinydrm
