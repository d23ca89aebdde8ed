import Utinydrm.Spi.Transfer

/-
  MIPI DBI type C option 3: 8-bit words with the D/C bit on
  a line of its own.

  Key definitions include:
    * `mipiDbiSpiInit`
    * `mipiDbiSpi3GatherWrite`
    * `mipiDbiSpi3Read`
-/

------------------------------------------------------------
-- Commands
------------------------------------------------------------

namespace Utinydrm

/- The commands of the display command set that are used. -/
def MIPI_DCS_SOFT_RESET : Nat := 0x01
def MIPI_DCS_GET_DISPLAY_ID : Nat := 0x04
def MIPI_DCS_GET_DISPLAY_STATUS : Nat := 0x09
def MIPI_DCS_GET_POWER_MODE : Nat := 0x0A
def MIPI_DCS_ENTER_SLEEP_MODE : Nat := 0x10
def MIPI_DCS_EXIT_SLEEP_MODE : Nat := 0x11
def MIPI_DCS_SET_GAMMA_CURVE : Nat := 0x26
def MIPI_DCS_SET_DISPLAY_OFF : Nat := 0x28
def MIPI_DCS_SET_DISPLAY_ON : Nat := 0x29
def MIPI_DCS_SET_COLUMN_ADDRESS : Nat := 0x2A
def MIPI_DCS_SET_PAGE_ADDRESS : Nat := 0x2B
def MIPI_DCS_WRITE_MEMORY_START : Nat := 0x2C
def MIPI_DCS_SET_ADDRESS_MODE : Nat := 0x36
def MIPI_DCS_SET_PIXEL_FORMAT : Nat := 0x3A

/-
  `mipi_dbi_spi_init`: the bus it sets up. The transmit
  buffer is not set; it is asked for by the first write.
-/
def mipiDbiSpiInit
    (spi : SpiDevice) (dc writeOnly : Bool) : MipiDbiSpi where
  spi := spi
  ramReg := MIPI_DCS_WRITE_MEMORY_START
  dc := dc
  writeOnly := writeOnly
  chunkSize := tinydrmSpiMaxTransferSize spi 0

end Utinydrm

------------------------------------------------------------
-- Register Writes
------------------------------------------------------------

namespace Utinydrm

variable (env : Env)

/-
  `if (!mspi->tx_buf) mspi->tx_buf = utinydrm_get_tx_buf(..)`
  at the start of `mipi_dbi_spi3_gather_write`.
-/
def mipiDbiSpi3TxBuf
    (mspi : MipiDbiSpi) : Driver (Option Nat) := do
  let w ← get
  match w.mspiTxBuf with
  | some addr => pure (some addr)
  | none => do
      let txBuf ← utinydrmGetTxBuf env mspi.chunkSize
      modify fun w => { w with mspiTxBuf := txBuf }
      pure txBuf

/- `*(u8 *)reg == mspi->ram_reg ? 16 : 8`. -/
def valWidth (mspi : MipiDbiSpi) (cmd : UInt8) : Nat :=
  if cmd.toNat = mspi.ramReg then 16 else 8

/- The two transfers of `mipi_dbi_spi3_gather_write`. -/
def mipiDbiSpi3Send
    (mspi : MipiDbiSpi) (txBuf width : Nat)
    (reg : Ptr) (val : Option Ptr) (valLen : Nat) :
    Driver Int := do
  gpiodSetValueCansleep env .dc false
  let ret ←
    tinydrmSpiTransfer env mspi.spi 0 none 8 reg 1
      (some txBuf) mspi.chunkSize
  if ret ≠ 0 then
    pure ret
  else
    match val with
    | some p =>
        if valLen ≠ 0 then do
          gpiodSetValueCansleep env .dc true
          tinydrmSpiTransfer env mspi.spi 0 none width p valLen
            (some txBuf) mspi.chunkSize
        else
          pure ret
    | none => pure ret

/- `mipi_dbi_spi3_gather_write`. -/
def mipiDbiSpi3GatherWrite
    (mspi : MipiDbiSpi)
    (reg : Ptr) (regLen : Nat)
    (val : Option Ptr) (valLen : Nat) : Driver Int := do
  let w ← get
  if regLen ≠ 1 then
    pure (-EINVAL)
  else do
    let txBuf ← mipiDbiSpi3TxBuf env mspi
    match txBuf with
    | none => pure (-ENOMEM)
    | some addr =>
        mipiDbiSpi3Send env mspi addr
          (valWidth mspi (w.byte reg 0)) reg val valLen

/- `mipi_dbi_spi3_write`. -/
def mipiDbiSpi3Write
    (mspi : MipiDbiSpi)
    (data : Ptr) (count : Nat) : Driver Int :=
  mipiDbiSpi3GatherWrite env mspi data 1
    (some (data.add 1)) (count - 1)

end Utinydrm

------------------------------------------------------------
-- Register Reads
------------------------------------------------------------

namespace Utinydrm

variable (env : Env)

/- `MIPI_DBI_DEFAULT_SPI_READ_SPEED`. -/
def mipiDbiDefaultSpiReadSpeed : Nat := 2000000

/- The commands whose reply starts with a dummy clock. -/
def hasDummyClock (cmd : UInt8) : Bool :=
  decide (cmd.toNat = MIPI_DCS_GET_DISPLAY_ID) ||
    decide (cmd.toNat = MIPI_DCS_GET_DISPLAY_STATUS)

/- `(buf[i] << 1) | !!(buf[i + 1] & BIT(7))`. -/
def shiftDummyClock (buf : Nat → UInt8) (i : Nat) : UInt8 :=
  (buf i <<< 1) |||
    (if buf (i + 1) &&& 0x80 ≠ 0 then 1 else 0)

/- The bytes given back, from what was received. -/
def readBack
    (trLen valLen : Nat) (buf : Nat → UInt8) : List UInt8 :=
  (List.range valLen).map
    (if trLen = valLen then buf else shiftDummyClock buf)

/-
  `mipi_dbi_spi3_read` once the length is accepted, with the
  length of the second transfer. The receive buffer is known
  by the call that allocated it.
-/
def mipiDbiSpi3Receive
    (mspi : MipiDbiSpi)
    (reg : Ptr) (trLen valLen : Nat) :
    Driver (Int × List UInt8) := do
  let w ← get
  let granted ← kmalloc env
  if granted then do
    gpiodSetValueCansleep env .dc false
    let speedHz :=
      min mipiDbiDefaultSpiReadSpeed (mspi.spi.maxSpeedHz / 2)
    let ret ← spiSync env mspi.spi
      { first :=
          { speedHz := speedHz, txBuf := some reg, len := 1 }
        rest :=
          [{ speedHz := speedHz
             rxBuf := some w.now
             len := trLen }] }
    let w' ← get
    pure (ret, readBack trLen valLen (w'.rx w.now))
  else
    pure (-ENOMEM, [])

/- `mipi_dbi_spi3_read`: the result and what `val` holds. -/
def mipiDbiSpi3Read
    (mspi : MipiDbiSpi)
    (reg : Ptr) (valLen : Nat) :
    Driver (Int × List UInt8) := do
  let w ← get
  if mspi.writeOnly then
    pure (-EACCES, [])
  else if hasDummyClock (w.byte reg 0) then
    if valLen = 3 ∨ valLen = 4 then
      mipiDbiSpi3Receive env mspi reg (valLen + 1) valLen
    else
      pure (-EINVAL, [])
  else
    mipiDbiSpi3Receive env mspi reg valLen valLen

end Utinydrm

------------------------------------------------------------
-- The Message Of A Read
------------------------------------------------------------

namespace Utinydrm

variable {env : Env}

/- The state in which a read makes its message. -/
def World.beforeRead (env : Env) (w : World) : World :=
  (w.record (.kmalloc (env.kmalloc w.now))).afterGpio env .dc
    false

theorem World.beforeRead_log (w : World) :
    (w.beforeRead env).log =
      w.log ++ [.kmalloc (env.kmalloc w.now),
        .gpio .dc false (env.gpio .dc (w.now + 1))] := by
  simp [World.beforeRead, World.afterGpio, World.record,
    World.now]

@[simp] theorem World.beforeRead_now (w : World) :
    (w.beforeRead env).now = w.now + 2 := by
  simp [World.now, World.beforeRead_log]

/- The command byte, and the reply into a receive buffer. -/
def readXfers
    (mspi : MipiDbiSpi) (reg : Nat → UInt8)
    (buf trLen : Nat) : List SpiIocTransfer :=
  let speedHz :=
    min mipiDbiDefaultSpiReadSpeed (mspi.spi.maxSpeedHz / 2)
  [iocOf mspi.spi
      { speedHz := speedHz, txBuf := some (.heap reg), len := 1 },
    receiveOf
      { speedHz := speedHz, rxBuf := some buf, len := trLen }]

/- A read with memory for the reply makes one message. -/
theorem mipiDbiSpi3Receive_eq
    (mspi : MipiDbiSpi) (reg : Nat → UInt8)
    (trLen valLen : Nat) {w w' : World}
    (hGranted : env.kmalloc w.now = true)
    (hTx : w.TxOk)
    (hAfter : w' = (w.beforeRead env).afterSpidev env
      (readXfers mspi reg w.now trLen)) :
    mipiDbiSpi3Receive env mspi (.heap reg) trLen valLen w =
      .ok ((env.spidev (w.now + 2)).elim 0 Errno.ret,
        readBack trLen valLen (w'.rx w.now)) w' := by
  rw [mipiDbiSpi3Receive,
    Effect.bind_of_ok (Effect.get_apply w), kmalloc_bind,
    if_pos hGranted, gpiodSetValueCansleep_bind]
  let speedHz :=
    min mipiDbiDefaultSpiReadSpeed (mspi.spi.maxSpeedHz / 2)
  let tr : SpiTransfer :=
    { speedHz := speedHz, txBuf := some (.heap reg), len := 1 }
  let tr₂ : SpiTransfer :=
    { speedHz := speedHz, rxBuf := some w.now, len := trLen }
  have hMessage :
      spiSync env mspi.spi { first := tr, rest := [tr₂] }
        (w.beforeRead env) =
        .ok ((env.spidev (w.now + 2)).elim 0 Errno.ret)
          ((w.beforeRead env).afterSpidev env
            (readXfers mspi reg w.now trLen)) := by
    have hPtr : tr.txBuf = some (.heap reg) := rfl
    have hTx' : (w.beforeRead env).TxOk := hTx
    rw [spiSync_receive mspi.spi hPtr hTx', spidev_eq,
      World.beforeRead_now]
    rfl
  rw [hAfter]
  exact Effect.bind_of_ok hMessage

/- One that returns its reply had the memory and the line. -/
theorem granted_of_mipiDbiSpi3Receive
    {mspi : MipiDbiSpi} {reg : Nat → UInt8}
    {trLen valLen : Nat} {data : List UInt8} {w w' : World}
    (hRun : mipiDbiSpi3Receive env mspi (.heap reg) trLen
      valLen w = .ok (0, data) w') :
    env.kmalloc w.now = true ∧ w.TxOk := by
  rw [mipiDbiSpi3Receive,
    Effect.bind_of_ok (Effect.get_apply w), kmalloc_bind]
    at hRun
  by_cases hGranted : env.kmalloc w.now = true
  case neg =>
    rw [if_neg hGranted] at hRun
    cases hRun
  rw [if_pos hGranted, gpiodSetValueCansleep_bind] at hRun
  rcases Effect.exists_of_bind_ok hRun with
    ⟨ret, s, hMessage, _⟩
  have hTx : (w.beforeRead env).TxOk :=
    txOk_of_spiSync rfl hMessage
  exact ⟨hGranted, hTx⟩

end Utinydrm

------------------------------------------------------------
-- The Transmit Buffer
------------------------------------------------------------

namespace Utinydrm

variable {env : Env}

/-
  Asking for the buffer returns, sends nothing and leaves
  mapped memory alone. When what it asks for is granted the
  global is no error pointer after it.
-/
theorem mipiDbiSpi3TxBuf_returns
    (env : Env) (mspi : MipiDbiSpi) (w : World) :
    ∃ txBuf w', mipiDbiSpi3TxBuf env mspi w = .ok txBuf w' ∧
      w'.fbs = w.fbs ∧ w'.mem = w.mem ∧ w.Quiet w' ∧
      (DmabufGranted env w.now → w.TxOk → w'.TxOk) := by
  unfold mipiDbiSpi3TxBuf
  rw [Effect.bind_of_ok (Effect.get_apply w)]
  cases w.mspiTxBuf with
  | some addr =>
      exact ⟨_, w, rfl, rfl, rfl, .of_log_eq rfl,
        fun _ hTx => hTx⟩
  | none =>
      rcases utinydrmGetTxBuf_cases env mspi.chunkSize w with
        ⟨_, hRun⟩ | ⟨_, s, hAfter, hCreated⟩
      · exact ⟨_, _, Effect.bind_of_ok hRun, rfl, rfl,
          .of_log_eq rfl, fun _ hTx => hTx⟩
      have hQuiet := World.quiet_creation hAfter
      rcases hAfter with ⟨calls, rfl, _⟩
      rcases hCreated with ⟨e, hNot, hRun⟩ | ⟨buf, _, hRun⟩
      · exact ⟨_, _, Effect.bind_of_ok hRun, rfl, rfl,
          (hQuiet (.err e)).trans (.of_log_eq rfl),
          fun hGranted => absurd hGranted hNot⟩
      · exact ⟨_, _, Effect.bind_of_ok hRun, rfl, rfl,
          (hQuiet (.valid buf)).trans (.of_log_eq rfl),
          fun _ _ => World.txOk_of_valid rfl⟩

/- A buffer that was granted is no error pointer. -/
theorem mipiDbiSpi3TxBuf_txOk
    {mspi : MipiDbiSpi} {addr : Nat} {w w' : World}
    (hRun : mipiDbiSpi3TxBuf env mspi w = .ok (some addr) w')
    (hTx : w.TxOk) :
    w'.TxOk := by
  unfold mipiDbiSpi3TxBuf at hRun
  rw [Effect.bind_of_ok (Effect.get_apply w)] at hRun
  cases hMspi : w.mspiTxBuf with
  | some set =>
      rw [hMspi] at hRun
      cases hRun
      exact hTx
  | none =>
      rw [hMspi] at hRun
      rcases Effect.exists_of_bind_ok hRun with
        ⟨got, s, hGot, hRest⟩
      cases hRest
      rcases utinydrmGetTxBuf_some hGot with ⟨_, buf, hBuf, _⟩
      exact World.txOk_of_valid hBuf

end Utinydrm

------------------------------------------------------------
-- One Gather Write
------------------------------------------------------------

namespace Utinydrm

variable {env : Env}

/- Data is sent in words of two widths. -/
theorem valWidth_cases (mspi : MipiDbiSpi) (cmd : UInt8) :
    valWidth mspi cmd = 8 ∨ valWidth mspi cmd = 16 := by
  unfold valWidth
  split <;> simp

theorem valWidth_eq_eight_iff
    (mspi : MipiDbiSpi) (cmd : UInt8) :
    valWidth mspi cmd = 8 ↔ cmd.toNat ≠ mspi.ramReg := by
  unfold valWidth
  split <;> simp [*]

variable {mspi : MipiDbiSpi} (reg : Ptr) (val : Option Ptr)
variable (valLen : Nat) {w s : World}

/- A register that is no single byte is refused. -/
theorem mipiDbiSpi3GatherWrite_refused
    {regLen : Nat} (hLen : regLen ≠ 1) :
    mipiDbiSpi3GatherWrite env mspi reg regLen val valLen w =
      .ok (-EINVAL) w := by
  rw [mipiDbiSpi3GatherWrite,
    Effect.bind_of_ok (Effect.get_apply w), if_pos hLen]
  rfl

/- So is every write without a buffer. -/
theorem mipiDbiSpi3GatherWrite_noBuf
    (hAsked : mipiDbiSpi3TxBuf env mspi w = .ok none s) :
    mipiDbiSpi3GatherWrite env mspi reg 1 val valLen w =
      .ok (-ENOMEM) s := by
  rw [mipiDbiSpi3GatherWrite,
    Effect.bind_of_ok (Effect.get_apply w), if_neg (by simp),
    Effect.bind_of_ok hAsked]
  rfl

/- With one the two transfers are made. -/
theorem mipiDbiSpi3GatherWrite_buf
    {addr : Nat}
    (hAsked :
      mipiDbiSpi3TxBuf env mspi w = .ok (some addr) s) :
    mipiDbiSpi3GatherWrite env mspi reg 1 val valLen w =
      mipiDbiSpi3Send env mspi addr
        (valWidth mspi (w.byte reg 0)) reg val valLen s := by
  rw [mipiDbiSpi3GatherWrite,
    Effect.bind_of_ok (Effect.get_apply w), if_neg (by simp),
    Effect.bind_of_ok hAsked]

section Transfers

variable {txBuf width : Nat} {ret : Int}

/- They end with the command if it fails or is all there is. -/
theorem mipiDbiSpi3Send_command
    (hCommand :
      tinydrmSpiTransfer env mspi.spi 0 none 8 reg 1
        (some txBuf) mspi.chunkSize
        (w.afterGpio env .dc false) = .ok ret s)
    (hEnd : ret ≠ 0 ∨ val = none ∨ valLen = 0) :
    mipiDbiSpi3Send env mspi txBuf width reg val valLen w =
      .ok ret s := by
  rw [mipiDbiSpi3Send, gpiodSetValueCansleep_bind,
    Effect.bind_of_ok hCommand]
  by_cases hRet : ret = 0
  case neg =>
    rw [if_pos hRet]
    rfl
  case pos =>
  rw [if_neg (not_not.mpr hRet)]
  rcases hEnd with hFailed | hNone | hEmpty
  · exact absurd hRet hFailed
  · rw [hNone]
    rfl
  · cases val with
    | none => rfl
    | some p =>
        dsimp only
        rw [if_neg (not_not.mpr hEmpty)]
        rfl

/- The data follows one that was sent, with the line high. -/
theorem mipiDbiSpi3Send_data
    (hCommand :
      tinydrmSpiTransfer env mspi.spi 0 none 8 reg 1
        (some txBuf) mspi.chunkSize
        (w.afterGpio env .dc false) = .ok 0 s)
    (p : Ptr) (hLen : valLen ≠ 0) :
    mipiDbiSpi3Send env mspi txBuf width reg (some p) valLen w =
      tinydrmSpiTransfer env mspi.spi 0 none width p valLen
        (some txBuf) mspi.chunkSize
        (s.afterGpio env .dc true) := by
  rw [mipiDbiSpi3Send, gpiodSetValueCansleep_bind,
    Effect.bind_of_ok hCommand, if_neg (by simp)]
  dsimp only
  rw [if_pos hLen, gpiodSetValueCansleep_bind]

end Transfers

end Utinydrm

------------------------------------------------------------
-- Contracts
------------------------------------------------------------

namespace Utinydrm

variable {env : Env}
variable {C : Effect.Contract Fault World}

theorem meets_mipiDbiSpi3TxBuf
    (hBus : BusContract env C)
    (mspi : MipiDbiSpi) (w : World) :
    Effect.Meets C (mipiDbiSpi3TxBuf env mspi) w := by
  apply Effect.meets_get_bind
  cases w.mspiTxBuf with
  | some addr => exact Effect.meets_pure _ w
  | none =>
      refine Effect.meets_bind (hBus.getTxBuf _ w)
        fun txBuf s _ => ?_
      exact Effect.meets_bind
        (Effect.meets_modify (hBus.mspiTxBuf s txBuf))
        fun _ s' _ => Effect.meets_pure _ s'

/- Sending makes progress by chunks that are not empty. -/
theorem meets_mipiDbiSpi3Send
    (hSend : SendContract env C)
    (hDc : ∀ value w,
      Effect.Meets C (gpiodSetValueCansleep env .dc value) w)
    (mspi : MipiDbiSpi)
    (hHang : mspi.chunkSize = 0 → ∀ s, C.fault .hang s)
    (txBuf width : Nat)
    (reg : Ptr) (val : Option Ptr) (valLen : Nat)
    (w : World) :
    Effect.Meets C
      (mipiDbiSpi3Send env mspi txBuf width reg val valLen)
      w := by
  refine Effect.meets_bind (hDc _ w) fun _ s _ => ?_
  refine Effect.meets_bind
    (meets_tinydrmSpiTransfer hSend _ _ _ _ _ _ _ _ s hHang)
    fun ret s _ => ?_
  refine Effect.meets_ite
    (fun _ => Effect.meets_pure _ s) fun _ => ?_
  cases val with
  | none => exact Effect.meets_pure _ s
  | some p =>
      refine Effect.meets_ite (fun _ => ?_)
        fun _ => Effect.meets_pure _ s
      exact Effect.meets_bind (hDc _ s) fun _ s' _ =>
        meets_tinydrmSpiTransfer hSend _ _ _ _ _ _ _ _ s'
          hHang

theorem meets_mipiDbiSpi3GatherWrite
    (hBus : BusContract env C)
    (mspi : MipiDbiSpi)
    (reg : Ptr) (regLen : Nat)
    (val : Option Ptr) (valLen : Nat) (w : World) :
    Effect.Meets C
      (mipiDbiSpi3GatherWrite env mspi reg regLen val valLen)
      w := by
  refine Effect.meets_get_bind (Effect.meets_ite
    (fun _ => Effect.meets_pure _ w) fun _ => ?_)
  refine Effect.meets_bind (meets_mipiDbiSpi3TxBuf hBus _ w)
    fun txBuf s _ => ?_
  cases txBuf with
  | none => exact Effect.meets_pure _ s
  | some addr =>
      exact meets_mipiDbiSpi3Send hBus.toSendContract
        hBus.meets_dcLine mspi (fun _ => hBus.hang)
        _ _ _ _ _ s

theorem meets_mipiDbiSpi3Write
    (hBus : BusContract env C)
    (mspi : MipiDbiSpi)
    (data : Ptr) (count : Nat) (w : World) :
    Effect.Meets C (mipiDbiSpi3Write env mspi data count) w :=
  meets_mipiDbiSpi3GatherWrite hBus mspi _ _ _ _ w

theorem meets_mipiDbiSpi3Receive
    (hBus : BusContract env C)
    (mspi : MipiDbiSpi)
    (reg : Ptr) (trLen valLen : Nat) (w : World) :
    Effect.Meets C
      (mipiDbiSpi3Receive env mspi reg trLen valLen) w := by
  refine Effect.meets_get_bind (Effect.meets_bind
    (hBus.meets_kmalloc w) fun granted s _ => ?_)
  refine Effect.meets_ite (fun _ => ?_)
    fun _ => Effect.meets_pure _ s
  refine Effect.meets_bind (hBus.meets_dcLine _ s)
    fun _ s _ => ?_
  refine Effect.meets_bind (meets_spiSync hBus.toSendContract _ _ s)
    fun ret s _ => ?_
  exact Effect.meets_get_bind (Effect.meets_pure _ s)

theorem meets_mipiDbiSpi3Read
    (hBus : BusContract env C)
    (mspi : MipiDbiSpi)
    (reg : Ptr) (valLen : Nat) (w : World) :
    Effect.Meets C (mipiDbiSpi3Read env mspi reg valLen) w := by
  refine Effect.meets_get_bind (Effect.meets_ite
    (fun _ => Effect.meets_pure _ w) fun _ => ?_)
  refine Effect.meets_ite (fun _ => ?_)
    fun _ => meets_mipiDbiSpi3Receive hBus _ _ _ _ w
  exact Effect.meets_ite
    (fun _ => meets_mipiDbiSpi3Receive hBus _ _ _ _ w)
    (fun _ => Effect.meets_pure _ w)

end Utinydrm
