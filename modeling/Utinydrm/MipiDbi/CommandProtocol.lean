import Utinydrm.MipiDbi.Regmap
import Utinydrm.Lib.Transition

/-
  What a run of register accesses puts on the wire with the
  D/C bit on a line of its own.

  A command byte is sent with the line low and the parameters
  after it with the line high, whatever level an operation
  that failed has left behind.

  Key definitions include:
    * `Access`
    * `commandFrame`
    * `Access.Sends`

  Main declarations:
    * `sendStep`, the contract of a transfer
    * `mipiDbiSpi3GatherWrite_sends`
    * `option3_command_protocol`
-/

------------------------------------------------------------
-- Accesses
------------------------------------------------------------

namespace Utinydrm

variable (env : Env)

/- A write of a command and its parameters, or a read. -/
inductive Access where
| write (cmd : UInt8) (parameters : List UInt8)
| read (cmd : UInt8) (valLen : Nat)
deriving DecidableEq, Repr

/- The access, with the result it returns. -/
def Access.run (mspi : MipiDbiSpi) : Access → Driver Int
| .write cmd parameters =>
    mipiDbiWriteBuf env mspi cmd.toNat parameters
| .read cmd valLen => do
    let result ← regmapRawRead env mspi cmd.toNat valLen
    pure result.1

/- An access that returns is a step. -/
def AccessStep
    (mspi : MipiDbiSpi)
    (w : World) (label : Access × Int) (w' : World) : Prop :=
  label.1.run env mspi w = .ok label.2 w'

/-
  Only messages fail, and not for the one reason that makes
  the register map try the write another way.
-/
structure Env.OnlyMessagesFail : Prop where
  kmalloc : ∀ n, env.kmalloc n = true
  dcLine : ∀ n, env.gpio .dc n = true
  dmabuf : ∀ n, DmabufGranted env n
  supported : ∀ n e, env.spidev n = some e →
    e.ret ≠ -ENOTSUPP

end Utinydrm

------------------------------------------------------------
-- Frames
------------------------------------------------------------

namespace Utinydrm

/- A command with its parameters, as the D/C line labels it. -/
def commandFrame
    (cmd : UInt8) (parameters : List UInt8) :
    List (Bool × UInt8) :=
  (false, cmd) :: labelled true parameters

/- No message follows a first one that failed. -/
def StopsAtCommand (w w' : World) : Prop :=
  ∃ sent, w'.messages = w.messages ++ sent ∧
    ∀ first rest, sent = first :: rest →
      first.result ≠ none → rest = []

/-
  What is sent is an initial part of a frame of the command.
  When `verbatim` it is one of the frame with the parameters,
  all of it if and only if the result is zero.
-/
structure FrameSent
    (verbatim : Prop) (cmd : UInt8) (parameters : List UInt8)
    (ret : Int) (sent : List (Bool × UInt8)) : Prop where
  framed : ∃ data, sent <+: commandFrame cmd data
  initial : verbatim → sent <+: commandFrame cmd parameters
  whole : verbatim →
    (ret = 0 ↔ sent = commandFrame cmd parameters)

namespace FrameSent

variable {verbatim : Prop} {cmd : UInt8}
variable {parameters : List UInt8} {ret : Int}

/- A failure that sends nothing. -/
theorem of_nothing
    (hFailed : ret ≠ 0) :
    FrameSent verbatim cmd parameters ret [] where
  framed := ⟨[], List.nil_prefix⟩
  initial := fun _ => List.nil_prefix
  whole := fun _ => by simp [hFailed, commandFrame]

/- The command byte, and then some data. -/
theorem of_data
    {data : List UInt8}
    (hExact : verbatim →
      data <+: parameters ∧ (ret = 0 ↔ data = parameters)) :
    FrameSent verbatim cmd parameters ret
      ((false, cmd) :: labelled true data) where
  framed := ⟨data, List.prefix_refl _⟩
  initial := fun hVerbatim => List.cons_prefix_cons.mpr
    ⟨rfl, (hExact hVerbatim).1.map _⟩
  whole := by
    intro hVerbatim
    rw [(hExact hVerbatim).2]
    constructor
    · intro hData
      rw [hData]
      rfl
    · intro hFrame
      have hData := (List.cons.inj hFrame).2
      exact List.map_injective_iff.mpr
        (fun _ _ h => (Prod.mk.inj h).2) hData

end FrameSent

/- What an access with a result does to the wire. -/
def Access.Sends
    (access : Access) (ret : Int) (w w' : World) : Prop :=
  StopsAtCommand w w' ∧
  ∃ sent, w'.wire = w.wire ++ sent ∧
    match access with
    | .write cmd parameters =>
        FrameSent (cmd.toNat ≠ MIPI_DCS_WRITE_MEMORY_START)
          cmd parameters ret sent
    | .read cmd _ => sent <+: commandFrame cmd []

end Utinydrm

------------------------------------------------------------
-- One Transfer
------------------------------------------------------------

namespace Utinydrm

variable {env : Env}

/-
  A transfer keeps the lines and the buffers, and all it
  sends has the level the D/C line had before.
-/
structure SendStep (w w' : World) : Prop where
  txBuf : w'.txBuf = w.txBuf
  level : w'.level = w.level
  messages : w.messages <+: w'.messages
  wire : ∃ data, w'.wire = w.wire ++
    labelled (w.level .dc) data

namespace SendStep

theorem refl (w : World) : SendStep w w :=
  ⟨rfl, rfl, List.prefix_refl _, [], by simp [labelled]⟩

theorem trans
    {w₁ w₂ w₃ : World}
    (h₁ : SendStep w₁ w₂) (h₂ : SendStep w₂ w₃) :
    SendStep w₁ w₃ := by
  rcases h₁.wire with ⟨data₁, hWire₁⟩
  rcases h₂.wire with ⟨data₂, hWire₂⟩
  refine ⟨h₂.txBuf.trans h₁.txBuf, h₂.level.trans h₁.level,
    h₁.messages.trans h₂.messages, data₁ ++ data₂, ?_⟩
  rw [hWire₂, hWire₁, h₁.level]
  simp [labelled]

theorem afterSpidev
    (xfers : List SpiIocTransfer) (w : World) :
    SendStep w (w.afterSpidev env xfers) := by
  refine ⟨rfl, rfl, ?_, ?_⟩
  · rw [World.messages_afterSpidev]
    exact List.prefix_append _ _
  · rw [World.wire_afterSpidev]
    cases env.spidev w.now with
    | none => exact ⟨_, rfl⟩
    | some e => exact ⟨[], by simp [labelled]⟩

end SendStep

/- It faults only by following an error pointer. -/
def sendStep : Effect.Contract Fault World where
  step := SendStep
  fault := fun _ w => ¬ w.TxOk
  refl := SendStep.refl
  trans := SendStep.trans

theorem sendContract_sendStep (env : Env) :
    SendContract env sendStep where
  spidev := SendStep.afterSpidev
  memory := fun w mem =>
    ⟨rfl, rfl, List.prefix_refl _, [], by
      simp [labelled, World.wire]⟩
  deref := fun w e hErr hOk => hOk e hErr

/- What spidev returns: zero, or that the message failed. -/
def BusResult (env : Env) (ret : Int) : Prop :=
  ret = 0 ∨ SpidevError env ret

theorem returns_spidev
    (env : Env) (xfers : List SpiIocTransfer) :
    Effect.Returns (BusResult env) (spidev env xfers) := by
  intro w ret w' hRun
  rw [spidev_eq] at hRun
  cases hRun
  cases hResult : env.spidev w.now with
  | none => exact Or.inl rfl
  | some e => exact Or.inr ⟨_, e, hResult, rfl⟩

theorem returns_spiSyncMessage
    (env : Env) (spi : SpiDevice) (m : SpiMessage)
    (utr : SpiIocTransfer) :
    Effect.Returns (BusResult env)
      (spiSyncMessage env spi m utr) := by
  unfold spiSyncMessage
  cases m.rest with
  | nil => exact returns_spidev env _
  | cons tr₂ rest => exact returns_spidev env _

theorem returns_spiSync
    (env : Env) (spi : SpiDevice) (m : SpiMessage) :
    Effect.Returns (BusResult env) (spiSync env spi m) := by
  apply Effect.returns_bind
  intro w
  dsimp only
  cases w.fbs.find?
      (fun ufb => m.first.txBuf.any ufb.contains) with
  | some ufb =>
      exact Effect.returns_ite
        (fun _ => Chunking.returns_chunkLoop (Or.inl rfl)
          (fun _ _ => returns_spidev env _) _)
        (fun _ => returns_spiSyncMessage env _ _ _)
  | none =>
      cases w.txBuf with
      | null => exact returns_spiSyncMessage env _ _ _
      | err e => exact Effect.returns_throw _
      | valid buf =>
          exact Effect.returns_ite
            (fun _ => returns_spiSyncMessage env _ _ _)
            (fun _ => returns_spiSyncMessage env _ _ _)

/- A transfer of words that are supported returns. -/
theorem tinydrmSpiTransfer_returns
    (env : Env) (spi : SpiDevice) (speedHz : Nat)
    (buf : Ptr) (len swapBuf : Nat)
    {bpw maxChunk : Nat} {w : World}
    (hBpw : bpw = 8 ∨ bpw = 16)
    (hMax : 0 < maxChunk)
    (hTx : w.TxOk) :
    ∃ ret w', tinydrmSpiTransfer env spi speedHz none bpw buf
        len (some swapBuf) maxChunk w = .ok ret w' ∧
      SendStep w w' ∧ BusResult env ret := by
  have hMeets := meets_tinydrmSpiTransfer
    (sendContract_sendStep env) spi speedHz none bpw buf len
    (some swapBuf) maxChunk w (fun hZero => by omega)
  have hReturns : Effect.Returns (BusResult env)
      (tinydrmSpiTransfer env spi speedHz none bpw buf len
        (some swapBuf) maxChunk) := by
    have hWidth : ¬ (bpw ≠ 8 ∧ bpw ≠ 16) := by omega
    simp only [tinydrmSpiTransfer, if_neg hWidth,
      Option.isNone_some, Bool.and_false, Bool.false_eq_true,
      if_false]
    exact Chunking.returns_chunkLoop (Or.inl rfl)
      (fun _ _ => Effect.returns_bind
        fun _ => returns_spiSync env spi _) len
  cases hRun : tinydrmSpiTransfer env spi speedHz none bpw buf
      len (some swapBuf) maxChunk w with
  | ok ret w' =>
      exact ⟨ret, w', rfl, hMeets.of_ok hRun,
        hReturns w ret w' hRun⟩
  | error e w' =>
      rcases hMeets.of_error hRun with ⟨hStep, hNot⟩
      refine absurd ?_ hNot
      rwa [World.TxOk, hStep.txBuf]

end Utinydrm

------------------------------------------------------------
-- One Gather Write
------------------------------------------------------------

namespace Utinydrm

variable {env : Env}

/-
  The outcome of sending a command: the global is still no
  error pointer, the result is not the one the register map
  reacts to, and part of a frame was sent.
-/
structure CommandOutcome
    (verbatim : Prop) (cmd : UInt8) (parameters : List UInt8)
    (ret : Int) (w w' : World) : Prop where
  txOk : w'.TxOk
  supported : ret ≠ -ENOTSUPP
  stops : StopsAtCommand w w'
  frame : ∃ sent, w'.wire = w.wire ++ sent ∧
    FrameSent verbatim cmd parameters ret sent

namespace CommandOutcome

variable {verbatim : Prop} {cmd : UInt8}
variable {parameters : List UInt8} {ret : Int}

/- Calls that send nothing may come before. -/
theorem of_quiet
    {w₀ w w' : World}
    (hQuiet : w₀.Quiet w)
    (hOutcome :
      CommandOutcome verbatim cmd parameters ret w w') :
    CommandOutcome verbatim cmd parameters ret w₀ w' := by
  refine ⟨hOutcome.txOk, hOutcome.supported, ?_, ?_⟩
  · rcases hOutcome.stops with ⟨sent, hMessages, hStop⟩
    rw [hQuiet.messages] at hMessages
    exact ⟨sent, hMessages, hStop⟩
  · rcases hOutcome.frame with ⟨sent, hWire, hFrame⟩
    rw [hQuiet.wire] at hWire
    exact ⟨sent, hWire, hFrame⟩

/- A failure before anything is sent. -/
theorem of_refused
    {w w' : World}
    (hQuiet : w.Quiet w')
    (hTx : w'.TxOk)
    (hSupported : ret ≠ -ENOTSUPP)
    (hFailed : ret ≠ 0) :
    CommandOutcome verbatim cmd parameters ret w w' := by
  refine ⟨hTx, hSupported, ⟨[], ?_, by simp⟩, [], ?_, ?_⟩
  · simp [hQuiet.messages]
  · simp [hQuiet.wire]
  · exact .of_nothing hFailed

end CommandOutcome

theorem BusResult.supported
    {ret : Int}
    (hResult : BusResult env ret)
    (hEnv : env.OnlyMessagesFail) :
    ret ≠ -ENOTSUPP := by
  rcases hResult with hZero | ⟨n, e, hError, hRet⟩
  · rw [hZero]
    decide
  · rw [hRet]
    exact hEnv.supported n e hError

/- Messages may follow a first one that succeeded. -/
theorem stopsAtCommand_of_sent
    {w w₁ w' : World} {record : SpiRecord}
    (hFirst : w₁.messages = w.messages ++ [record])
    (hSent : record.result = none)
    (hMore : w₁.messages <+: w'.messages) :
    StopsAtCommand w w' := by
  rcases hMore with ⟨more, hMore⟩
  refine ⟨record :: more, by simp [← hMore, hFirst], ?_⟩
  intro first rest hSplit hFailed
  cases hSplit
  exact absurd hSent hFailed

theorem World.bytes_prefix
    (w : World) (p : Ptr) {k len : Nat}
    (hLess : k ≤ len) :
    w.bytes p k <+: w.bytes p len := by
  have hTake : w.bytes p k = (w.bytes p len).take k := by
    simp [World.bytes, ← List.map_take, List.take_range,
      hLess]
  rw [hTake]
  exact List.take_prefix k _

/-
  The parameters after a command byte, sent with the line
  high. All or a proper part of them is sent, and for words
  of eight bits they are sent as they are.
-/
theorem parameters_sent
    (env : Env) (mspi : MipiDbiSpi) (hChunk : 0 < mspi.chunkSize)
    (txBuf : Nat) (bytes : Nat → UInt8) (len : Nat)
    {width : Nat} {w : World}
    (hWidth : width = 8 ∨ width = 16)
    (hTx : w.TxOk)
    (hLevel : w.level .dc = true) :
    ∃ ret w', tinydrmSpiTransfer env mspi.spi 0 none width
        (.heap bytes) len (some txBuf) mspi.chunkSize w =
          .ok ret w' ∧
      w'.TxOk ∧ BusResult env ret ∧
      w.messages <+: w'.messages ∧
      ∃ data, w'.wire = w.wire ++ labelled true data ∧
        (width = 8 → data <+: w.bytes (.heap bytes) len ∧
          (ret = 0 ↔ data = w.bytes (.heap bytes) len)) := by
  rcases tinydrmSpiTransfer_returns env mspi.spi 0
      (.heap bytes) len txBuf hWidth hChunk hTx with
    ⟨ret, w', hRun, hStep, hResult⟩
  have hTx' : w'.TxOk := by
    rwa [World.TxOk, hStep.txBuf]
  refine ⟨ret, w', hRun, hTx', hResult, hStep.messages, ?_⟩
  by_cases hEight : width = 8
  case neg =>
    rcases hStep.wire with ⟨data, hWire⟩
    rw [hLevel] at hWire
    exact ⟨data, hWire, fun h => absurd h hEight⟩
  case pos =>
    subst hEight
    rcases tinydrmSpiTransfer_verbatim env mspi.spi 0
        (some txBuf) (sentAsIs_eight _) hChunk hTx
        (w.outside_heap bytes len) with
      ⟨ret₂, w₂, hRun₂, _, hWire⟩
    cases hRun.symm.trans hRun₂
    rw [hLevel] at hWire
    rcases hWire with ⟨hZero, hWire⟩ |
      ⟨hFailed, _, k, hLess, hWire⟩
    · exact ⟨_, hWire, fun _ =>
        ⟨List.prefix_refl _, by simp [hZero]⟩⟩
    · refine ⟨_, hWire, fun _ =>
        ⟨w.bytes_prefix _ hLess.le, ?_⟩⟩
      have hShort : w.bytes (.heap bytes) k ≠
          w.bytes (.heap bytes) len := by
        intro hEq
        have hLength := congrArg List.length hEq
        simp only [World.length_bytes] at hLength
        omega
      simp [hFailed, hShort]

/-
  The command byte, with the line low: when its message fails
  nothing was sent, and after one that was sent any message
  can follow.
-/
theorem commandByte_sent
    (hEnv : env.OnlyMessagesFail)
    (mspi : MipiDbiSpi) (hChunk : 0 < mspi.chunkSize)
    (txBuf : Nat) (reg : Nat → UInt8)
    {w : World} (hTx : w.TxOk) :
    ∃ ret s, tinydrmSpiTransfer env mspi.spi 0 none 8
        (.heap reg) 1 (some txBuf) mspi.chunkSize
        (w.afterGpio env .dc false) = .ok ret s ∧
      s.TxOk ∧ ret ≠ -ENOTSUPP ∧
      ((ret ≠ 0 ∧ s.wire = w.wire ∧ StopsAtCommand w s) ∨
        (ret = 0 ∧ s.wire = w.wire ++ [(false, reg 0)] ∧
          ∀ w' : World, s.messages <+: w'.messages →
            StopsAtCommand w w')) := by
  let xfers := [iocOf mspi.spi
    { txBuf := some (.heap reg), len := 1, bitsPerWord := 8 }]
  let w₁ := w.afterGpio env .dc false
  have hLow : w₁.level .dc = false :=
    World.afterGpio_level_self (hEnv.dcLine _)
  have hQuiet : w.Quiet w₁ := w.quiet_afterGpio .dc false
  have hRun :
      tinydrmSpiTransfer env mspi.spi 0 none 8 (.heap reg) 1
          (some txBuf) mspi.chunkSize w₁ =
        .ok ((env.spidev w₁.now).elim 0 Errno.ret)
          (w₁.afterSpidev env xfers) :=
    (tinydrmSpiTransfer_byte (w := w₁) mspi.spi reg hChunk
      hTx).trans (spidev_eq _ _)
  have hMessages : (w₁.afterSpidev env xfers).messages =
      w.messages ++ [w₁.spiRecord env xfers] := by
    rw [World.messages_afterSpidev, hQuiet.messages]
  refine ⟨_, _, hRun, hTx, ?_⟩
  rw [World.wire_afterSpidev, hQuiet.wire]
  cases hFirst : env.spidev w₁.now with
  | some e =>
      refine ⟨hEnv.supported _ e hFirst, Or.inl
        ⟨e.ret_ne_zero, by simp, _, hMessages, ?_⟩⟩
      intro first rest hSent _
      cases hSent
      rfl
  | none =>
      refine ⟨by decide, Or.inr ⟨rfl, ?_, fun _ hMore =>
        stopsAtCommand_of_sent hMessages hFirst hMore⟩⟩
      simp [hLow, xfers, iocOf, World.mosi, World.bytes,
        World.byte]

/-
  `mipi_dbi_spi3_gather_write` once it has a buffer: the
  command byte, and then the parameters if it was sent.
-/
theorem mipiDbiSpi3Send_sends
    (hEnv : env.OnlyMessagesFail)
    (mspi : MipiDbiSpi) (hChunk : 0 < mspi.chunkSize)
    (txBuf : Nat) (reg val : Nat → UInt8) (valLen : Nat)
    {width : Nat} {w : World}
    (hWidth : width = 8 ∨ width = 16)
    (hTx : w.TxOk) :
    ∃ ret w', mipiDbiSpi3Send env mspi txBuf width
        (.heap reg) (some (.heap val)) valLen w =
          .ok ret w' ∧
      CommandOutcome (width = 8) (reg 0)
        (w.bytes (.heap val) valLen) ret w w' := by
  rcases commandByte_sent hEnv mspi hChunk txBuf reg hTx with
    ⟨ret₁, s, hCommand, hTx₁, hSupported, hOutcome⟩
  rcases hOutcome with
    ⟨hFailed, hWire, hStops⟩ | ⟨rfl, hWire, hStops⟩
  · exact ⟨ret₁, s,
      mipiDbiSpi3Send_command _ _ _ hCommand (Or.inl hFailed),
      hTx₁, hSupported, hStops, [], by simp [hWire],
      .of_nothing hFailed⟩
  by_cases hLen : valLen = 0
  case pos =>
    have hNone : w.bytes (.heap val) valLen = [] := by
      simp [World.bytes, hLen]
    refine ⟨0, s, mipiDbiSpi3Send_command _ _ _ hCommand
      (Or.inr (Or.inr hLen)), hTx₁, by decide,
      hStops s (List.prefix_refl _), _, hWire, ?_⟩
    rw [hNone]
    have hEmpty : FrameSent (width = 8) (reg 0) [] 0
        ((false, reg 0) :: labelled true []) :=
      .of_data (by simp)
    exact hEmpty
  case neg =>
    -- the parameters, with the line high
    let w₂ := s.afterGpio env .dc true
    have hHigh : w₂.level .dc = true :=
      World.afterGpio_level_self (hEnv.dcLine _)
    have hQuiet : s.Quiet w₂ := s.quiet_afterGpio .dc true
    rcases parameters_sent env mspi hChunk txBuf val valLen
        (w := w₂) hWidth hTx₁ hHigh with
      ⟨ret, w', hRun, hTx', hResult, hPrefix, data, hData,
        hExact⟩
    refine ⟨ret, w',
      (mipiDbiSpi3Send_data _ _ hCommand _ hLen).trans hRun,
      hTx', hResult.supported hEnv, ?_,
      (false, reg 0) :: labelled true data, ?_,
      .of_data hExact⟩
    · exact hStops w' (by rwa [← hQuiet.messages])
    · rw [hData, hQuiet.wire, hWire]
      simp

end Utinydrm

------------------------------------------------------------
-- One Access
------------------------------------------------------------

namespace Utinydrm

variable {env : Env}

theorem mipiDbiSpi3GatherWrite_sends
    (hEnv : env.OnlyMessagesFail)
    (mspi : MipiDbiSpi) (hChunk : 0 < mspi.chunkSize)
    (reg val : Nat → UInt8) (valLen : Nat)
    {w : World} (hTx : w.TxOk) :
    ∃ ret w', mipiDbiSpi3GatherWrite env mspi (.heap reg) 1
        (some (.heap val)) valLen w = .ok ret w' ∧
      CommandOutcome ((reg 0).toNat ≠ mspi.ramReg) (reg 0)
        (w.bytes (.heap val) valLen) ret w w' := by
  rcases mipiDbiSpi3TxBuf_returns env mspi w with
    ⟨txBuf, s, hAsked, _, _, hQuiet, hKeep⟩
  have hTx' := hKeep (hEnv.dmabuf _) hTx
  cases txBuf with
  | none =>
      exact ⟨_, s, mipiDbiSpi3GatherWrite_noBuf _ _ _ hAsked,
        .of_refused hQuiet hTx' (by decide) (by decide)⟩
  | some addr =>
      rw [mipiDbiSpi3GatherWrite_buf _ _ _ hAsked]
      rcases mipiDbiSpi3Send_sends hEnv mspi hChunk addr reg
          val valLen (valWidth_cases mspi (reg 0)) hTx' with
        ⟨ret, w', hRun, hOutcome⟩
      rw [valWidth_eq_eight_iff] at hOutcome
      exact ⟨ret, w', hRun, hOutcome.of_quiet hQuiet⟩

/-
  A register write of a map over this bus: a single value is
  sent from the work buffer, others from where they are.
-/
theorem regmapRawWrite_sends
    (hEnv : env.OnlyMessagesFail)
    (mspi : MipiDbiSpi) (hChunk : 0 < mspi.chunkSize)
    (hDc : mspi.dc = true)
    (cmd : UInt8) (val : Nat → UInt8) (valLen : Nat)
    {w : World} (hTx : w.TxOk) :
    ∃ ret w', regmapRawWrite env mspi cmd.toNat (.heap val)
        valLen w = .ok ret w' ∧
      CommandOutcome (cmd.toNat ≠ mspi.ramReg) cmd
        (w.bytes (.heap val) valLen) ret w w' := by
  rcases regmapRawWrite_out env mspi cmd.toNat (.heap val)
      valLen w with
    ⟨buf, p, hWrite, hCmd, hCopies⟩
  rcases hCopies.exists_heap with ⟨bytes, rfl⟩
  rcases mipiDbiSpi3GatherWrite_sends hEnv mspi hChunk buf bytes
      valLen (w := { w with workBuf := buf }) hTx with
    ⟨ret, w', hRun, hOutcome⟩
  have hReg : buf 0 = cmd := by simpa using hCmd
  have hBytes :
      World.bytes { w with workBuf := buf } (.heap bytes)
        valLen = w.bytes (.heap val) valLen := by
    apply List.map_congr_left
    intro i hi
    exact hCopies.bytes i (List.mem_range.mp hi)
  have hQuiet : w.Quiet { w with workBuf := buf } :=
    .of_log_eq rfl
  rw [hReg, hBytes] at hOutcome
  refine ⟨ret, w', ?_, hOutcome.of_quiet hQuiet⟩
  rw [hWrite, busGatherWrite, hDc, if_pos rfl,
    Effect.bind_of_ok hRun, if_neg hOutcome.supported]
  rfl

theorem mipiDbiWriteBuf_sends
    (hEnv : env.OnlyMessagesFail)
    (mspi : MipiDbiSpi) (hChunk : 0 < mspi.chunkSize)
    (hDc : mspi.dc = true)
    (cmd : UInt8) (parameters : List UInt8)
    {w : World} (hTx : w.TxOk) :
    ∃ ret w', mipiDbiWriteBuf env mspi cmd.toNat parameters
        w = .ok ret w' ∧
      CommandOutcome (cmd.toNat ≠ mspi.ramReg) cmd parameters
        ret w w' := by
  let s := w.record (.kmalloc (env.kmalloc w.now))
  have hQuiet : w.Quiet s :=
    .of_log _ rfl (by simp [Call.isMessage])
  rcases regmapRawWrite_sends hEnv mspi hChunk hDc cmd
      (fun i => parameters.getD i (env.garbage w.now i))
      parameters.length (w := s) hTx with
    ⟨ret, w', hRun, hOutcome⟩
  have hBytes := s.bytes_ofBytes parameters
    (env.garbage w.now) (le_refl parameters.length)
  unfold Ptr.ofBytes at hBytes
  rw [hBytes, List.take_length] at hOutcome
  refine ⟨ret, w', ?_, hOutcome.of_quiet hQuiet⟩
  rw [mipiDbiWriteBuf, Effect.bind_of_ok (Effect.get_apply w),
    kmalloc_bind, if_pos (hEnv.kmalloc _)]
  exact hRun

/- What a read does: no more than the command is sent. -/
structure ReadOutcome (cmd : UInt8) (w w' : World) : Prop where
  txOk : w'.TxOk
  stops : StopsAtCommand w w'
  frame : ∃ sent, w'.wire = w.wire ++ sent ∧
    sent <+: commandFrame cmd []

theorem ReadOutcome.of_quiet
    {cmd : UInt8} {w w' : World}
    (hQuiet : w.Quiet w')
    (hTx : w'.TxOk) :
    ReadOutcome cmd w w' :=
  ⟨hTx, ⟨[], by simp [hQuiet.messages], by simp⟩,
    [], by simp [hQuiet.wire], List.nil_prefix⟩

/- The reply is clocked in by a transfer that sends nothing. -/
theorem mipiDbiSpi3Receive_sends
    (hEnv : env.OnlyMessagesFail)
    (mspi : MipiDbiSpi) (reg : Nat → UInt8)
    (trLen valLen : Nat)
    {w : World} (hTx : w.TxOk) :
    ∃ result w', mipiDbiSpi3Receive env mspi (.heap reg) trLen
        valLen w = .ok result w' ∧
      ReadOutcome (reg 0) w w' := by
  let w₂ := w.beforeRead env
  let xfers := readXfers mspi reg w.now trLen
  have hAlloc :
      w.Quiet (w.record (.kmalloc (env.kmalloc w.now))) :=
    .of_log _ rfl (by simp [Call.isMessage])
  have hQuiet : w.Quiet w₂ :=
    hAlloc.trans (World.quiet_afterGpio _ .dc false)
  have hLow : w₂.level .dc = false :=
    World.afterGpio_level_self (hEnv.dcLine _)
  have hMessages :
      (w₂.afterSpidev env xfers).messages =
        w.messages ++ [w₂.spiRecord env xfers] := by
    rw [World.messages_afterSpidev, hQuiet.messages]
  refine ⟨_, w₂.afterSpidev env xfers,
    mipiDbiSpi3Receive_eq mspi reg trLen valLen
      (hEnv.kmalloc _) hTx rfl,
    hTx, ⟨_, hMessages, ?_⟩, ?_⟩
  · intro first rest hSent _
    cases hSent
    rfl
  · rw [World.wire_afterSpidev, hQuiet.wire, hLow]
    cases env.spidev w₂.now with
    | none =>
        refine ⟨_, rfl, ?_⟩
        simp [xfers, readXfers, receiveOf, iocOf, World.mosi,
          World.bytes, World.byte, commandFrame, labelled]
    | some e => exact ⟨[], rfl, List.nil_prefix⟩

theorem mipiDbiSpi3Read_sends
    (hEnv : env.OnlyMessagesFail)
    (mspi : MipiDbiSpi) (reg : Nat → UInt8) (valLen : Nat)
    {w : World} (hTx : w.TxOk) :
    ∃ result w', mipiDbiSpi3Read env mspi (.heap reg) valLen w =
        .ok result w' ∧
      ReadOutcome (reg 0) w w' := by
  have hReceive := fun trLen => mipiDbiSpi3Receive_sends hEnv
    mspi reg trLen valLen hTx
  have hRefused : ReadOutcome (reg 0) w w :=
    .of_quiet (.of_log_eq rfl) hTx
  unfold mipiDbiSpi3Read
  rw [Effect.bind_of_ok (Effect.get_apply w)]
  -- the refusals of the source, in its order
  split
  · exact ⟨_, w, rfl, hRefused⟩
  split
  · split
    · exact hReceive _
    · exact ⟨_, w, rfl, hRefused⟩
  · exact hReceive _

theorem regmapRawRead_sends
    (hEnv : env.OnlyMessagesFail)
    (mspi : MipiDbiSpi) (hDc : mspi.dc = true)
    (cmd : UInt8) (valLen : Nat)
    {w : World} (hTx : w.TxOk) :
    ∃ result w', regmapRawRead env mspi cmd.toNat valLen w =
        .ok result w' ∧
      ReadOutcome cmd w w' := by
  let s : World :=
    { w with workBuf := Function.update w.workBuf 0 cmd }
  have hQuiet : w.Quiet s := .of_log_eq rfl
  rcases mipiDbiSpi3Read_sends hEnv mspi s.workBuf valLen
      (w := s) hTx with
    ⟨result, w', hRun, hOutcome⟩
  have hCmd : s.workBuf 0 = cmd := by simp [s]
  rw [hCmd] at hOutcome
  unfold regmapRawRead
  split
  · exact ⟨_, w, rfl, .of_quiet (.of_log_eq rfl) hTx⟩
  split
  · exact ⟨_, w, rfl, .of_quiet (.of_log_eq rfl) hTx⟩
  · have hFormat :
        regmapFormat8 0 cmd.toNat.toUInt8 w = .ok () s := by
      simp [regmapFormat8, s]
    refine ⟨result, w', ?_, hOutcome.txOk, ?_, ?_⟩
    · rw [Effect.bind_of_ok hFormat,
        Effect.bind_of_ok (Effect.get_apply s)]
      simp only [busRead, hDc, if_true]
      exact hRun
    · have hStops := hOutcome.stops
      unfold StopsAtCommand at hStops ⊢
      rwa [hQuiet.messages] at hStops
    · have hFrame := hOutcome.frame
      rwa [hQuiet.wire] at hFrame

end Utinydrm

------------------------------------------------------------
-- Runs
------------------------------------------------------------

namespace Utinydrm

variable {env : Env}

/- An access returns, keeps the invariant and sends a frame. -/
theorem access_sends
    (hEnv : env.OnlyMessagesFail)
    (spi : SpiDevice) (writeOnly : Bool)
    (access : Access) {w : World} (hTx : w.TxOk) :
    ∃ ret w', access.run env
        (mipiDbiSpiInit spi true writeOnly) w = .ok ret w' ∧
      w'.TxOk ∧ access.Sends ret w w' := by
  have hChunk :
      0 < (mipiDbiSpiInit spi true writeOnly).chunkSize :=
    tinydrmSpiMaxTransferSize_pos spi 0
  cases access with
  | write cmd parameters =>
      rcases mipiDbiWriteBuf_sends hEnv
          (mipiDbiSpiInit spi true writeOnly) hChunk rfl cmd
          parameters hTx with
        ⟨ret, w', hRun, hOutcome⟩
      exact ⟨ret, w', hRun, hOutcome.txOk, hOutcome.stops,
        hOutcome.frame⟩
  | read cmd valLen =>
      rcases regmapRawRead_sends hEnv
          (mipiDbiSpiInit spi true writeOnly) rfl cmd valLen
          hTx with
        ⟨result, w', hRun, hOutcome⟩
      exact ⟨result.1, w', Effect.bind_of_ok hRun,
        hOutcome.txOk, hOutcome.stops, hOutcome.frame⟩

/-
  In every state that a sequence of writes and reads leads
  to, with any messages failing, the next access returns and
  sends part of its frame.
-/
theorem option3_command_protocol
    (env : Env) (hEnv : env.OnlyMessagesFail)
    (spi : SpiDevice) (writeOnly : Bool)
    {w₀ w : World} {history : List (Access × Int)}
    (hTx : w₀.TxOk)
    (hRun : Transition.Run
      (AccessStep env (mipiDbiSpiInit spi true writeOnly))
      Transition.unguarded w₀ history w)
    (access : Access) :
    ∃ ret w', access.run env
        (mipiDbiSpiInit spi true writeOnly) w = .ok ret w' ∧
      access.Sends ret w w' := by
  have hInv : w.TxOk := by
    apply hRun.invariant World.TxOk hTx
    intro _ s label s' hOk _ hStep
    rcases access_sends hEnv spi writeOnly label.1 hOk with
      ⟨ret, s₂, hSame, hOk', _⟩
    cases hSame.symm.trans hStep
    exact hOk'
  rcases access_sends hEnv spi writeOnly access hInv with
    ⟨ret, w', hAccess, _, hSends⟩
  exact ⟨ret, w', hAccess, hSends⟩

/- A kernel whose thirtieth call is a message that fails. -/
theorem option3_command_protocol_failing :
    ∃ ret w', (Access.write 0x2A [0, 0, 1, 63]).run
        { Env.granting with
          spidev := fun n =>
            if n = 29 then some ⟨5, by decide, by decide⟩
            else none }
        (mipiDbiSpiInit mainSpi true false)
        (World.atProbe (-1)) = .ok ret w' ∧
      (Access.write 0x2A [0, 0, 1, 63]).Sends ret
        (World.atProbe (-1)) w' := by
  refine option3_command_protocol _ ?_ _ _ ?_ .nil _
  · refine ⟨fun _ => rfl, fun _ => rfl,
      fun _ => ⟨rfl, rfl, rfl, rfl, rfl⟩, ?_⟩
    intro n e hError
    by_cases hCall : n = 29
    · simp only [hCall, if_true, Option.some.injEq] at hError
      rw [← hError]
      decide
    · simp [hCall] at hError
  · exact World.txOk_atProbe (-1)

end Utinydrm
