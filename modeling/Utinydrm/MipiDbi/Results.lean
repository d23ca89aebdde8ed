import Utinydrm.MipiDbi.CommandProtocol
import Utinydrm.Tinydrm.Flush

/-
  What the functions behind a register write return: zero, or
  an error number, negated.

  Key definitions include:
    * `BusCodes` and `ErrorCodes`: what a predicate on the
      results has to allow for

  Main declarations:
    * `returns_regmapRawWrite`
    * `returns_tinydrmRegmapFlushRgb565`
    * `regmapRawWrite_eq`
-/

------------------------------------------------------------
-- SPI
------------------------------------------------------------

namespace Utinydrm

/- Zero, or the negative of an error number. -/
def IsErrorCode (ret : Int) : Prop := ret ≤ 0

/-
  Satisfied by what spidev returns, and by the error of an
  allocation.
-/
structure BusCodes (env : Env) (Q : Int → Prop) : Prop where
  bus : ∀ ret, BusResult env ret → Q ret
  enomem : Q (-ENOMEM)

/- By the error of an argument that is refused as well. -/
structure ErrorCodes (env : Env) (Q : Int → Prop) : Prop
    extends BusCodes env Q where
  einval : Q (-EINVAL)

theorem errorCodes_isErrorCode (env : Env) :
    ErrorCodes env IsErrorCode where
  bus := by
    intro ret hResult
    rcases hResult with rfl | ⟨_, e, _, rfl⟩
    · exact le_refl 0
    · have hPos := e.pos
      simp only [IsErrorCode, Errno.ret]
      omega
  einval := by
    unfold IsErrorCode
    decide
  enomem := by
    unfold IsErrorCode
    decide

variable {env : Env} {Q : Int → Prop}
variable (hQ : BusCodes env Q)

include hQ

theorem BusCodes.zero : Q 0 :=
  hQ.bus 0 (Or.inl rfl)

theorem returns_spiSync_code
    (spi : SpiDevice) (m : SpiMessage) :
    Effect.Returns Q (spiSync env spi m) :=
  (returns_spiSync env spi m).mono hQ.bus

/- Only a width or a missing buffer may be refused. -/
theorem returns_tinydrmSpiTransfer
    (spi : SpiDevice) (speedHz : Nat)
    (header : Option SpiTransfer) (bpw : Nat)
    (buf : Ptr) (len : Nat)
    (swapBuf : Option Nat) (maxChunk : Nat)
    (hEinval : bpw ≠ 8 ∧ bpw ≠ 16 ∨ swapBuf = none →
      Q (-EINVAL)) :
    Effect.Returns Q
      (tinydrmSpiTransfer env spi speedHz header bpw buf len
        swapBuf maxChunk) := by
  refine Effect.returns_ite
    (fun hWidth =>
      Effect.returns_pure (hEinval (Or.inl hWidth)))
    fun _ => ?_
  refine Effect.returns_ite
    (fun hSwap => Effect.returns_pure
      (hEinval (Or.inr (by simp_all))))
    fun _ => ?_
  exact Chunking.returns_chunkLoop hQ.zero
    (fun _ _ => Effect.returns_bind
      fun _ => returns_spiSync_code hQ spi _) len

end Utinydrm

------------------------------------------------------------
-- The Two Buses
------------------------------------------------------------

namespace Utinydrm

variable {env : Env} {Q : Int → Prop}
variable (hQ : BusCodes env Q)

include hQ

/- So may a limit below a block, or a command not one byte. -/
theorem returns_mipiDbiSpi1eTransfer
    (spi : SpiDevice) (bitsPerWord : Nat) (dc : Bool)
    (buf : Ptr) (len maxChunk : Nat)
    (hEinval : mipiDbiSpiClampSize spi maxChunk < 9 ∨
      dc = false ∧ (len ≠ 1 ∨ bitsPerWord ≠ 8) →
      Q (-EINVAL)) :
    Effect.Returns Q
      (mipiDbiSpi1eTransfer env spi bitsPerWord dc buf len
        maxChunk) := by
  apply Effect.returns_bind
  intro w
  refine Effect.returns_ite
    (fun hRoom => Effect.returns_pure (hEinval (Or.inl hRoom)))
    fun _ => ?_
  refine Effect.returns_ite (fun hDc => ?_) fun _ => ?_
  · refine Effect.returns_ite
      (fun hByte => Effect.returns_pure
        (hEinval (Or.inr ⟨hDc, hByte⟩)))
      fun _ => ?_
    exact Effect.returns_bind fun _ => Effect.returns_ite
      (fun _ => returns_spiSync_code hQ spi _)
      (fun _ => Effect.returns_pure hQ.enomem)
  · exact Effect.returns_bind fun _ => Effect.returns_ite
      (fun _ => Chunking.returns_chunkLoop hQ.zero
        (fun _ _ => returns_spiSync_code hQ spi _) len)
      (fun _ => Effect.returns_pure hQ.enomem)

/- With words of 9 bits an odd number of bytes may. -/
theorem returns_mipiDbiSpi1Transfer
    (spi : SpiDevice) (bitsPerWord : Nat) (dc : Bool)
    (buf : Ptr) (len maxChunk : Nat)
    (hEinval : tinydrmSpiBpwSupported spi 9 = true ∨
      mipiDbiSpiClampSize spi maxChunk < 9 ∨
      dc = false ∧ (len ≠ 1 ∨ bitsPerWord ≠ 8) →
      Q (-EINVAL)) :
    Effect.Returns Q
      (mipiDbiSpi1Transfer env spi bitsPerWord dc buf len
        maxChunk) := by
  apply Effect.returns_bind
  intro w
  refine Effect.returns_ite
    (fun _ => returns_mipiDbiSpi1eTransfer hQ _ _ _ _ _ _
      fun hRefused => hEinval (Or.inr hRefused))
    fun hNine => ?_
  refine Effect.returns_ite
    (fun _ => Effect.returns_pure
      (hEinval (Or.inl (by simpa using hNine))))
    fun _ => ?_
  exact Effect.returns_bind fun _ => Effect.returns_ite
    (fun _ => Chunking.returns_chunkLoop hQ.zero
      (fun _ _ => returns_spiSync_code hQ spi _) len)
    (fun _ => Effect.returns_pure hQ.enomem)

theorem returns_mipiDbiSpi1GatherWrite
    (mspi : MipiDbiSpi)
    (reg : Ptr) (regLen : Nat)
    (val : Option Ptr) (valLen : Nat)
    (hEinval : regLen ≠ 1 ∨
      tinydrmSpiBpwSupported mspi.spi 9 = true ∨
      mipiDbiSpiClampSize mspi.spi 4096 < 9 →
      Q (-EINVAL)) :
    Effect.Returns Q
      (mipiDbiSpi1GatherWrite env mspi reg regLen val
        valLen) := by
  refine Effect.returns_bind fun w => Effect.returns_ite
    (fun hReg => Effect.returns_pure (hEinval (Or.inl hReg)))
    fun hReg => ?_
  have hCommand := returns_mipiDbiSpi1Transfer hQ mspi.spi 8
    false reg regLen 4096 (fun hRefused => by
      apply hEinval
      rcases hRefused with hNine | hRoom | hByte
      · exact Or.inr (Or.inl hNine)
      · exact Or.inr (Or.inr hRoom)
      · exact absurd hByte.2 (by simpa using hReg))
  refine Effect.returns_bind_of hCommand fun ret hRet => ?_
  refine Effect.returns_ite
    (fun _ => Effect.returns_pure hRet) fun _ => ?_
  cases val with
  | none => exact Effect.returns_pure hRet
  | some p =>
      refine Effect.returns_ite (fun _ => ?_)
        fun _ => Effect.returns_pure hRet
      apply returns_mipiDbiSpi1Transfer hQ
      intro hRefused
      apply hEinval
      rcases hRefused with hNine | hRoom | hByte
      · exact Or.inr (Or.inl hNine)
      · exact Or.inr (Or.inr hRoom)
      · cases hByte.1

/- The two transfers of option 3 are never refused. -/
theorem returns_mipiDbiSpi3Send
    (mspi : MipiDbiSpi) (txBuf width : Nat)
    (hWidth : width = 8 ∨ width = 16)
    (reg : Ptr) (val : Option Ptr) (valLen : Nat) :
    Effect.Returns Q
      (mipiDbiSpi3Send env mspi txBuf width reg val
        valLen) := by
  have hTransfer := fun bpw (hBpw : bpw = 8 ∨ bpw = 16) buf
      len =>
    returns_tinydrmSpiTransfer hQ mspi.spi 0 none bpw buf len
      (some txBuf) mspi.chunkSize
      (fun hRefused => by
        rcases hRefused with hNot | hNone
        · omega
        · cases hNone)
  apply Effect.returns_bind
  intro _
  refine Effect.returns_bind_of (hTransfer 8 (Or.inl rfl) reg 1)
    fun ret hRet => ?_
  refine Effect.returns_ite
    (fun _ => Effect.returns_pure hRet) fun _ => ?_
  cases val with
  | none => exact Effect.returns_pure hRet
  | some p =>
      exact Effect.returns_ite
        (fun _ => Effect.returns_bind fun _ =>
          hTransfer width hWidth p valLen)
        (fun _ => Effect.returns_pure hRet)

theorem returns_mipiDbiSpi3GatherWrite
    (mspi : MipiDbiSpi)
    (reg : Ptr) (regLen : Nat)
    (val : Option Ptr) (valLen : Nat)
    (hEinval : regLen ≠ 1 → Q (-EINVAL)) :
    Effect.Returns Q
      (mipiDbiSpi3GatherWrite env mspi reg regLen val
        valLen) := by
  refine Effect.returns_bind fun w => Effect.returns_ite
    (fun hReg => Effect.returns_pure (hEinval hReg))
    fun _ => Effect.returns_bind fun txBuf => ?_
  cases txBuf with
  | none => exact Effect.returns_pure hQ.enomem
  | some addr =>
      apply returns_mipiDbiSpi3Send hQ
      exact valWidth_cases mspi (w.byte reg 0)

end Utinydrm

------------------------------------------------------------
-- The Register Map
------------------------------------------------------------

namespace Utinydrm

variable {env : Env} {Q : Int → Prop}
variable (hQ : ErrorCodes env Q)

include hQ

theorem returns_busGatherWrite
    (mspi : MipiDbiSpi)
    (reg : Ptr) (regLen : Nat)
    (val : Option Ptr) (valLen : Nat) :
    Effect.Returns Q
      (busGatherWrite env mspi reg regLen val valLen) :=
  Effect.returns_ite
    (fun _ => returns_mipiDbiSpi3GatherWrite hQ.toBusCodes
      _ _ _ _ _ (fun _ => hQ.einval))
    (fun _ => returns_mipiDbiSpi1GatherWrite hQ.toBusCodes
      _ _ _ _ _ (fun _ => hQ.einval))

theorem returns_busWrite
    (mspi : MipiDbiSpi)
    (data : Ptr) (count : Nat) :
    Effect.Returns Q
      (busWrite env mspi data count) := by
  rw [busWrite_eq]
  exact returns_busGatherWrite hQ _ _ _ _ _

theorem returns_regmapRawWrite
    (mspi : MipiDbiSpi)
    (reg : Nat) (val : Ptr) (valLen : Nat) :
    Effect.Returns Q
      (regmapRawWrite env mspi reg val valLen) := by
  have hWriteOut : Effect.Returns Q
      (regmapWriteOut env mspi val valLen) :=
    Effect.returns_bind fun _ => Effect.returns_ite
      (fun _ => Effect.returns_bind
        fun _ => Effect.returns_bind
          fun _ => returns_busWrite hQ _ _ _)
      (fun _ => returns_busGatherWrite hQ _ _ _ _ _)
  have hLinearise : Effect.Returns Q
      (regmapLinearise env mspi val valLen) :=
    Effect.returns_bind fun _ => Effect.returns_bind
      fun _ => Effect.returns_ite
        (fun _ => returns_busWrite hQ _ _ _)
        (fun _ => Effect.returns_pure hQ.enomem)
  refine Effect.returns_ite
    (fun _ => Effect.returns_pure hQ.einval)
    fun _ => Effect.returns_bind fun _ => ?_
  exact Effect.returns_bind_of hWriteOut fun ret hRet =>
    Effect.returns_ite (fun _ => hLinearise)
      (fun _ => Effect.returns_pure hRet)

theorem returns_tinydrmRegmapFlushRgb565
    (mspi : MipiDbiSpi) (regnr : Nat)
    (fb : UtinydrmFb) (vmem : Ptr) (clip : DrmClipRect) :
    Effect.Returns Q
      (tinydrmRegmapFlushRgb565 env mspi regnr fb vmem
        clip) := by
  apply Effect.returns_bind
  intro w
  dsimp only
  cases fb.pixelFormat
  case rgb565 => exact returns_regmapRawWrite hQ _ _ _ _
  case xrgb8888 =>
    exact Effect.returns_bind fun _ => Effect.returns_ite
      (fun _ => returns_regmapRawWrite hQ _ _ _ _)
      (fun _ => Effect.returns_pure hQ.enomem)
  all_goals exact Effect.returns_pure hQ.einval

end Utinydrm

------------------------------------------------------------
-- One Bus Write
------------------------------------------------------------

namespace Utinydrm

variable {env : Env}

theorem errorCodes_supported
    (hSupported : ∀ n e, env.spidev n = some e →
      e.ret ≠ -ENOTSUPP) :
    ErrorCodes env (· ≠ -ENOTSUPP) where
  bus := by
    intro ret hResult
    rcases hResult with rfl | ⟨n, e, hError, rfl⟩
    · decide
    · exact hSupported n e hError
  einval := by decide
  enomem := by decide

/-
  Without an error that makes it try another way, a register
  write is one gather write.
-/
theorem regmapRawWrite_eq
    (env : Env)
    (hSupported : ∀ n e, env.spidev n = some e →
      e.ret ≠ -ENOTSUPP)
    (mspi : MipiDbiSpi) (cmd : Nat) (val : Ptr) (valLen : Nat)
    (w : World) :
    ∃ buf p, regmapRawWrite env mspi cmd val valLen w =
        busGatherWrite env mspi (.heap buf) 1 (some p) valLen
          { w with workBuf := buf } ∧
      buf 0 = cmd.toUInt8 ∧
      ∀ i < valLen, w.byte p i = w.byte val i := by
  rcases regmapRawWrite_out env mspi cmd val valLen w with
    ⟨buf, p, hWrite, hCmd, hCopies⟩
  have hReturns := returns_busGatherWrite
    (errorCodes_supported hSupported) mspi (.heap buf) 1
    (some p) valLen { w with workBuf := buf }
  refine ⟨buf, p, ?_, hCmd, hCopies.bytes⟩
  rw [hWrite]
  cases hRun : busGatherWrite env mspi (.heap buf) 1 (some p)
      valLen { w with workBuf := buf } with
  | ok ret w' =>
      rw [Effect.bind_of_ok hRun, if_neg (hReturns ret w' hRun)]
      rfl
  | error e w' => rw [Effect.bind_of_error hRun]

end Utinydrm
