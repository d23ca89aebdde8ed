import Utinydrm.MipiDbi.ChunkProgress
import Utinydrm.MipiDbi.EmulatedWords

/-
  Writes of an odd number of bytes to the memory of the
  display, where a word has 16 bits.

  Only the transfer of native words looks at the length. The
  transfer of packed words rounds the last word down or up,
  and option 3 sends the odd byte, or what the swap buffer
  holds in its place: both report success.

  Key definitions include:
    * `RefusesWrite`

  Main declarations:
    * `odd_write_refused_iff`
-/

------------------------------------------------------------
-- Refusals
------------------------------------------------------------

namespace Utinydrm

variable {env : Env}

/-
  A write is refused without sending any of its data: the
  messages are those of the same write without data.
-/
def RefusesWrite
    (env : Env) (mspi : MipiDbiSpi)
    (reg val : Ptr) (valLen : Nat) (w : World) : Prop :=
  ∃ ret w₀ w',
    busGatherWrite env mspi reg 1 (some val) 0 w = .ok ret w₀ ∧
    busGatherWrite env mspi reg 1 (some val) valLen w =
      .ok (-EINVAL) w' ∧
    w'.messages = w₀.messages

/- With no message failing, spidev does not refuse. -/
theorem busCodes_accepted
    (hBus : ∀ n, env.spidev n = none) :
    BusCodes env (· ≠ -EINVAL) where
  bus := by
    intro ret hResult
    rcases hResult with rfl | ⟨n, e, hError, _⟩
    · decide
    · simp [hBus] at hError
  enomem := by decide

/- The command byte of a write, as one native word. -/
theorem mipiDbiSpi1Transfer_commandWord
    (hBus : ∀ n, env.spidev n = none)
    {spi : SpiDevice}
    (hNine : tinydrmSpiBpwSupported spi 9 = true)
    (hDma : 4 ≤ spi.master.maxDmaLen)
    (reg : Ptr) {w : World} (hTx : w.TxOk)
    (hGranted : env.kmalloc w.now = true) :
    ∃ w', mipiDbiSpi1Transfer env spi 8 false reg 1 4096 w =
      .ok 0 w' := by
  have hClamp := four_le_mipiDbiSpiClampSize spi 4096 hDma
  have hOne : min (mipiDbiSpiClampSize spi 4096 / 2) 1 = 1 := by
    omega
  rw [mipiDbiSpi1Transfer_walk spi hNine hDma false reg
    (by decide) 4096 hGranted, hOne]
  have hTx' : (w.record (.kmalloc true)).TxOk := hTx
  refine ⟨_, Effect.bind_of_ok (spiSync_heap hBus spi rfl hTx')⟩

end Utinydrm

------------------------------------------------------------
-- The Variants
------------------------------------------------------------

namespace Utinydrm

variable {env : Env}

/- Option 3 takes any number of bytes. -/
theorem not_refusesWrite_option3
    (hBus : ∀ n, env.spidev n = none)
    (spi : SpiDevice) (writeOnly : Bool)
    (reg val : Ptr) (valLen : Nat) (w : World) :
    ¬ RefusesWrite env (mipiDbiSpiInit spi true writeOnly) reg
      val valLen w := by
  rintro ⟨_, _, w', _, hRun, _⟩
  have hReturns := returns_mipiDbiSpi3GatherWrite
    (busCodes_accepted hBus) (mipiDbiSpiInit spi true writeOnly)
    reg 1 (some val) valLen (fun hReg => absurd rfl hReg)
  exact hReturns w (-EINVAL) w' hRun rfl

section Option1

variable {mspi : MipiDbiSpi} (hDc : mspi.dc = false)
variable (reg val : Ptr) {valLen : Nat} {w : World}

include hDc

theorem refusesWrite_option1_iff :
    RefusesWrite env mspi reg val valLen w ↔
      ∃ ret w₀ w',
        mipiDbiSpi1GatherWrite env mspi reg 1 (some val) 0 w =
          .ok ret w₀ ∧
        mipiDbiSpi1GatherWrite env mspi reg 1 (some val) valLen
          w = .ok (-EINVAL) w' ∧
        w'.messages = w₀.messages := by
  have hGather : ∀ len,
      busGatherWrite env mspi reg 1 (some val) len =
        mipiDbiSpi1GatherWrite env mspi reg 1 (some val)
          len := by
    intro len
    rw [busGatherWrite, hDc, if_neg Bool.false_ne_true]
  simp only [RefusesWrite, hGather]

/-
  The transfer of native words refuses an odd length once the
  command is sent, if it gets that far.
-/
theorem refusesWrite_native_iff
    (hBus : ∀ n, env.spidev n = none)
    (hGranted : env.kmalloc w.now = true)
    (hNine : tinydrmSpiBpwSupported mspi.spi 9 = true)
    (hReg : (w.byte reg 0).toNat = mspi.ramReg)
    (hOdd : valLen % 2 = 1)
    (hTx : w.TxOk) :
    RefusesWrite env mspi reg val valLen w ↔
      4 ≤ mspi.spi.master.maxDmaLen := by
  rw [refusesWrite_option1_iff hDc]
  constructor
  · rintro ⟨_, _, w', _, hRun, _⟩
    have hNot := (mipiDbiSpi1GatherWrite_finishes_iff hBus mspi
      reg (some val) valLen hTx).mp ⟨-EINVAL, w', hRun⟩
    by_contra hShort
    exact hNot ⟨hNine, by omega, hGranted⟩
  · intro hDma
    rcases mipiDbiSpi1Transfer_commandWord hBus hNine hDma reg hTx
        hGranted with ⟨s, hCommand⟩
    have hData : mipiDbiSpi1Transfer env mspi.spi 16 true val
        valLen 4096 s = .ok (-EINVAL) s :=
      mipiDbiSpi1Transfer_odd mspi.spi hNine true val 4096
        (by omega)
    have hSome : valLen ≠ 0 := by omega
    refine ⟨0, s, s, ?_, ?_, rfl⟩
    · exact mipiDbiSpi1GatherWrite_empty hCommand (some val)
    · rw [mipiDbiSpi1GatherWrite_data hCommand val hSome,
        if_pos hReg]
      exact hData

/-
  The transfer of packed words never does: it refuses all
  lengths when there is no room for a block, and else none.
-/
theorem refusesWrite_packed_iff
    (hBus : ∀ n, env.spidev n = none)
    (hNine : tinydrmSpiBpwSupported mspi.spi 9 = false) :
    RefusesWrite env mspi reg val valLen w ↔
      mspi.spi.master.maxDmaLen < 12 := by
  have hRoom : mipiDbiSpiClampSize mspi.spi 4096 < 9 ↔
      mspi.spi.master.maxDmaLen < 12 := by
    unfold mipiDbiSpiClampSize spiMaxTransferSize sizeMax
    dsimp only
    rw [if_neg (by decide)]
    omega
  rw [refusesWrite_option1_iff hDc, ← hRoom]
  constructor
  · rintro ⟨_, _, w', _, hRun, _⟩
    by_contra hBlock
    have hReturns := returns_mipiDbiSpi1GatherWrite
      (busCodes_accepted hBus) mspi reg 1 (some val) valLen
      (fun hRefused => by
        rcases hRefused with hLen | hNative | hNone
        · exact absurd rfl hLen
        · exact absurd (hNine.symm.trans hNative) (by decide)
        · exact absurd hNone hBlock)
    exact hReturns w (-EINVAL) w' hRun rfl
  · intro hNone
    have hRefused : ∀ len,
        mipiDbiSpi1GatherWrite env mspi reg 1 (some val) len w =
          .ok (-EINVAL) w := by
      intro len
      exact mipiDbiSpi1GatherWrite_refused mspi hNine hNone reg
        (some val) len w
    exact ⟨-EINVAL, w, w, hRefused 0, hRefused valLen, rfl⟩

end Option1

/-
  With nothing failing, a write of an odd number of bytes to
  the memory of the display is refused if and only if it is
  made over option 1, by a controller with words of 9 bits
  that takes four bytes or by one without that has no room
  for a block.
-/
theorem odd_write_refused_iff
    (env : Env) (hBus : ∀ n, env.spidev n = none)
    (hAlloc : ∀ n, env.kmalloc n = true)
    (spi : SpiDevice) (dc writeOnly : Bool)
    (reg val : Ptr) (valLen : Nat) (hOdd : valLen % 2 = 1)
    (w : World) (hTx : w.TxOk)
    (hReg : (w.byte reg 0).toNat =
      MIPI_DCS_WRITE_MEMORY_START) :
    RefusesWrite env (mipiDbiSpiInit spi dc writeOnly) reg val
        valLen w ↔
      dc = false ∧
        if tinydrmSpiBpwSupported spi 9 = true then
          4 ≤ spi.master.maxDmaLen
        else
          spi.master.maxDmaLen < 12 := by
  cases dc with
  | true =>
      apply iff_of_false
      · exact not_refusesWrite_option3 hBus spi writeOnly reg
          val valLen w
      · rintro ⟨hFalse, _⟩
        cases hFalse
  | false =>
      rw [and_iff_right rfl]
      split
      case isTrue hNine =>
        exact refusesWrite_native_iff rfl reg val hBus
          (hAlloc _) hNine hReg hOdd hTx
      case isFalse hNine =>
        have hNot : tinydrmSpiBpwSupported spi 9 = false := by
          simpa using hNine
        exact refusesWrite_packed_iff rfl reg val hBus hNot

/- A single byte, to a controller with words of 9 bits. -/
theorem odd_write_refused_native :
    RefusesWrite Env.granting (mipiDbiSpiInit nineBitSpi false false)
      (.heap fun _ => 0x2C) (.heap fun _ => 0xF8) 1
      (World.atProbe (-1)) :=
  (odd_write_refused_iff Env.granting (fun _ => rfl)
    (fun _ => rfl) nineBitSpi false false (.heap fun _ => 0x2C)
    (.heap fun _ => 0xF8) 1 rfl (World.atProbe (-1))
    (World.txOk_atProbe (-1)) rfl).mpr
      ⟨rfl, by decide⟩

/- The same over option 3. -/
theorem odd_write_refused_option3 :
    ¬ ∀ (env : Env) (spi : SpiDevice) (dc writeOnly : Bool)
      (reg val : Ptr) (valLen : Nat) (w : World),
      (∀ n, env.spidev n = none) →
      (∀ n, env.kmalloc n = true) →
      valLen % 2 = 1 → w.TxOk →
      (w.byte reg 0).toNat = MIPI_DCS_WRITE_MEMORY_START →
      RefusesWrite env (mipiDbiSpiInit spi dc writeOnly) reg
        val valLen w := by
  intro hClaim
  have hRefused := hClaim Env.granting mainSpi true false
    (.heap fun _ => 0x2C) (.heap fun _ => 0xF8) 1
    (World.atProbe (-1)) (fun _ => rfl) (fun _ => rfl) rfl
    (World.txOk_atProbe (-1)) rfl
  exact not_refusesWrite_option3 (fun _ => rfl) mainSpi false
    (.heap fun _ => 0x2C) (.heap fun _ => 0xF8) 1
    (World.atProbe (-1)) hRefused

end Utinydrm
