import Utinydrm.MipiDbi.NativeWords
import Utinydrm.MipiDbi.Results

/-
  Whether the chunk loops of a register write come to an end.

  The chunks of option 3 are never empty, and the transfer of
  packed words is refused when there is no room for a block.
  The transfer of native words takes half of a limit that is
  zero for a controller with a limit below four bytes: its
  loop then takes nothing off the length.

  Key definitions include:
    * `Finishes`
    * `derefOnly`: a program does not hang
    * `WriteFinishes`

  Main declarations:
    * `mipiDbiSpi1Transfer_finishes_iff`
    * `regmapRawWrite_finishes_iff`
    * `register_write_finishes_iff`
-/

------------------------------------------------------------
-- Finishing
------------------------------------------------------------

namespace Utinydrm

/- The program returns. -/
def Finishes (program : Driver Int) (w : World) : Prop :=
  ∃ ret w', program w = .ok ret w'

/-
  The transmit buffer does not become an error pointer, and
  following one is the only fault: no loop hangs.
-/
def derefOnly : Effect.Contract Fault World where
  step := fun w w' => w.TxOk → w'.TxOk
  fault := fun _ w => ¬ w.TxOk
  refl := fun _ hTx => hTx
  trans := fun h₁ h₂ hTx => h₂ (h₁ hTx)

theorem sendContract_derefOnly (env : Env) :
    SendContract env derefOnly where
  spidev := fun _ _ hTx => hTx
  memory := fun _ _ hTx => hTx
  deref := fun _ e hErr hOk => hOk e hErr

/- Such a program returns where the buffer is no error. -/
theorem returns_of_derefOnly
    {program : Driver Int} {w : World}
    (hMeets : Effect.Meets derefOnly program w)
    (hTx : w.TxOk) :
    ∃ ret w', program w = .ok ret w' ∧ w'.TxOk := by
  cases hRun : program w with
  | ok ret w' => exact ⟨ret, w', rfl, hMeets.of_ok hRun hTx⟩
  | error e w' =>
      rcases hMeets.of_error hRun with ⟨hStep, hFault⟩
      exact absurd (hStep hTx) hFault

theorem Finishes.of_derefOnly
    {program : Driver Int} {w : World}
    (hMeets : Effect.Meets derefOnly program w)
    (hTx : w.TxOk) :
    Finishes program w := by
  rcases returns_of_derefOnly hMeets hTx with
    ⟨ret, w', hRun, _⟩
  exact ⟨ret, w', hRun⟩

theorem Finishes.congr
    {program program' : Driver Int} {w w' : World}
    (hSame : program w = program' w') :
    Finishes program w ↔ Finishes program' w' := by
  unfold Finishes
  rw [hSame]

theorem not_finishes_of_error
    {program : Driver Int} {w : World}
    (hError : ∃ e w', program w = .error e w') :
    ¬ Finishes program w := by
  rintro ⟨ret, w', hRun⟩
  rcases hError with ⟨e, s, hError⟩
  cases hRun.symm.trans hError

end Utinydrm

------------------------------------------------------------
-- Transfers
------------------------------------------------------------

namespace Utinydrm

variable {env : Env}

theorem meets_kmalloc_derefOnly (env : Env) (w : World) :
    Effect.Meets derefOnly (kmalloc env) w :=
  fun hTx => hTx

/- The packed transfer comes to an end for every limit. -/
theorem mipiDbiSpi1eTransfer_finishes
    (env : Env) (spi : SpiDevice) (bitsPerWord : Nat)
    (dc : Bool) (buf : Ptr) (len maxChunk : Nat)
    {w : World} (hTx : w.TxOk) :
    Finishes
      (mipiDbiSpi1eTransfer env spi bitsPerWord dc buf len
        maxChunk) w :=
  .of_derefOnly
    (meets_mipiDbiSpi1eTransfer (sendContract_derefOnly env)
      (meets_kmalloc_derefOnly env) _ _ _ _ _ _ w) hTx

/- So does a transfer in chunks of the interface. -/
theorem tinydrmSpiTransfer_finishes
    (env : Env) {spi : SpiDevice} (speedHz : Nat)
    (header : Option SpiTransfer)
    (bpw : Nat) (buf : Ptr) (len : Nat) (swapBuf : Option Nat)
    (dc writeOnly : Bool)
    {w : World} (hTx : w.TxOk) :
    Finishes
      (tinydrmSpiTransfer env spi speedHz header bpw buf len
        swapBuf (mipiDbiSpiInit spi dc writeOnly).chunkSize)
      w := by
  have hMax := tinydrmSpiMaxTransferSize_pos spi 0
  exact .of_derefOnly
    (meets_tinydrmSpiTransfer (sendContract_derefOnly env)
      _ _ _ _ _ _ _ _ w (fun hZero => absurd hZero hMax.ne'))
    hTx

/- A limit below four bytes is rounded to nothing. -/
theorem mipiDbiSpiClampSize_half_eq_zero_iff
    (spi : SpiDevice) (size : Nat) :
    mipiDbiSpiClampSize spi size / 2 = 0 ↔
      spi.master.maxDmaLen < 4 := by
  unfold mipiDbiSpiClampSize spiMaxTransferSize sizeMax
  dsimp only
  omega

section Native

variable {spi : SpiDevice} (bitsPerWord : Nat) (dc : Bool)
variable (buf : Ptr) {len : Nat} (maxChunk : Nat) {w : World}

/- The loop of a transfer that is not refused hangs then. -/
theorem mipiDbiSpi1Transfer_hangs
    (hBus : ∀ n, env.spidev n = none)
    (hNine : tinydrmSpiBpwSupported spi 9 = true)
    (hShort : spi.master.maxDmaLen < 4)
    (hLen : 0 < len)
    (hEven : bitsPerWord = 16 → len % 2 = 0)
    (hTx : w.TxOk)
    (hGranted : env.kmalloc w.now = true) :
    ∃ w', mipiDbiSpi1Transfer env spi bitsPerWord dc buf len
      maxChunk w = .error .hang w' := by
  have hZero :=
    (mipiDbiSpiClampSize_half_eq_zero_iff spi maxChunk).mpr
      hShort
  have hTx' : (w.record (.kmalloc true)).TxOk := hTx
  rw [mipiDbiSpi1Transfer_granted spi hNine dc buf hEven
    maxChunk hGranted, hZero, Nat.zero_min]
  refine Chunking.chunkLoop_zero Fault.hang World.TxOk ?_ hLen
    hTx'
  intro s hs
  exact ⟨_, spiSync_heap hBus spi rfl hs, hs⟩

/-
  A transfer to a controller with words of 9 bits comes to an
  end if and only if it is refused, has nothing to do, or
  takes more than nothing off the length.
-/
theorem mipiDbiSpi1Transfer_finishes_iff
    (hBus : ∀ n, env.spidev n = none)
    (hTx : w.TxOk) :
    Finishes
        (mipiDbiSpi1Transfer env spi bitsPerWord dc buf len
          maxChunk) w ↔
      (tinydrmSpiBpwSupported spi 9 = false ∨
        4 ≤ spi.master.maxDmaLen) ∨
      env.kmalloc w.now = false ∨
      len = 0 ∨ (bitsPerWord = 16 ∧ len % 2 ≠ 0) := by
  constructor
  · intro hFinishes
    by_contra hNot
    simp only [not_or, Bool.not_eq_false] at hNot
    rcases hNot with
      ⟨⟨hNine, hShort⟩, hGranted, hLen, hEven⟩
    have hEven' : bitsPerWord = 16 → len % 2 = 0 := by
      intro hSixteen
      by_contra hOdd
      exact hEven ⟨hSixteen, hOdd⟩
    rcases mipiDbiSpi1Transfer_hangs bitsPerWord dc buf
        maxChunk hBus hNine (by omega) (by omega) hEven' hTx
        hGranted with ⟨w', hHang⟩
    exact not_finishes_of_error ⟨.hang, w', hHang⟩ hFinishes
  · intro hEnds
    by_cases hProgress : tinydrmSpiBpwSupported spi 9 = true →
        0 < len → 4 ≤ spi.master.maxDmaLen
    case pos =>
      apply Finishes.of_derefOnly _ hTx
      apply meets_mipiDbiSpi1Transfer
        (sendContract_derefOnly env) (meets_kmalloc_derefOnly env)
      intro hNine hLen hZero
      have hShort :=
        (mipiDbiSpiClampSize_half_eq_zero_iff spi maxChunk).mp
          hZero
      exact absurd (hProgress hNine hLen) (by omega)
    case neg =>
      push Not at hProgress
      rcases hProgress with ⟨hNine, hLen, hShort⟩
      by_cases hOdd : bitsPerWord = 16 ∧ len % 2 ≠ 0
      · rw [hOdd.1]
        exact ⟨_, w, mipiDbiSpi1Transfer_odd spi hNine dc buf
          maxChunk hOdd.2⟩
      · rcases hEnds with (hNot | hMore) | hRefused | hNone |
          hOdd'
        · exact absurd (hNot.symm.trans hNine) (by decide)
        · omega
        · exact ⟨_, _, mipiDbiSpi1Transfer_refused spi hNine dc
            buf (by omega) maxChunk hRefused⟩
        · omega
        · exact absurd hOdd' hOdd

end Native

end Utinydrm

------------------------------------------------------------
-- Register Writes
------------------------------------------------------------

namespace Utinydrm

variable {env : Env}

/- A write over the bus of option 3 comes to an end. -/
theorem mipiDbiSpi3GatherWrite_finishes
    (env : Env) {mspi : MipiDbiSpi}
    (hMax : 0 < mspi.chunkSize)
    (reg : Ptr) (regLen : Nat)
    (val : Option Ptr) (valLen : Nat)
    {w : World} (hTx : w.TxOk) :
    Finishes
      (mipiDbiSpi3GatherWrite env mspi reg regLen val valLen)
      w := by
  rcases mipiDbiSpi3TxBuf_returns env mspi w with
    ⟨txBuf, s, hAsked, _⟩
  by_cases hReg : regLen = 1
  case neg =>
    exact ⟨_, w, mipiDbiSpi3GatherWrite_refused _ _ _ hReg⟩
  case pos =>
    subst hReg
    cases txBuf with
    | none =>
        exact ⟨_, s, mipiDbiSpi3GatherWrite_noBuf _ _ _ hAsked⟩
    | some addr =>
        rw [Finishes.congr
          (mipiDbiSpi3GatherWrite_buf _ _ _ hAsked)]
        apply Finishes.of_derefOnly _
          (mipiDbiSpi3TxBuf_txOk hAsked hTx)
        apply meets_mipiDbiSpi3Send (sendContract_derefOnly env)
        · intro value w hTx
          exact hTx
        · intro hZero
          omega

/- Where a write to the controller gets stuck. -/
def GetsStuck (env : Env) (spi : SpiDevice) (w : World) : Prop :=
  tinydrmSpiBpwSupported spi 9 = true ∧
    spi.master.maxDmaLen < 4 ∧ env.kmalloc w.now = true

/- A write over the bus of option 1 does anywhere else. -/
theorem mipiDbiSpi1GatherWrite_finishes_iff
    (hBus : ∀ n, env.spidev n = none)
    (mspi : MipiDbiSpi) (reg : Ptr)
    (val : Option Ptr) (valLen : Nat)
    {w : World} (hTx : w.TxOk) :
    Finishes
        (mipiDbiSpi1GatherWrite env mspi reg 1 val valLen) w ↔
      ¬ GetsStuck env mspi.spi w := by
  constructor
  · rintro hFinishes ⟨hNine, hShort, hGranted⟩
    rcases mipiDbiSpi1Transfer_hangs 8 false reg 4096 hBus hNine
        hShort Nat.one_pos (by decide) hTx hGranted with
      ⟨w', hHang⟩
    apply not_finishes_of_error _ hFinishes
    exact ⟨.hang, w', mipiDbiSpi1GatherWrite_fault hHang val
      valLen⟩
  · intro hNot
    by_cases hShort : tinydrmSpiBpwSupported mspi.spi 9 = true ∧
        mspi.spi.master.maxDmaLen < 4
    case neg =>
      apply Finishes.of_derefOnly _ hTx
      apply meets_mipiDbiSpi1GatherWrite
        (sendContract_derefOnly env) (meets_kmalloc_derefOnly env)
      intro hNine hZero
      have hLess :=
        (mipiDbiSpiClampSize_half_eq_zero_iff _ _).mp hZero
      exact absurd ⟨hNine, hLess⟩ hShort
    case pos =>
      -- the memory for the command byte is refused
      have hRefused : env.kmalloc w.now = false := by
        cases hAlloc : env.kmalloc w.now with
        | false => rfl
        | true =>
            exact absurd ⟨hShort.1, hShort.2, hAlloc⟩ hNot
      have hCommand : mipiDbiSpi1Transfer env mspi.spi 8 false
          reg 1 4096 w =
            .ok (-ENOMEM) (w.record (.kmalloc false)) :=
        mipiDbiSpi1Transfer_refused mspi.spi hShort.1 false reg
          (by decide) 4096 hRefused
      exact ⟨-ENOMEM, w.record (.kmalloc false),
        mipiDbiSpi1GatherWrite_failed hCommand (by decide) val
          valLen⟩

/- So a register write does, on an interface that is set up. -/
theorem regmapRawWrite_finishes_iff
    (hBus : ∀ n, env.spidev n = none)
    (spi : SpiDevice) (dc writeOnly : Bool)
    (cmd : Nat) (val : Ptr) (valLen : Nat)
    {w : World} (hTx : w.TxOk) :
    Finishes
        (regmapRawWrite env (mipiDbiSpiInit spi dc writeOnly)
          cmd val valLen) w ↔
      dc = true ∨ ¬ GetsStuck env spi w := by
  rcases regmapRawWrite_eq env
      (fun n e hError => by simp [hBus] at hError)
      (mipiDbiSpiInit spi dc writeOnly) cmd val valLen w with
    ⟨buf, p, hWrite, _⟩
  rw [Finishes.congr hWrite]
  unfold busGatherWrite
  cases dc with
  | true =>
      apply iff_of_true _ (Or.inl rfl)
      rw [if_pos (by simp [mipiDbiSpiInit])]
      exact mipiDbiSpi3GatherWrite_finishes env
        (tinydrmSpiMaxTransferSize_pos spi 0) _ _ _ _ hTx
  | false =>
      rw [or_iff_right Bool.false_ne_true,
        if_neg (by simp [mipiDbiSpiInit])]
      exact mipiDbiSpi1GatherWrite_finishes_iff hBus _ _ _ _ hTx

/-
  A write of a register finishes on the interface set up for
  a device, and so do the transfers its bus is made of, with
  data and with command bytes of either width.
-/
structure WriteFinishes
    (env : Env) (spi : SpiDevice) (dc writeOnly : Bool)
    (cmd : Nat) (val : Ptr) (valLen : Nat) (w : World) :
    Prop where
  register : Finishes
    (regmapRawWrite env (mipiDbiSpiInit spi dc writeOnly) cmd
      val valLen) w
  native : dc = false → ∀ bitsPerWord level maxChunk,
    Finishes
      (mipiDbiSpi1Transfer env spi bitsPerWord level val valLen
        maxChunk) w
  packed : dc = false → ∀ bitsPerWord level maxChunk,
    Finishes
      (mipiDbiSpi1eTransfer env spi bitsPerWord level val
        valLen maxChunk) w
  option3 : dc = true → ∀ speedHz bpw swapBuf,
    Finishes
      (tinydrmSpiTransfer env spi speedHz none bpw val valLen
        swapBuf (mipiDbiSpiInit spi dc writeOnly).chunkSize) w

/-
  With no message failing, a write finishes if and only if it
  is one of option 3, or the controller is without words of 9
  bits, or its limit is at least four bytes, or there is no
  memory for the command.
-/
theorem register_write_finishes_iff
    (env : Env) (hBus : ∀ n, env.spidev n = none)
    (spi : SpiDevice) (dc writeOnly : Bool)
    (cmd : Nat) (val : Ptr) (valLen : Nat)
    (w : World) (hTx : w.TxOk) :
    WriteFinishes env spi dc writeOnly cmd val valLen w ↔
      dc = true ∨ tinydrmSpiBpwSupported spi 9 = false ∨
        4 ≤ spi.master.maxDmaLen ∨
        env.kmalloc w.now = false := by
  have hNotStuck : ¬ GetsStuck env spi w ↔
      tinydrmSpiBpwSupported spi 9 = false ∨
        4 ≤ spi.master.maxDmaLen ∨
        env.kmalloc w.now = false := by
    unfold GetsStuck
    rw [not_and_or, not_and_or, Bool.not_eq_true,
      Bool.not_eq_true, Nat.not_lt]
  rw [← hNotStuck]
  have hRegister := regmapRawWrite_finishes_iff hBus spi
    dc writeOnly cmd val valLen hTx
  constructor
  · intro hFinishes
    exact hRegister.mp hFinishes.register
  · intro hEnds
    constructor
    case register => exact hRegister.mpr hEnds
    case native =>
      intro hDc bitsPerWord level maxChunk
      rw [mipiDbiSpi1Transfer_finishes_iff _ _ _ _ hBus hTx]
      rcases hEnds with hTrue | hNot
      · exact absurd (hDc.symm.trans hTrue) Bool.false_ne_true
      · rcases hNotStuck.mp hNot with hNine | hMore | hRefused
        · exact Or.inl (Or.inl hNine)
        · exact Or.inl (Or.inr hMore)
        · exact Or.inr (Or.inl hRefused)
    case packed =>
      intro _ bitsPerWord level maxChunk
      exact mipiDbiSpi1eTransfer_finishes env spi _ _ _ _ _ hTx
    case option3 =>
      intro _ speedHz bpw swapBuf
      exact tinydrmSpiTransfer_finishes env _ _ _ _ _ _ _ _ hTx

/- A controller that transfers no bytes, with a word width. -/
def noDmaSpi (bits : Nat) : SpiDevice where
  master :=
    { bitsPerWordMask := spiBpwMask bits
      maxDmaLen := 0 }
  maxSpeedHz := 32000000

/- With words of 8 bits the write is refused. -/
theorem register_write_finishes_eight :
    WriteFinishes Env.granting (noDmaSpi 8) false false
      MIPI_DCS_SET_PIXEL_FORMAT (.heap fun _ => 0x55) 1
      (World.atProbe (-1)) :=
  (register_write_finishes_iff Env.granting (fun _ => rfl)
    (noDmaSpi 8) false false MIPI_DCS_SET_PIXEL_FORMAT
    (.heap fun _ => 0x55) 1 (World.atProbe (-1))
    (World.txOk_atProbe (-1))).mpr
      (Or.inr (Or.inl (by decide)))

/- With words of 9 bits it never gets past the command. -/
theorem register_write_finishes_stuck :
    ¬ ∀ (env : Env) (spi : SpiDevice) (dc writeOnly : Bool)
      (cmd : Nat) (val : Ptr) (valLen : Nat) (w : World),
      (∀ n, env.spidev n = none) → w.TxOk →
      WriteFinishes env spi dc writeOnly cmd val valLen w := by
  intro hClaim
  have hTx := World.txOk_atProbe (-1)
  have hFinishes := hClaim Env.granting (noDmaSpi 9) false false
    MIPI_DCS_SET_PIXEL_FORMAT (.heap fun _ => 0x55) 1
    (World.atProbe (-1)) (fun _ => rfl) hTx
  rcases (regmapRawWrite_finishes_iff (fun _ => rfl)
      (noDmaSpi 9) false false MIPI_DCS_SET_PIXEL_FORMAT
      (.heap fun _ => 0x55) 1 hTx).mp hFinishes.register with
    hTrue | hNot
  · exact Bool.false_ne_true hTrue
  · exact hNot ⟨by decide, by decide, rfl⟩

end Utinydrm
