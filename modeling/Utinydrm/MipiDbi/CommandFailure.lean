import Utinydrm.MipiDbi.EmulatedWords
import Utinydrm.MipiDbi.Pipe

/-
  Register writes over the emulated bus of option 1 that end
  with their command byte: those without data, and those
  whose message with the command byte fails.

  Key definitions include:
    * `EmulatedBus`
    * `Env.messageRet`

  Main declarations:
    * `regmapRawWrite_command`
    * `mipiDbiWriteBuf_command`
    * `writeCommands_failing`
-/

------------------------------------------------------------
-- The Bus
------------------------------------------------------------

namespace Utinydrm

/-
  There is memory, no message fails with the error the
  register map reacts to, and words of 9 bits are packed into
  messages with room for a block.
-/
structure EmulatedBus (env : Env) (mspi : MipiDbiSpi) :
    Prop where
  alloc : ∀ n, env.kmalloc n = true
  supported : ∀ n e, env.spidev n = some e →
    e.ret ≠ -ENOTSUPP
  dc : mspi.dc = false
  nine : tinydrmSpiBpwSupported mspi.spi 9 = false
  room : 9 ≤ mipiDbiSpiClampSize mspi.spi 4096

/- What the message that is the `n`th call returns. -/
def Env.messageRet (env : Env) (n : Nat) : Int :=
  (env.spidev n).elim 0 Errno.ret

theorem Env.messageRet_eq_zero_iff (env : Env) (n : Nat) :
    env.messageRet n = 0 ↔ env.spidev n = none := by
  unfold Env.messageRet
  cases env.spidev n with
  | none => simp
  | some e => simp [e.ret_ne_zero]

theorem EmulatedBus.messageRet_supported
    {env : Env} {mspi : MipiDbiSpi}
    (hBus : EmulatedBus env mspi) (n : Nat) :
    env.messageRet n ≠ -ENOTSUPP := by
  unfold Env.messageRet
  cases hMessage : env.spidev n with
  | none => decide
  | some e => exact hBus.supported n e hMessage

end Utinydrm

------------------------------------------------------------
-- Command Bytes
------------------------------------------------------------

namespace Utinydrm

variable {env : Env} {mspi : MipiDbiSpi} {w : World}

/- A command byte is one call for memory and one message. -/
theorem mipiDbiSpi1Transfer_command
    (hBus : EmulatedBus env mspi) (reg : Ptr)
    (hTx : w.TxOk) :
    ∃ w', mipiDbiSpi1Transfer env mspi.spi 8 false reg 1 4096
        w = .ok (env.messageRet (w.now + 1)) w' ∧
      w'.TxOk ∧ w'.now = w.now + 2 := by
  let tr : SpiTransfer :=
    { txBuf := some
        (.ofBytes (commandBlock (w.byte reg 0))
          (env.garbage w.now))
      len := 9
      bitsPerWord := 8 }
  have hPtr : tr.txBuf = some
      (.ofBytes (commandBlock (w.byte reg 0))
        (env.garbage w.now)) := rfl
  have hSync := spiSync_ofHeap env mspi.spi
    (w := w.record (.kmalloc true)) hPtr hTx
  rw [World.now_record] at hSync
  rw [mipiDbiSpi1Transfer_emulated _ hBus.nine,
    mipiDbiSpi1eTransfer_low env mspi.spi reg 4096
      (hBus.alloc _) hBus.room]
  refine ⟨_, hSync, hTx, ?_⟩
  rw [World.now, World.afterSpidev_log]
  simp [World.now, World.record]

/- A write without data, or one whose command byte fails. -/
theorem mipiDbiSpi1GatherWrite_command
    (hBus : EmulatedBus env mspi)
    (reg p : Ptr) (len : Nat)
    (hTx : w.TxOk)
    (hStop : len = 0 ∨ env.spidev (w.now + 1) ≠ none) :
    ∃ w', mipiDbiSpi1GatherWrite env mspi reg 1 (some p) len
        w = .ok (env.messageRet (w.now + 1)) w' ∧
      w'.TxOk ∧ w'.now = w.now + 2 := by
  rcases mipiDbiSpi1Transfer_command hBus reg hTx with
    ⟨w', hRun, hTx', hNow⟩
  refine ⟨w', ?_, hTx', hNow⟩
  rcases hStop with rfl | hFails
  · exact mipiDbiSpi1GatherWrite_empty hRun (some p)
  · have hRet : env.messageRet (w.now + 1) ≠ 0 := by
      rwa [Ne, env.messageRet_eq_zero_iff]
    exact mipiDbiSpi1GatherWrite_failed hRun hRet (some p) len

/- The same of a raw write of a register. -/
theorem regmapRawWrite_command
    (hBus : EmulatedBus env mspi)
    (reg : Nat) (p : Ptr) (len : Nat)
    (hTx : w.TxOk)
    (hStop : len = 0 ∨ env.spidev (w.now + 1) ≠ none) :
    ∃ w', regmapRawWrite env mspi reg p len w =
        .ok (env.messageRet (w.now + 1)) w' ∧
      w'.TxOk ∧ w'.now = w.now + 2 := by
  rcases regmapRawWrite_out env mspi reg p len w with
    ⟨buf, q, hWrite, _⟩
  rcases mipiDbiSpi1GatherWrite_command hBus (.heap buf) q len
      (w := { w with workBuf := buf }) hTx hStop with
    ⟨w', hRun, hTx', hNow⟩
  refine ⟨w', ?_, hTx', hNow⟩
  rw [hWrite, busGatherWrite, hBus.dc, if_neg (by simp),
    Effect.bind_of_ok hRun,
    if_neg (hBus.messageRet_supported _)]
  rfl

/- And of a command with parameters. -/
theorem mipiDbiWriteBuf_command
    (hBus : EmulatedBus env mspi)
    (cmd : Nat) (parameters : List UInt8)
    (hTx : w.TxOk)
    (hStop : parameters = [] ∨
      env.spidev (w.now + 2) ≠ none) :
    ∃ w', mipiDbiWriteBuf env mspi cmd parameters w =
        .ok (env.messageRet (w.now + 2)) w' ∧
      w'.TxOk ∧ w'.now = w.now + 3 := by
  have hNow : (w.record (.kmalloc true)).now = w.now + 1 :=
    World.now_record w _
  rcases regmapRawWrite_command hBus cmd
      (.ofBytes parameters (env.garbage w.now))
      parameters.length (w := w.record (.kmalloc true)) hTx
      (by
        rw [hNow]
        exact hStop.imp_left fun h => by rw [h]; rfl) with
    ⟨w', hRun, hTx', hNow'⟩
  rw [hNow] at hRun hNow'
  refine ⟨w', ?_, hTx', hNow'⟩
  rw [mipiDbiWriteBuf, Effect.bind_of_ok (Effect.get_apply w),
    kmalloc_bind, hBus.alloc, if_pos rfl]
  exact hRun

/- Commands on a bus that fails all fail, one after another. -/
theorem writeCommands_failing
    (hBus : EmulatedBus env mspi) (start : Nat)
    (hFails : ∀ n, start ≤ n → env.spidev n ≠ none)
    (commands : List (Nat × List UInt8))
    (hTx : w.TxOk) (hNow : start ≤ w.now + 2) :
    ∃ w', writeCommands env mspi commands w = .ok () w' := by
  induction commands generalizing w with
  | nil => exact ⟨w, rfl⟩
  | cons command rest ih =>
      rcases mipiDbiWriteBuf_command hBus command.1 command.2
          hTx (Or.inr (hFails _ hNow)) with
        ⟨s, hRun, hTx', hNow'⟩
      rcases ih hTx' (by omega) with ⟨w', hRest⟩
      exact ⟨w', (Effect.bind_of_ok hRun).trans hRest⟩

end Utinydrm

------------------------------------------------------------
-- Such a Bus
------------------------------------------------------------

namespace Utinydrm

/- The display of `main` without a line for the D/C bit. -/
theorem emulatedBus_failing (fails : Nat → Bool) :
    EmulatedBus (Env.failing fails)
      (mipiDbiSpiInit mainSpi false false) where
  alloc := fun _ => rfl
  supported := by
    intro n e hFails
    simp only [Env.failing] at hFails
    split at hFails
    · cases hFails
      decide
    · cases hFails
  dc := rfl
  nine := rfl
  room := by decide

end Utinydrm
