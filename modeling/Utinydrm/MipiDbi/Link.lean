import Utinydrm.MipiDbi.SerialPanel
import Utinydrm.MipiDbi.FirstWrite

/-
  The way from the register map to the panel, whichever of
  the options it is.

  What is sent for a command carries its frame, and leaves a
  state that the next command can be sent from.

  Key definitions include:
    * `Link`, `Link.Sends`
    * `Link.Works`
    * `wireLink`, `serialLink`

  Main declarations:
    * `Link.Works.writeBuf`
    * `wireLink_works`, `serialLink_works`
-/

------------------------------------------------------------
-- Links
------------------------------------------------------------

namespace Utinydrm

/-
  The states that a command can be sent from, and all that
  the panel has received.
-/
structure Link where
  Ready : World → Prop
  received : World → List (Bool × UInt8)

namespace Link

/- The panel was given some frames, and the link is ready. -/
structure Sends
    (link : Link) (w w' : World)
    (frames : List (Bool × UInt8)) : Prop where
  ready : link.Ready w'
  sent : ∃ sent, link.received w' = link.received w ++ sent ∧
    Carries sent frames

/-
  Commands are sent, with their parameters or without data.
  The panel makes nothing of what is sent for a read, and
  nothing else sends anything.
-/
structure Works
    (link : Link) (env : Env) (mspi : MipiDbiSpi) : Prop where
  quiet : ∀ {w w' : World}, link.Ready w → w.Quiet w' →
    w'.txBuf = w.txBuf → w'.mspiTxBuf = w.mspiTxBuf →
    w'.bufFd = w.bufFd → link.Sends w w' []
  write : ∀ {w : World}, link.Ready w →
    ∀ (cmd : Nat) (bytes : Nat → UInt8) (len : Nat),
    cmd.toUInt8.toNat ≠ MIPI_DCS_WRITE_MEMORY_START ∨
      len = 0 →
    ∃ w', regmapRawWrite env mspi cmd (.heap bytes) len w =
        .ok 0 w' ∧
      link.Sends w w' (commandFrame cmd.toUInt8
        (w.bytes (.heap bytes) len))
  read : ∀ {w : World}, link.Ready w →
    ∀ (cmd : UInt8) (valLen : Nat),
    cmd.toNat ≠ MIPI_DCS_WRITE_MEMORY_START →
    ∃ result w', regmapRawRead env mspi cmd.toNat valLen w =
        .ok result w' ∧ link.Sends w w' []

variable {link : Link} {env : Env} {mspi : MipiDbiSpi}
variable {w w₁ w₂ : World}
variable {first second : List (Bool × UInt8)}

theorem Sends.trans
    (h₁ : link.Sends w w₁ first)
    (h₂ : link.Sends w₁ w₂ second) :
    link.Sends w w₂ (first ++ second) := by
  rcases h₁.sent with ⟨sent₁, hReceived₁, hCarries₁⟩
  rcases h₂.sent with ⟨sent₂, hReceived₂, hCarries₂⟩
  exact ⟨h₂.ready, sent₁ ++ sent₂, by
    rw [hReceived₂, hReceived₁, List.append_assoc],
    hCarries₁.append hCarries₂⟩

/- So a panel shows what it makes of the frames. -/
theorem Sends.picture
    (hSends : link.Sends w w₁ first) (panel : Panel) :
    (panel.run (link.received w₁)).picture =
      ((panel.run (link.received w)).run first).picture := by
  rcases hSends.sent with ⟨sent, hReceived, hCarries⟩
  rw [hReceived, Panel.run_append, hCarries.picture]

/- `mipi_dbi_write_buf` sends from a copy. -/
theorem Works.writeBuf
    (hWorks : link.Works env mspi)
    (hAlloc : ∀ n, env.kmalloc n = true)
    (hReady : link.Ready w)
    (cmd : Nat)
    (hCmd : cmd.toUInt8.toNat ≠ MIPI_DCS_WRITE_MEMORY_START)
    (parameters : List UInt8) :
    ∃ w', mipiDbiWriteBuf env mspi cmd parameters w =
        .ok 0 w' ∧
      link.Sends w w'
        (commandFrame cmd.toUInt8 parameters) := by
  let s := w.record (.kmalloc (env.kmalloc w.now))
  have hAsked : link.Sends w s [] :=
    hWorks.quiet hReady
      (.of_log _ rfl (by simp [Call.isMessage])) rfl rfl rfl
  rcases hWorks.write hAsked.ready cmd
      (fun i => parameters.getD i (env.garbage w.now i))
      parameters.length (Or.inl hCmd) with ⟨w', hRun, hSends⟩
  have hBytes := s.bytes_ofBytes parameters
    (env.garbage w.now) (le_refl parameters.length)
  unfold Ptr.ofBytes at hBytes
  rw [hBytes, List.take_length] at hSends
  refine ⟨w', ?_, hAsked.trans hSends⟩
  rw [mipiDbiWriteBuf, Effect.bind_of_ok (Effect.get_apply w),
    kmalloc_bind, if_pos (hAlloc _)]
  exact hRun

end Link

end Utinydrm

------------------------------------------------------------
-- Option 3
------------------------------------------------------------

namespace Utinydrm

end Utinydrm

------------------------------------------------------------
-- Option 1
------------------------------------------------------------

namespace Utinydrm

/- Every word says itself what it is. -/
def serialLink : Link where
  Ready := World.TxOk
  received := World.serial

theorem SerialStep.sends
    {w w' : World} {sent frames : List (Bool × UInt8)}
    (hStep : SerialStep w w' sent) (hTx : w.TxOk)
    (hCarries : Carries sent frames) :
    serialLink.Sends w w' frames :=
  ⟨hStep.txOk hTx, sent, hStep.serial, hCarries⟩

theorem serialLink_works
    {env : Env} (hEnv : env.Delivers)
    (spi : SpiDevice) (writeOnly : Bool)
    (hNine : tinydrmSpiBpwSupported spi 9 = false)
    (hRoom : 9 ≤ mipiDbiSpiClampSize spi 4096) :
    serialLink.Works env
      (mipiDbiSpiInit spi false writeOnly) where
  quiet := by
    intro w w' hTx hQuiet hTxBuf _ _
    refine ⟨?_, [], ?_, Carries.nil⟩
    · change w'.TxOk
      rw [World.TxOk, hTxBuf]
      exact hTx
    · rw [List.append_nil]
      exact hQuiet.serial
  write := by
    intro w hTx cmd bytes len hUnseen
    rcases regmapRawWrite_serial hEnv spi writeOnly hNine hRoom
        hTx cmd (.heap bytes) len hUnseen with
      ⟨w', n, hRun, hStep⟩
    exact ⟨w', hRun, hStep.sends hTx (carries_padded n _ _)⟩
  read := by
    intro w hTx cmd valLen _
    rcases regmapRawRead_serial env spi writeOnly cmd.toNat
        valLen w with ⟨result, w', hRun, hStep⟩
    exact ⟨result, w', hRun, hStep.sends hTx Carries.nil⟩

end Utinydrm
