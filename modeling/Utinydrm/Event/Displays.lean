import Utinydrm.Event.Blanking
import Utinydrm.MipiDbi.Link

/-
  What a panel shows while the display is set up, switched on
  and switched off.

  All of this is commands, and none of them stores pixels, so
  that over any link that works the panel goes on showing the
  picture it showed.

  Key definitions include:
    * `Displays`

  Main declarations:
    * `preserves_mi0283qtEnable`
    * `preserves_mipiDbiPipeDisable`
-/

------------------------------------------------------------
-- Commands That Paint Nothing
------------------------------------------------------------

namespace Utinydrm

/-
  The link is ready, and a panel that received what was sent
  over it shows the picture.
-/
structure Displays
    (link : Link) (panel : Panel)
    (picture : Raster.Picture UInt16) (w : World) : Prop where
  ready : link.Ready w
  shown : (panel.run (link.received w)).picture = picture

variable {env : Env} {mspi : MipiDbiSpi} {link : Link}
variable {panel : Panel} {picture : Raster.Picture UInt16}
variable {w w' : World}

theorem Displays.of_sends
    (hDisplays : Displays link panel picture w)
    {frames : List (Bool × UInt8)}
    (hSends : link.Sends w w' frames)
    (hUnseen : ∀ p : Panel,
      (p.run frames).picture = p.picture) :
    Displays link panel picture w' where
  ready := hSends.ready
  shown := by
    rw [hSends.picture, hUnseen]
    exact hDisplays.shown

section Links

variable (hWorks : link.Works env mspi)

include hWorks

theorem Displays.of_quiet
    (hDisplays : Displays link panel picture w)
    (hQuiet : w.Quiet w')
    (hTxBuf : w'.txBuf = w.txBuf)
    (hAsked : w'.mspiTxBuf = w.mspiTxBuf)
    (hBufFd : w'.bufFd = w.bufFd) :
    Displays link panel picture w' :=
  hDisplays.of_sends
    (hWorks.quiet hDisplays.ready hQuiet hTxBuf hAsked hBufFd)
    fun _ => rfl

/- A step that changes other parts of the state. -/
theorem preserves_displays_modify
    {f : World → World}
    (hSame : ∀ w, (f w).log = w.log ∧ (f w).txBuf = w.txBuf ∧
      (f w).mspiTxBuf = w.mspiTxBuf ∧ (f w).bufFd = w.bufFd) :
    Effect.Preserves (Displays link panel picture)
      (modify f : Driver PUnit) := by
  refine Effect.preserves_modify fun w hDisplays => ?_
  rcases hSame w with ⟨hLog, hTxBuf, hAsked, hBufFd⟩
  exact hDisplays.of_quiet hWorks (.of_log_eq hLog) hTxBuf
    hAsked hBufFd

theorem preserves_displays_gpio
    (line : GpioLine) (value : Bool) :
    Effect.Preserves (Displays link panel picture)
      (gpiodSetValueCansleep env line value) :=
  fun w hDisplays => ⟨(), _, rfl, hDisplays.of_quiet hWorks
    (w.quiet_afterGpio line value) rfl rfl rfl⟩

theorem preserves_displays_kmalloc :
    Effect.Preserves (Displays link panel picture)
      (kmalloc env) :=
  fun w hDisplays => ⟨_, _, rfl, hDisplays.of_quiet hWorks
    (.of_log [.kmalloc (env.kmalloc w.now)] rfl
      (by simp [Call.isMessage])) rfl rfl rfl⟩

/- The panel makes nothing of a read. -/
theorem preserves_displays_regmapRawRead
    (cmd : UInt8) (valLen : Nat)
    (hCmd : cmd.toNat ≠ MIPI_DCS_WRITE_MEMORY_START) :
    Effect.Preserves (Displays link panel picture)
      (regmapRawRead env mspi cmd.toNat valLen) := by
  intro w hDisplays
  rcases hWorks.read hDisplays.ready cmd valLen hCmd with
    ⟨result, w', hRun, hSends⟩
  exact ⟨result, w', hRun,
    hDisplays.of_sends hSends fun _ => rfl⟩

/- A command other than the memory write, or without data. -/
theorem preserves_displays_regmapRawWrite
    (cmd : Nat) (bytes : Nat → UInt8) {len : Nat}
    (hUnseen : cmd.toUInt8.toNat ≠
      MIPI_DCS_WRITE_MEMORY_START ∨ len = 0) :
    Effect.Preserves (Displays link panel picture)
      (regmapRawWrite env mspi cmd (.heap bytes) len) := by
  intro w hDisplays
  rcases hWorks.write hDisplays.ready cmd bytes len hUnseen
    with ⟨w', hRun, hSends⟩
  refine ⟨0, w', hRun, hDisplays.of_sends hSends fun p => ?_⟩
  apply p.picture_of_command
  rcases hUnseen with hOther | rfl
  · exact Or.inl hOther
  · exact Or.inr rfl

theorem preserves_displays_mipiDbiWriteBuf
    (cmd : Nat)
    (hCmd : cmd.toUInt8.toNat ≠ MIPI_DCS_WRITE_MEMORY_START)
    (parameters : List UInt8) :
    Effect.Preserves (Displays link panel picture)
      (mipiDbiWriteBuf env mspi cmd parameters) := by
  apply Effect.preserves_get_bind
  intro w
  refine Effect.preserves_bind (preserves_displays_kmalloc hWorks)
    fun granted => ?_
  exact Effect.preserves_ite
    (fun _ => preserves_displays_regmapRawWrite hWorks
      cmd _ (Or.inl hCmd))
    (fun _ => Effect.preserves_pure _)

theorem preserves_displays_writeCommands
    (commands : List (Nat × List UInt8))
    (hCommands : ∀ command ∈ commands,
      command.1.toUInt8.toNat ≠
        MIPI_DCS_WRITE_MEMORY_START) :
    Effect.Preserves (Displays link panel picture)
      (writeCommands env mspi commands) := by
  induction commands with
  | nil => exact Effect.preserves_pure ()
  | cons command rest ih =>
      have hFirst := hCommands command List.mem_cons_self
      have hRest := fun other hOther =>
        hCommands other (List.mem_cons_of_mem command hOther)
      exact Effect.preserves_bind
        (preserves_displays_mipiDbiWriteBuf hWorks
          command.1 hFirst command.2)
        fun _ => ih hRest

end Links

end Utinydrm

------------------------------------------------------------
-- The Pipe
------------------------------------------------------------

namespace Utinydrm

variable {env : Env} {mipi : MipiDbi} {link : Link}
variable {panel : Panel} {picture : Raster.Picture UInt16}

/- The initialisation does not write the memory. -/
theorem mi0283qtSequence_unseen (rotation : Nat) :
    ∀ command ∈ mi0283qtSequence rotation,
      command.1.toUInt8.toNat ≠
        MIPI_DCS_WRITE_MEMORY_START := by
  have hCommands : ∀ cmd ∈
      (mi0283qtSequence 0).map Prod.fst,
      cmd.toUInt8.toNat ≠ MIPI_DCS_WRITE_MEMORY_START := by
    decide
  intro command hMem
  have hSame : (mi0283qtSequence rotation).map Prod.fst =
      (mi0283qtSequence 0).map Prod.fst := rfl
  refine hCommands command.1 ?_
  rw [← hSame]
  exact List.mem_map_of_mem hMem

section Pipe

variable (hWorks : link.Works env mipi.mspi)

include hWorks

theorem preserves_displays_mipiDbiHwReset :
    Effect.Preserves (Displays link panel picture)
      (mipiDbiHwReset env mipi) :=
  Effect.preserves_ite
    (fun _ => Effect.preserves_bind
      (preserves_displays_gpio hWorks .reset false)
      fun _ => preserves_displays_gpio hWorks .reset true)
    (fun _ => Effect.preserves_pure ())

theorem preserves_displays_regulatorEnable :
    Effect.Preserves (Displays link panel picture)
      (regulatorEnable env) :=
  fun w hDisplays => ⟨_, _, rfl, hDisplays.of_quiet hWorks
    (.of_log [.regulatorEnable (env.regulatorEnable w.now)] rfl
      (by simp [Call.isMessage])) rfl rfl rfl⟩

theorem preserves_displays_mipiDbiPowerOff :
    Effect.Preserves (Displays link panel picture)
      (mipiDbiPowerOff mipi) := by
  refine Effect.preserves_ite (fun _ => ?_)
    fun _ => Effect.preserves_pure ()
  have hSupply : Effect.Preserves
      (Displays link panel picture) regulatorDisable :=
    fun w hDisplays => ⟨_, _, rfl, hDisplays.of_quiet hWorks
      (.of_log [.regulatorDisable] rfl
        (by simp [Call.isMessage])) rfl rfl rfl⟩
  exact Effect.preserves_bind hSupply
    fun _ => preserves_displays_modify hWorks
      fun _ => ⟨rfl, rfl, rfl, rfl⟩

theorem preserves_displays_mipiDbiDisplayIsOn :
    Effect.Preserves (Displays link panel picture)
      (mipiDbiDisplayIsOn env mipi.mspi) := by
  refine Effect.preserves_bind
    (preserves_displays_regmapRawRead hWorks 0x0A 1
      (by decide))
    fun result => ?_
  rcases result with ⟨ret, data⟩
  exact Effect.preserves_ite
    (fun _ => Effect.preserves_pure false)
    (fun _ => Effect.preserves_pure _)

theorem preserves_displays_mi0283qtSetup :
    Effect.Preserves (Displays link panel picture)
      (mi0283qtSetup env mipi) := by
  have hPrepared : Effect.Preserves
      (Displays link panel picture)
      (modify fun w : World => { w with prepared := true } :
        Driver PUnit) :=
    preserves_displays_modify hWorks
      fun _ => ⟨rfl, rfl, rfl, rfl⟩
  refine Effect.preserves_bind
    (preserves_displays_mipiDbiDisplayIsOn hWorks)
    fun on => ?_
  refine Effect.preserves_ite (fun _ => hPrepared) fun _ => ?_
  refine Effect.preserves_bind
    (preserves_displays_mipiDbiHwReset hWorks) fun _ => ?_
  refine Effect.preserves_bind
    (preserves_displays_mipiDbiWriteBuf hWorks
      MIPI_DCS_SOFT_RESET (by decide) [])
    fun ret => ?_
  refine Effect.preserves_ite
    (fun _ => Effect.preserves_pure ()) fun _ => ?_
  exact Effect.preserves_bind
    (preserves_displays_writeCommands hWorks _
      (mi0283qtSequence_unseen mipi.rotation))
    fun _ => hPrepared

/- Switching on changes nothing that the panel shows. -/
theorem preserves_mi0283qtEnable :
    Effect.Preserves (Displays link panel picture)
      (mi0283qtEnable env mipi) := by
  have hSetup : Effect.Preserves
      (Displays link panel picture)
      (mi0283qtSetup env mipi) :=
    preserves_displays_mi0283qtSetup hWorks
  refine Effect.preserves_get_bind fun w => ?_
  refine Effect.preserves_ite
    (fun _ => Effect.preserves_pure ()) fun _ => ?_
  refine Effect.preserves_ite (fun _ => ?_) fun _ => hSetup
  refine Effect.preserves_bind
    (preserves_displays_regulatorEnable hWorks) fun ret => ?_
  exact Effect.preserves_ite
    (fun _ => Effect.preserves_pure ()) (fun _ => hSetup)

/-
  A display without a minimum size is blanked by a memory
  write without pixels.
-/
theorem preserves_displays_mipiDbiBlank
    (hWidth : mipi.minWidth = 0) :
    Effect.Preserves (Displays link panel picture)
      (mipiDbiBlank env mipi) := by
  have hNone : (mipi.minWidth * mipi.minHeight * 2).toNat =
      0 := by
    rw [hWidth, UInt32.zero_mul, UInt32.zero_mul]
    rfl
  refine Effect.preserves_get_bind fun w => ?_
  refine Effect.preserves_bind (preserves_displays_kmalloc hWorks)
    fun granted => ?_
  refine Effect.preserves_ite (fun _ => ?_)
    fun _ => Effect.preserves_pure ()
  refine Effect.preserves_bind
    (preserves_displays_mipiDbiWriteBuf hWorks
      MIPI_DCS_SET_COLUMN_ADDRESS (by decide) _)
    fun _ => ?_
  refine Effect.preserves_bind
    (preserves_displays_mipiDbiWriteBuf hWorks
      MIPI_DCS_SET_PAGE_ADDRESS (by decide) _)
    fun _ => ?_
  exact Effect.preserves_bind
    (preserves_displays_regmapRawWrite hWorks _ _
      (Or.inr hNone))
    fun _ => Effect.preserves_pure ()

theorem preserves_displays_mipiDbiTurnOff
    (hWidth : mipi.minWidth = 0) :
    Effect.Preserves (Displays link panel picture)
      (mipiDbiTurnOff env mipi) := by
  refine Effect.preserves_get_bind fun w => ?_
  refine Effect.preserves_ite (fun _ => ?_)
    fun _ => Effect.preserves_pure ()
  refine Effect.preserves_ite (fun _ => ?_) fun _ => ?_
  · exact Effect.preserves_ite
      (fun _ => preserves_displays_gpio hWorks .led false)
      (fun _ => Effect.preserves_pure ())
  · exact Effect.preserves_ite
      (fun _ => Effect.preserves_pure ())
      (fun _ => preserves_displays_mipiDbiBlank hWorks hWidth)

theorem preserves_displays_mipiDbiSleep :
    Effect.Preserves (Displays link panel picture)
      (mipiDbiSleep env mipi) := by
  refine Effect.preserves_ite (fun _ => ?_)
    fun _ => Effect.preserves_pure ()
  refine Effect.preserves_bind
    (preserves_displays_mipiDbiWriteBuf hWorks
      MIPI_DCS_SET_DISPLAY_OFF (by decide) [])
    fun _ => ?_
  exact Effect.preserves_bind
    (preserves_displays_mipiDbiWriteBuf hWorks
      MIPI_DCS_ENTER_SLEEP_MODE (by decide) [])
    fun _ => preserves_displays_modify hWorks
      fun _ => ⟨rfl, rfl, rfl, rfl⟩

/- Nor does switching off. -/
theorem preserves_mipiDbiPipeDisable
    (hWidth : mipi.minWidth = 0) :
    Effect.Preserves (Displays link panel picture)
      (mipiDbiPipeDisable env mipi) := by
  refine Effect.preserves_bind
    (preserves_displays_mipiDbiTurnOff hWorks hWidth)
    fun _ => ?_
  have hDisabled : Effect.Preserves
      (Displays link panel picture)
      (modify fun w : World => { w with enabled := false } :
        Driver PUnit) :=
    preserves_displays_modify hWorks
      fun _ => ⟨rfl, rfl, rfl, rfl⟩
  refine Effect.preserves_bind hDisabled fun _ => ?_
  refine Effect.preserves_get_bind fun w => ?_
  refine Effect.preserves_ite (fun _ => ?_)
    fun _ => Effect.preserves_pure ()
  exact Effect.preserves_bind
    (preserves_displays_mipiDbiSleep hWorks)
    fun _ => preserves_displays_mipiDbiPowerOff hWorks

end Pipe

end Utinydrm
