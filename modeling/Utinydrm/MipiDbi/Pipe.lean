import Utinydrm.Tinydrm.Flush

/-
  The display pipe of a MIPI DBI panel: `mipi_dbi_fb_dirty`,
  `mipi_dbi_pipe_disable` and the enable callback of the
  MI0283QT driver.

  Key definitions include:
    * `mipiDbiFbDirty`
    * `mipiDbiPipeDisable`
    * `mi0283qtEnable`
-/

------------------------------------------------------------
-- Dirty
------------------------------------------------------------

namespace Utinydrm

variable (env : Env)

def hiByte (x : UInt16) : UInt8 := (x >>> 8).toUInt8
def loByte (x : UInt16) : UInt8 := x.toUInt8

/- The parameters of `SET_COLUMN_ADDRESS` for a clip. -/
def columnAddress (clip : DrmClipRect) : List UInt8 :=
  [hiByte clip.x1, loByte clip.x1,
    hiByte clip.x2, loByte (clip.x2 - 1)]

/- The parameters of `SET_PAGE_ADDRESS` for a clip. -/
def pageAddress (clip : DrmClipRect) : List UInt8 :=
  [hiByte clip.y1, loByte clip.y1,
    hiByte clip.y2, loByte (clip.y2 - 1)]

/- The three register writes of `mipi_dbi_fb_dirty`. -/
def mipiDbiFbFlush
    (mipi : MipiDbi) (fb : UtinydrmFb)
    (clip : DrmClipRect) : Driver Int := do
  let _ ← mipiDbiWriteBuf env mipi.mspi
    MIPI_DCS_SET_COLUMN_ADDRESS (columnAddress clip)
  let _ ← mipiDbiWriteBuf env mipi.mspi
    MIPI_DCS_SET_PAGE_ADDRESS (pageAddress clip)
  tinydrmRegmapFlushRgb565 env mipi.mspi
    MIPI_DCS_WRITE_MEMORY_START fb (.mapped fb.map) clip

/- The end of `mipi_dbi_fb_dirty`, after a flush. -/
def mipiDbiFbEnable
    (mipi : MipiDbi) (ret : Int) : Driver Int := do
  let w ← get
  if w.enabled then
    pure ret
  else do
    let ret ← tinydrmEnableBacklight env mipi.backlight
    if ret ≠ 0 then
      pure ret
    else do
      modify fun w => { w with enabled := true }
      pure ret

/- `mipi_dbi_fb_dirty`. -/
def mipiDbiFbDirty
    (mipi : MipiDbi) (fb : UtinydrmFb) (flags : UInt32)
    (clips : Option (Nat → DrmClipRect)) (numClips : UInt32) :
    Driver Int := do
  let w ← get
  match tinydrmCheckDirty w clips numClips with
  | none => pure 0
  | some (clips, numClips) => do
      let ret ← mipiDbiFbFlush env mipi fb
        (tinydrmMergeClips clips numClips flags
          fb.width fb.height)
      if ret ≠ 0 then
        pure ret
      else
        mipiDbiFbEnable env mipi ret

end Utinydrm

------------------------------------------------------------
-- Disable
------------------------------------------------------------

namespace Utinydrm

variable (env : Env)

/- `mipi_dbi_blank`. -/
def mipiDbiBlank (mipi : MipiDbi) : Driver Unit := do
  let w ← get
  let granted ← kmalloc env
  let width := mipi.minWidth
  let height := mipi.minHeight
  let numBytes := (width * height * 2).toNat
  if granted then do
    let _ ← mipiDbiWriteBuf env mipi.mspi
      MIPI_DCS_SET_COLUMN_ADDRESS
      [0, 0, (width >>> 8).toUInt8, (width - 1).toUInt8]
    let _ ← mipiDbiWriteBuf env mipi.mspi
      MIPI_DCS_SET_PAGE_ADDRESS
      [0, 0, (height >>> 8).toUInt8, (height - 1).toUInt8]
    let _ ← regmapRawWrite env mipi.mspi
      MIPI_DCS_WRITE_MEMORY_START
      (.ofBytes (List.replicate numBytes 0)
        (env.garbage w.now))
      numBytes
    pure ()
  else
    pure ()

/- The part of `mipi_dbi_pipe_disable` for an enabled pipe. -/
def mipiDbiTurnOff (mipi : MipiDbi) : Driver Unit := do
  let w ← get
  if w.enabled then
    if mipi.backlight then
      tinydrmDisableBacklight env mipi.backlight
    else if mipi.regulator then
      pure ()
    else
      mipiDbiBlank env mipi
  else
    pure ()

/-
  The parts of `mipi_dbi_pipe_disable` for a prepared pipe:
  putting the panel to sleep, and switching its supply off.
-/
def mipiDbiSleep (mipi : MipiDbi) : Driver Unit :=
  if mipi.backlight then do
    let _ ← mipiDbiWriteBuf env mipi.mspi
      MIPI_DCS_SET_DISPLAY_OFF []
    let _ ← mipiDbiWriteBuf env mipi.mspi
      MIPI_DCS_ENTER_SLEEP_MODE []
    modify fun w => { w with prepared := false }
  else
    pure ()

def mipiDbiPowerOff (mipi : MipiDbi) : Driver Unit :=
  if mipi.regulator then do
    regulatorDisable
    modify fun w => { w with prepared := false }
  else
    pure ()

def mipiDbiUnprepare (mipi : MipiDbi) : Driver Unit := do
  let w ← get
  if w.prepared then do
    mipiDbiSleep env mipi
    mipiDbiPowerOff mipi
  else
    pure ()

/- `mipi_dbi_pipe_disable`. -/
def mipiDbiPipeDisable (mipi : MipiDbi) : Driver Unit := do
  mipiDbiTurnOff env mipi
  modify fun w => { w with enabled := false }
  mipiDbiUnprepare env mipi

end Utinydrm

------------------------------------------------------------
-- Enable
------------------------------------------------------------

namespace Utinydrm

variable (env : Env)

/- `mipi_dbi_hw_reset`. -/
def mipiDbiHwReset (mipi : MipiDbi) : Driver Unit :=
  if mipi.reset then do
    gpiodSetValueCansleep env .reset false
    gpiodSetValueCansleep env .reset true
  else
    pure ()

/- `mipi_dbi_display_is_on`. -/
def mipiDbiDisplayIsOn (mspi : MipiDbiSpi) : Driver Bool := do
  let (ret, data) ←
    regmapRawRead env mspi MIPI_DCS_GET_POWER_MODE 1
  if ret ≠ 0 then
    pure false
  else
    -- display on, normal mode, sleep out; bits 0, 1, 7 reserved
    pure (decide (data.getD 0 0 &&& 0x7C = 0x1C))

/- `addr_mode`: `MADCTL` bits for the rotation, and BGR. -/
def addrMode (rotation : Nat) : UInt8 :=
  (if rotation = 90 then 0x80
    else if rotation = 180 then 0x20
    else if rotation = 270 then 0x40
    else 0x20 ||| 0x80 ||| 0x40) ||| 0x08

/-
  The commands of `mi0283qt_enable` after the soft reset,
  whose results are not used.
-/
def mi0283qtSequence (rotation : Nat) :
    List (Nat × List UInt8) :=
  [(MIPI_DCS_SET_DISPLAY_OFF, []),
    (0xcf, [0x00, 0x83, 0x30]),
    (0xed, [0x64, 0x03, 0x12, 0x81]),
    (0xe8, [0x85, 0x01, 0x79]),
    (0xcb, [0x39, 0x2c, 0x00, 0x34, 0x02]),
    (0xf7, [0x20]),
    (0xea, [0x00, 0x00]),
    -- power control
    (0xc0, [0x26]),
    (0xc1, [0x11]),
    -- VCOM
    (0xc5, [0x35, 0x3e]),
    (0xc7, [0xbe]),
    -- memory access control
    (MIPI_DCS_SET_PIXEL_FORMAT, [0x55]),
    (MIPI_DCS_SET_ADDRESS_MODE, [addrMode rotation]),
    -- frame rate
    (0xb1, [0x00, 0x1b]),
    -- gamma
    (0xf2, [0x08]),
    (MIPI_DCS_SET_GAMMA_CURVE, [0x01]),
    (0xe0,
      [0x1f, 0x1a, 0x18, 0x0a, 0x0f, 0x06, 0x45, 0x87,
        0x32, 0x0a, 0x07, 0x02, 0x07, 0x05, 0x00]),
    (0xe1,
      [0x00, 0x25, 0x27, 0x05, 0x10, 0x09, 0x3a, 0x78,
        0x4d, 0x05, 0x18, 0x0d, 0x38, 0x3a, 0x1f]),
    -- DDRAM
    (0xb7, [0x07]),
    -- display
    (0xb6, [0x0a, 0x82, 0x27, 0x00]),
    (MIPI_DCS_EXIT_SLEEP_MODE, []),
    (MIPI_DCS_SET_DISPLAY_ON, [])]

/- Write commands one after another, whatever the results. -/
def writeCommands (mspi : MipiDbiSpi) :
    List (Nat × List UInt8) → Driver Unit
| [] => pure ()
| (cmd, parameters) :: rest => do
    let _ ← mipiDbiWriteBuf env mspi cmd parameters
    writeCommands mspi rest

/- `mi0283qt_enable` from the check of the display on. -/
def mi0283qtSetup (mipi : MipiDbi) : Driver Unit := do
  let on ← mipiDbiDisplayIsOn env mipi.mspi
  if on then
    modify fun w => { w with prepared := true }
  else do
    mipiDbiHwReset env mipi
    let ret ← mipiDbiWriteBuf env mipi.mspi
      MIPI_DCS_SOFT_RESET []
    if ret ≠ 0 then
      pure ()
    else do
      writeCommands env mipi.mspi
        (mi0283qtSequence mipi.rotation)
      modify fun w => { w with prepared := true }

/- `mi0283qt_enable`. The scheduled work does nothing. -/
def mi0283qtEnable (mipi : MipiDbi) : Driver Unit := do
  let w ← get
  if w.prepared then
    pure ()
  else if mipi.regulator then do
    let ret ← regulatorEnable env
    if ret ≠ 0 then
      pure ()
    else
      mi0283qtSetup env mipi
  else
    mi0283qtSetup env mipi

end Utinydrm

------------------------------------------------------------
-- Contracts
------------------------------------------------------------

namespace Utinydrm

/-
  What each of the three operations does besides using the
  bus: a dirty call switches on, disabling switches off, and
  enabling resets the panel and supplies it.
-/
structure DirtyContract
    (env : Env)
    (C : Effect.Contract Fault World) : Prop
    extends BusContract env C where
  ledOn : ∀ w, C.step w (w.afterGpio env .led true)
  enabled : ∀ w, C.step w { w with enabled := true }

structure DisableContract
    (env : Env)
    (C : Effect.Contract Fault World) : Prop
    extends BusContract env C where
  ledOff : ∀ w, C.step w (w.afterGpio env .led false)
  disabled : ∀ w, C.step w { w with enabled := false }
  regulatorDisable : ∀ w,
    C.step w (w.record .regulatorDisable)
  unprepared : ∀ w, C.step w { w with prepared := false }

structure EnableContract
    (env : Env)
    (C : Effect.Contract Fault World) : Prop
    extends BusContract env C where
  reset : ∀ value w, C.step w (w.afterGpio env .reset value)
  regulatorEnable : ∀ w, C.step w
    (w.record (.regulatorEnable (env.regulatorEnable w.now)))
  prepared : ∀ w, C.step w { w with prepared := true }

/- A contract of all three. -/
structure PipeContract
    (env : Env)
    (C : Effect.Contract Fault World) : Prop
    extends DirtyContract env C, DisableContract env C,
      EnableContract env C

variable {env : Env}
variable {C : Effect.Contract Fault World}

theorem meets_tinydrmEnableBacklight
    (hDirty : DirtyContract env C)
    (backlight : Bool) (w : World) :
    Effect.Meets C (tinydrmEnableBacklight env backlight) w := by
  have hLed : Effect.Meets C
      (gpiodSetValueCansleep env .led true) w := hDirty.ledOn w
  exact Effect.meets_ite
    (fun _ => Effect.meets_bind hLed
      fun _ s _ => Effect.meets_pure _ s)
    (fun _ => Effect.meets_pure _ w)

theorem meets_tinydrmDisableBacklight
    (hLedOff : ∀ w, C.step w (w.afterGpio env .led false))
    (backlight : Bool) (w : World) :
    Effect.Meets C (tinydrmDisableBacklight env backlight) w := by
  have hLed : Effect.Meets C
      (gpiodSetValueCansleep env .led false) w := hLedOff w
  exact Effect.meets_ite (fun _ => hLed)
    (fun _ => Effect.meets_pure _ w)

theorem meets_mipiDbiFbFlush
    (hBus : BusContract env C)
    (mipi : MipiDbi) (fb : UtinydrmFb)
    (clip : DrmClipRect) (w : World) :
    Effect.Meets C (mipiDbiFbFlush env mipi fb clip) w := by
  refine Effect.meets_bind (meets_mipiDbiWriteBuf hBus _ _ _ w)
    fun _ s _ => ?_
  refine Effect.meets_bind (meets_mipiDbiWriteBuf hBus _ _ _ s)
    fun _ s _ => ?_
  exact meets_tinydrmRegmapFlushRgb565 hBus _ _ _ _ _ s

theorem meets_mipiDbiFbEnable
    (hDirty : DirtyContract env C)
    (mipi : MipiDbi) (ret : Int) (w : World) :
    Effect.Meets C (mipiDbiFbEnable env mipi ret) w := by
  refine Effect.meets_get_bind (Effect.meets_ite
    (fun _ => Effect.meets_pure _ w) fun _ => ?_)
  refine Effect.meets_bind (meets_tinydrmEnableBacklight hDirty _ w)
    fun ret s _ => ?_
  refine Effect.meets_ite
    (fun _ => Effect.meets_pure _ s) fun _ => ?_
  exact Effect.meets_bind
    (Effect.meets_modify (hDirty.enabled s))
    fun _ s _ => Effect.meets_pure _ s

theorem meets_mipiDbiFbDirty
    (hDirty : DirtyContract env C)
    (mipi : MipiDbi) (fb : UtinydrmFb) (flags : UInt32)
    (clips : Option (Nat → DrmClipRect)) (numClips : UInt32)
    (w : World) :
    Effect.Meets C
      (mipiDbiFbDirty env mipi fb flags clips numClips) w := by
  apply Effect.meets_get_bind
  cases tinydrmCheckDirty w clips numClips with
  | none => exact Effect.meets_pure _ w
  | some checked =>
      refine Effect.meets_bind
        (meets_mipiDbiFbFlush hDirty.toBusContract _ _ _ w)
        fun ret s _ => ?_
      exact Effect.meets_ite
        (fun _ => Effect.meets_pure _ s)
        (fun _ => meets_mipiDbiFbEnable hDirty _ _ s)

theorem meets_mipiDbiBlank
    (hBus : BusContract env C)
    (mipi : MipiDbi) (w : World) :
    Effect.Meets C (mipiDbiBlank env mipi) w := by
  refine Effect.meets_get_bind (Effect.meets_bind
    (hBus.meets_kmalloc w) fun granted s _ => ?_)
  refine Effect.meets_ite (fun _ => ?_)
    fun _ => Effect.meets_pure _ s
  refine Effect.meets_bind (meets_mipiDbiWriteBuf hBus _ _ _ s)
    fun _ s _ => ?_
  refine Effect.meets_bind (meets_mipiDbiWriteBuf hBus _ _ _ s)
    fun _ s _ => ?_
  exact Effect.meets_bind (meets_regmapRawWrite hBus _ _ _ _ s)
    fun _ s _ => Effect.meets_pure _ s

theorem meets_mipiDbiTurnOff
    (hBus : BusContract env C)
    (hLedOff : ∀ w, C.step w (w.afterGpio env .led false))
    (mipi : MipiDbi) (w : World) :
    Effect.Meets C (mipiDbiTurnOff env mipi) w := by
  refine Effect.meets_get_bind (Effect.meets_ite
    (fun _ => ?_) fun _ => Effect.meets_pure _ w)
  refine Effect.meets_ite
    (fun _ => meets_tinydrmDisableBacklight hLedOff _ w)
    fun _ => ?_
  exact Effect.meets_ite (fun _ => Effect.meets_pure _ w)
    (fun _ => meets_mipiDbiBlank hBus _ w)

theorem meets_mipiDbiSleep
    (hDisable : DisableContract env C)
    (mipi : MipiDbi) (w : World) :
    Effect.Meets C (mipiDbiSleep env mipi) w := by
  refine Effect.meets_ite (fun _ => ?_)
    fun _ => Effect.meets_pure _ w
  refine Effect.meets_bind
    (meets_mipiDbiWriteBuf hDisable.toBusContract _ _ _ w)
    fun _ s _ => ?_
  exact Effect.meets_bind
    (meets_mipiDbiWriteBuf hDisable.toBusContract _ _ _ s)
    fun _ s _ => Effect.meets_modify (hDisable.unprepared s)

theorem meets_mipiDbiPowerOff
    (hDisable : DisableContract env C)
    (mipi : MipiDbi) (w : World) :
    Effect.Meets C (mipiDbiPowerOff mipi) w :=
  Effect.meets_ite
    (fun _ => Effect.meets_bind
      (Effect.meets_modify (hDisable.regulatorDisable w))
      fun _ s _ => Effect.meets_modify (hDisable.unprepared s))
    (fun _ => Effect.meets_pure _ w)

theorem meets_mipiDbiUnprepare
    (hDisable : DisableContract env C)
    (mipi : MipiDbi) (w : World) :
    Effect.Meets C (mipiDbiUnprepare env mipi) w := by
  refine Effect.meets_get_bind (Effect.meets_ite
    (fun _ => ?_) fun _ => Effect.meets_pure _ w)
  exact Effect.meets_bind (meets_mipiDbiSleep hDisable _ w)
    fun _ s _ => meets_mipiDbiPowerOff hDisable _ s

theorem meets_mipiDbiPipeDisable
    (hDisable : DisableContract env C)
    (mipi : MipiDbi) (w : World) :
    Effect.Meets C (mipiDbiPipeDisable env mipi) w := by
  refine Effect.meets_bind
    (meets_mipiDbiTurnOff hDisable.toBusContract
      hDisable.ledOff _ w)
    fun _ s _ => ?_
  exact Effect.meets_bind
    (Effect.meets_modify (hDisable.disabled s))
    fun _ s _ => meets_mipiDbiUnprepare hDisable _ s

theorem meets_mipiDbiHwReset
    (hReset : ∀ value w,
      C.step w (w.afterGpio env .reset value))
    (mipi : MipiDbi) (w : World) :
    Effect.Meets C (mipiDbiHwReset env mipi) w := by
  have hLine : ∀ value s, Effect.Meets C
      (gpiodSetValueCansleep env .reset value) s :=
    fun value s => hReset value s
  exact Effect.meets_ite
    (fun _ => Effect.meets_bind (hLine _ w)
      fun _ s _ => hLine _ s)
    (fun _ => Effect.meets_pure _ w)

theorem meets_mipiDbiDisplayIsOn
    (hBus : BusContract env C)
    (mspi : MipiDbiSpi) (w : World) :
    Effect.Meets C (mipiDbiDisplayIsOn env mspi) w :=
  Effect.meets_bind (meets_regmapRawRead hBus _ _ _ w)
    fun _ s _ => Effect.meets_ite
      (fun _ => Effect.meets_pure _ s)
      (fun _ => Effect.meets_pure _ s)

theorem meets_writeCommands
    (hBus : BusContract env C)
    (mspi : MipiDbiSpi)
    (commands : List (Nat × List UInt8)) (w : World) :
    Effect.Meets C (writeCommands env mspi commands) w := by
  induction commands generalizing w with
  | nil => exact Effect.meets_pure _ w
  | cons command rest ih =>
      exact Effect.meets_bind
        (meets_mipiDbiWriteBuf hBus _ _ _ w)
        fun _ s _ => ih s

theorem meets_mi0283qtSetup
    (hEnable : EnableContract env C)
    (mipi : MipiDbi) (w : World) :
    Effect.Meets C (mi0283qtSetup env mipi) w := by
  have hBus := hEnable.toBusContract
  refine Effect.meets_bind (meets_mipiDbiDisplayIsOn hBus _ w)
    fun on s _ => ?_
  refine Effect.meets_ite
    (fun _ => Effect.meets_modify (hEnable.prepared s))
    fun _ => ?_
  refine Effect.meets_bind
    (meets_mipiDbiHwReset hEnable.reset _ s)
    fun _ s _ => ?_
  refine Effect.meets_bind (meets_mipiDbiWriteBuf hBus _ _ _ s)
    fun ret s _ => ?_
  refine Effect.meets_ite
    (fun _ => Effect.meets_pure _ s) fun _ => ?_
  exact Effect.meets_bind (meets_writeCommands hBus _ _ s)
    fun _ s _ => Effect.meets_modify (hEnable.prepared s)

theorem meets_mi0283qtEnable
    (hEnable : EnableContract env C)
    (mipi : MipiDbi) (w : World) :
    Effect.Meets C (mi0283qtEnable env mipi) w := by
  refine Effect.meets_get_bind (Effect.meets_ite
    (fun _ => Effect.meets_pure _ w) fun _ => ?_)
  refine Effect.meets_ite (fun _ => ?_)
    fun _ => meets_mi0283qtSetup hEnable _ w
  have hSupply : Effect.Meets C (regulatorEnable env) w :=
    hEnable.regulatorEnable w
  refine Effect.meets_bind hSupply fun ret s _ => ?_
  exact Effect.meets_ite (fun _ => Effect.meets_pure _ s)
    (fun _ => meets_mi0283qtSetup hEnable _ s)

end Utinydrm

------------------------------------------------------------
-- Outcomes
------------------------------------------------------------

namespace Utinydrm

variable {env : Env} {mipi : MipiDbi}
variable {w w' w₁ w₂ : World}

/- The state with the supply on, where there is one. -/
def World.powered
    (env : Env) (mipi : MipiDbi) (w : World) : World :=
  if mipi.regulator then
    w.record (.regulatorEnable (env.regulatorEnable w.now))
  else
    w

/- The supply cannot be switched on. -/
def SupplyRefused
    (env : Env) (mipi : MipiDbi) (w : World) : Prop :=
  mipi.regulator = true ∧ env.regulatorEnable w.now ≠ 0

/-
  Enabling does nothing to a prepared display. Else it fails
  at the supply, or goes on with the supply on.
-/
theorem mi0283qtEnable_cases
    (hRun : mi0283qtEnable env mipi w = .ok () w') :
    (w.prepared = true ∧ w' = w) ∨
    (w.prepared = false ∧ SupplyRefused env mipi w ∧
      w' = w.powered env mipi) ∨
    (w.prepared = false ∧ ¬ SupplyRefused env mipi w ∧
      mi0283qtSetup env mipi (w.powered env mipi) =
        .ok () w') := by
  unfold mi0283qtEnable at hRun
  rw [Effect.bind_of_ok (Effect.get_apply w)] at hRun
  cases hPrepared : w.prepared with
  | true =>
      rw [hPrepared] at hRun
      cases hRun
      exact Or.inl ⟨rfl, rfl⟩
  | false =>
  rw [hPrepared] at hRun
  cases hRegulator : mipi.regulator with
  | false =>
      rw [hRegulator] at hRun
      refine Or.inr (Or.inr ⟨rfl, ?_, ?_⟩)
      · rintro ⟨hPresent, _⟩
        rw [hRegulator] at hPresent
        cases hPresent
      · simpa [World.powered, hRegulator] using hRun
  | true =>
  rw [hRegulator] at hRun
  have hPowered : w.powered env mipi =
      w.record (.regulatorEnable (env.regulatorEnable w.now)) := by
    simp [World.powered, hRegulator]
  rcases Effect.exists_of_bind_ok hRun with
    ⟨ret, s, hSupply, hRest⟩
  cases hSupply
  rw [hPowered]
  by_cases hRet : env.regulatorEnable w.now = 0
  · refine Or.inr (Or.inr ⟨rfl, fun h => h.2 hRet, ?_⟩)
    simpa [hRet] using hRest
  · rw [if_pos hRet] at hRest
    cases hRest
    exact Or.inr (Or.inl ⟨rfl, ⟨hRegulator, hRet⟩, rfl⟩)

/-
  A setup does not find the display on, and its reset command
  returns.
-/
def ResetReturns
    (env : Env) (mipi : MipiDbi) (w : World)
    (ret : Int) (w' : World) : Prop :=
  ∃ s s₁,
    mipiDbiDisplayIsOn env mipi.mspi w = .ok false s ∧
    mipiDbiHwReset env mipi s = .ok () s₁ ∧
    mipiDbiWriteBuf env mipi.mspi MIPI_DCS_SOFT_RESET [] s₁ =
      .ok ret w'

namespace ResetReturns

variable {ret ret' : Int}

theorem unique
    (hReset : ResetReturns env mipi w ret w₁)
    (hReset' : ResetReturns env mipi w ret' w₂) :
    ret = ret' ∧ w₁ = w₂ := by
  rcases hReset with ⟨s, s₁, hOn, hLine, hWrite⟩
  rcases hReset' with ⟨t, t₁, hOn', hLine', hWrite'⟩
  cases hOn.symm.trans hOn'
  cases hLine.symm.trans hLine'
  cases hWrite.symm.trans hWrite'
  exact ⟨rfl, rfl⟩

theorem not_on
    (hReset : ResetReturns env mipi w ret w')
    (s : World) :
    mipiDbiDisplayIsOn env mipi.mspi w ≠ .ok true s := by
  rcases hReset with ⟨t, _, hOn, _⟩
  rw [hOn]
  intro hEq
  cases hEq

end ResetReturns

/-
  The setup finds the display on, or fails at the reset
  command, or goes on with the sequence.
-/
theorem mi0283qtSetup_cases
    (hRun : mi0283qtSetup env mipi w = .ok () w') :
    (∃ s, mipiDbiDisplayIsOn env mipi.mspi w = .ok true s ∧
      w' = { s with prepared := true }) ∨
    (∃ ret, ResetReturns env mipi w ret w' ∧ ret ≠ 0) ∨
    ∃ s s', ResetReturns env mipi w 0 s ∧
      writeCommands env mipi.mspi
        (mi0283qtSequence mipi.rotation) s = .ok () s' ∧
      w' = { s' with prepared := true } := by
  rcases Effect.exists_of_bind_ok hRun with
    ⟨on, s, hOn, hRest⟩
  cases on with
  | true =>
      cases hRest
      exact Or.inl ⟨s, hOn, rfl⟩
  | false =>
  rcases Effect.exists_of_bind_ok hRest with
    ⟨_, s₁, hLine, hRest⟩
  rcases Effect.exists_of_bind_ok hRest with
    ⟨ret, s₂, hWrite, hRest⟩
  have hReset : ResetReturns env mipi w ret s₂ :=
    ⟨s, s₁, hOn, hLine, hWrite⟩
  by_cases hRet : ret = 0
  · subst hRet
    rcases Effect.exists_of_bind_ok hRest with
      ⟨_, s₃, hSequence, hEnd⟩
    cases hEnd
    exact Or.inr (Or.inr ⟨s₂, s₃, hReset, hSequence, rfl⟩)
  · rw [if_pos hRet] at hRest
    cases hRest
    exact Or.inr (Or.inl ⟨ret, hReset, hRet⟩)

/-
  With a backlight or a regulator, disabling leaves an
  unprepared display.
-/
theorem mipiDbiPipeDisable_unprepares
    (hPower : mipi.backlight = true ∨ mipi.regulator = true)
    (hRun : mipiDbiPipeDisable env mipi w = .ok () w') :
    w'.prepared = false := by
  rcases Effect.exists_of_bind_ok hRun with
    ⟨_, s, _, hRest⟩
  rcases Effect.exists_of_bind_ok hRest with
    ⟨_, s₁, hDisabled, hRest⟩
  cases hDisabled
  unfold mipiDbiUnprepare at hRest
  rw [Effect.bind_of_ok (Effect.get_apply _)] at hRest
  cases hPrepared : s.prepared with
  | false =>
      rw [if_neg (by simp [hPrepared])] at hRest
      cases hRest
      exact hPrepared
  | true =>
  rw [if_pos (by simp [hPrepared])] at hRest
  rcases Effect.exists_of_bind_ok hRest with
    ⟨_, s₂, hSleep, hOff⟩
  cases hRegulator : mipi.regulator with
  | true =>
      rw [mipiDbiPowerOff, hRegulator, if_pos rfl] at hOff
      cases hOff
      rfl
  | false =>
      have hBacklight : mipi.backlight = true := by
        rcases hPower with hPresent | hPresent
        · exact hPresent
        · rw [hRegulator] at hPresent
          cases hPresent
      rw [mipiDbiPowerOff, hRegulator] at hOff
      cases hOff
      rw [mipiDbiSleep, hBacklight, if_pos rfl] at hSleep
      rcases Effect.exists_of_bind_ok hSleep with
        ⟨_, s₃, _, hSleep⟩
      rcases Effect.exists_of_bind_ok hSleep with
        ⟨_, s₄, _, hEnd⟩
      cases hEnd
      rfl

end Utinydrm
