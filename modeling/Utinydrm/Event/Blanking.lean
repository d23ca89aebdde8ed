import Utinydrm.Event.Handlers
import Utinydrm.Lib.Recording

/-
  What disabling the pipe writes to a panel that has neither
  a backlight nor a regulator.

  The panel is to be blanked, over the size that the mode
  configuration of the device holds. Nothing sets this size:
  in `tinydrm_display_pipe_init` the assignments are
  commented out. The window is that of a panel without
  pixels, and no pixel is written to it.

  Key definitions include:
    * `mipiDbiInit`
    * `RegisterIo`: how a program writes registers
    * `recordedDisable`: disabling, its writes noted
    * `BlanksPanel`

  Main declarations:
    * `recordedDisable_erases`
    * `recordedDisable_writes`
    * `pipe_disable_never_blanks`
-/

------------------------------------------------------------
-- Initialisation
------------------------------------------------------------

namespace Utinydrm

/-
  `struct drm_display_mode`, the fields that depend on the
  rotation.
-/
structure DrmDisplayMode where
  hdisplay : Int
  hsyncStart : Int
  hsyncEnd : Int
  htotal : Int
  vdisplay : Int
  vsyncStart : Int
  vsyncEnd : Int
  vtotal : Int
  widthMm : Int
  heightMm : Int
deriving DecidableEq, Repr

/- `TINYDRM_MODE`. -/
def tinydrmMode (hd vd hdMm vdMm : Int) : DrmDisplayMode where
  hdisplay := hd
  hsyncStart := hd
  hsyncEnd := hd
  htotal := hd
  vdisplay := vd
  vsyncStart := vd
  vsyncEnd := vd
  vtotal := vd
  widthMm := hdMm
  heightMm := vdMm

/- `mi0283qt_mode`. -/
def mi0283qtMode : DrmDisplayMode := tinydrmMode 320 240 58 43

/- `tinydrm_rotate_mode`. -/
def tinydrmRotateMode
    (mode : DrmDisplayMode) (rotation : Nat) :
    Except Int DrmDisplayMode :=
  if rotation = 0 ∨ rotation = 180 then
    .ok mode
  else if rotation = 90 ∨ rotation = 270 then
    .ok
      { hdisplay := mode.vdisplay
        hsyncStart := mode.vsyncStart
        hsyncEnd := mode.vsyncEnd
        htotal := mode.vtotal
        vdisplay := mode.hdisplay
        vsyncStart := mode.hsyncStart
        vsyncEnd := mode.hsyncEnd
        vtotal := mode.htotal
        widthMm := mode.heightMm
        heightMm := mode.widthMm }
  else
    .error (-EINVAL)

/-
  `tinydrm_display_pipe_init`: the mode in `udev->mode`. The
  sizes in `drm->mode_config` are left alone.
-/
def tinydrmDisplayPipeInit
    (mode : DrmDisplayMode) (rotation : Nat) :
    Except Int DrmDisplayMode :=
  match tinydrmRotateMode mode rotation with
  | .ok modeCopy => .ok modeCopy
  | .error _ => .error (-EINVAL)

/- `struct mipi_dbi` from `devm_kzalloc`, its devices found. -/
def mipiDbiAlloc
    (mspi : MipiDbiSpi) (reset backlight regulator : Bool) :
    MipiDbi where
  mspi := mspi
  rotation := 0
  minWidth := 0
  minHeight := 0
  reset := reset
  backlight := backlight
  regulator := regulator

/- `mipi_dbi_init`: the device, with the mode in `udev`. -/
def mipiDbiInit
    (mipi : MipiDbi) (mode : DrmDisplayMode)
    (rotation : Nat) : Except Int (MipiDbi × DrmDisplayMode) :=
  match tinydrmDisplayPipeInit mode rotation with
  | .ok udevMode => .ok ({ mipi with rotation }, udevMode)
  | .error ret => .error ret

/- The device of `mi0283qt_probe` is set up by it. -/
theorem mipiDbiInit_mi0283qt
    (spi : SpiDevice) (dc reset backlight regulator : Bool) :
    mipiDbiInit
        (mipiDbiAlloc (mipiDbiSpiInit spi dc false) reset
          backlight regulator) mi0283qtMode 0 =
      .ok (mi0283qtProbe spi dc reset backlight regulator,
        mi0283qtMode) := rfl

/- A rotation that is accepted keeps the sides positive. -/
theorem tinydrmRotateMode_pos
    {mode rotated : DrmDisplayMode} {rotation : Nat}
    (hRotate : tinydrmRotateMode mode rotation = .ok rotated)
    (hWidth : 1 ≤ mode.hdisplay)
    (hHeight : 1 ≤ mode.vdisplay) :
    1 ≤ rotated.hdisplay ∧ 1 ≤ rotated.vdisplay := by
  unfold tinydrmRotateMode at hRotate
  split at hRotate
  case isTrue =>
    cases hRotate
    exact ⟨hWidth, hHeight⟩
  case isFalse =>
    split at hRotate
    case isTrue =>
      cases hRotate
      exact ⟨hHeight, hWidth⟩
    case isFalse => cases hRotate

/- What an initialisation that succeeds leaves behind. -/
theorem mipiDbiInit_ok
    {mipi mipi' : MipiDbi} {mode udevMode : DrmDisplayMode}
    {rotation : Nat}
    (hInit : mipiDbiInit mipi mode rotation =
      .ok (mipi', udevMode)) :
    tinydrmRotateMode mode rotation = .ok udevMode ∧
      mipi' = { mipi with rotation } := by
  unfold mipiDbiInit tinydrmDisplayPipeInit at hInit
  cases hRotate : tinydrmRotateMode mode rotation with
  | error ret =>
      rw [hRotate] at hInit
      cases hInit
  | ok rotated =>
      rw [hRotate] at hInit
      cases hInit
      exact ⟨rfl, rfl⟩

end Utinydrm

------------------------------------------------------------
-- Noting Register Writes
------------------------------------------------------------

namespace Utinydrm

/-
  How a program over states `σ` runs the functions of the
  driver, and how it writes a register.
-/
structure RegisterIo (σ : Type) where
  lift : {α : Type} → Driver α → EStateM Fault σ α
  writeBuf : Nat → List UInt8 → EStateM Fault σ Int
  rawWrite : Nat → Ptr → Nat → EStateM Fault σ Int

section Programs

variable {σ : Type} (io : RegisterIo σ) (env : Env)

/- `mipiDbiBlank`, its register writes given. -/
def mipiDbiBlankOn (mipi : MipiDbi) : EStateM Fault σ Unit := do
  let w ← io.lift get
  let granted ← io.lift (kmalloc env)
  let width := mipi.minWidth
  let height := mipi.minHeight
  let numBytes := (width * height * 2).toNat
  if granted then do
    let _ ← io.writeBuf MIPI_DCS_SET_COLUMN_ADDRESS
      [0, 0, (width >>> 8).toUInt8, (width - 1).toUInt8]
    let _ ← io.writeBuf MIPI_DCS_SET_PAGE_ADDRESS
      [0, 0, (height >>> 8).toUInt8, (height - 1).toUInt8]
    let _ ← io.rawWrite MIPI_DCS_WRITE_MEMORY_START
      (.ofBytes (List.replicate numBytes 0)
        (env.garbage w.now))
      numBytes
    pure ()
  else
    pure ()

/- `mipiDbiTurnOff`. -/
def mipiDbiTurnOffOn
    (mipi : MipiDbi) : EStateM Fault σ Unit := do
  let w ← io.lift get
  if w.enabled then
    if mipi.backlight then
      io.lift (tinydrmDisableBacklight env mipi.backlight)
    else if mipi.regulator then
      pure ()
    else
      mipiDbiBlankOn io env mipi
  else
    pure ()

/- `mipiDbiSleep`. -/
def mipiDbiSleepOn (mipi : MipiDbi) : EStateM Fault σ Unit :=
  if mipi.backlight then do
    let _ ← io.writeBuf MIPI_DCS_SET_DISPLAY_OFF []
    let _ ← io.writeBuf MIPI_DCS_ENTER_SLEEP_MODE []
    io.lift (modify fun w => { w with prepared := false })
  else
    pure ()

/- `mipiDbiUnprepare`. -/
def mipiDbiUnprepareOn
    (mipi : MipiDbi) : EStateM Fault σ Unit := do
  let w ← io.lift get
  if w.prepared then do
    mipiDbiSleepOn io mipi
    io.lift (mipiDbiPowerOff mipi)
  else
    pure ()

/- `mipiDbiPipeDisable`. -/
def mipiDbiPipeDisableOn
    (mipi : MipiDbi) : EStateM Fault σ Unit := do
  mipiDbiTurnOffOn io env mipi
  io.lift (modify fun w => { w with enabled := false })
  mipiDbiUnprepareOn io mipi

end Programs

variable (env : Env)

/- With the writes of the driver it is the callback. -/
theorem mipiDbiPipeDisableOn_direct (mipi : MipiDbi) :
    mipiDbiPipeDisableOn
        { lift := fun program => program
          writeBuf := mipiDbiWriteBuf env mipi.mspi
          rawWrite := regmapRawWrite env mipi.mspi } env mipi =
      mipiDbiPipeDisable env mipi := rfl

/- A register, and the values written to it. -/
abbrev RegisterWrite := Nat × List UInt8

/- A write of a register, and how it ended. -/
abbrev WriteNote := Effect.Note RegisterWrite Fault Int

/- The writes of the driver, noted as they are made. -/
def notedIo (mspi : MipiDbiSpi) :
    RegisterIo (World × List WriteNote) where
  lift := Effect.quiet
  writeBuf := fun cmd parameters =>
    Effect.noted (fun _ => (cmd, parameters))
      (mipiDbiWriteBuf env mspi cmd parameters)
  rawWrite := fun reg val valLen =>
    Effect.noted (fun w => (reg, w.bytes val valLen))
      (regmapRawWrite env mspi reg val valLen)

@[simp] theorem notedIo_lift
    {α : Type} (mspi : MipiDbiSpi) (program : Driver α) :
    (notedIo env mspi).lift program = Effect.quiet program :=
  rfl

@[simp] theorem notedIo_writeBuf
    (mspi : MipiDbiSpi) (cmd : Nat) (parameters : List UInt8) :
    (notedIo env mspi).writeBuf cmd parameters =
      Effect.noted (fun _ => (cmd, parameters))
        (mipiDbiWriteBuf env mspi cmd parameters) := rfl

@[simp] theorem notedIo_rawWrite
    (mspi : MipiDbiSpi) (reg : Nat) (val : Ptr) (valLen : Nat) :
    (notedIo env mspi).rawWrite reg val valLen =
      Effect.noted (fun w => (reg, w.bytes val valLen))
        (regmapRawWrite env mspi reg val valLen) := rfl

/- Disabling the pipe, its register writes noted. -/
def recordedDisable
    (mipi : MipiDbi) :
    EStateM Fault (World × List WriteNote) Unit :=
  mipiDbiPipeDisableOn (notedIo env mipi.mspi) env mipi

theorem recordedBlank_erases (mipi : MipiDbi) :
    Effect.Erases
      (mipiDbiBlankOn (notedIo env mipi.mspi) env mipi)
      (mipiDbiBlank env mipi) := by
  simp only [mipiDbiBlankOn, mipiDbiBlank, notedIo_lift,
    notedIo_writeBuf, notedIo_rawWrite]
  apply Effect.erases_bind Effect.erases_quiet
  intro w
  apply Effect.erases_bind Effect.erases_quiet
  intro granted
  refine Effect.erases_ite ?_ (Effect.erases_pure ())
  apply Effect.erases_bind (Effect.erases_noted _)
  intro _
  apply Effect.erases_bind (Effect.erases_noted _)
  intro _
  exact Effect.erases_bind (Effect.erases_noted _)
    fun _ => Effect.erases_pure ()

/- Noting its writes does not change the callback. -/
theorem recordedDisable_erases (mipi : MipiDbi) :
    Effect.Erases (recordedDisable env mipi)
      (mipiDbiPipeDisable env mipi) := by
  have hTurnOff : Effect.Erases
      (mipiDbiTurnOffOn (notedIo env mipi.mspi) env mipi)
      (mipiDbiTurnOff env mipi) := by
    apply Effect.erases_bind Effect.erases_quiet
    intro w
    refine Effect.erases_ite ?_ (Effect.erases_pure ())
    apply Effect.erases_ite Effect.erases_quiet
    exact Effect.erases_ite (Effect.erases_pure ())
      (recordedBlank_erases env mipi)
  have hSleep : Effect.Erases
      (mipiDbiSleepOn (notedIo env mipi.mspi) mipi)
      (mipiDbiSleep env mipi) := by
    simp only [mipiDbiSleepOn, mipiDbiSleep, notedIo_lift,
      notedIo_writeBuf]
    refine Effect.erases_ite ?_ (Effect.erases_pure ())
    apply Effect.erases_bind (Effect.erases_noted _)
    intro _
    exact Effect.erases_bind (Effect.erases_noted _)
      fun _ => Effect.erases_quiet
  apply Effect.erases_bind hTurnOff
  intro _
  apply Effect.erases_bind Effect.erases_quiet
  intro _
  apply Effect.erases_bind Effect.erases_quiet
  intro w
  refine Effect.erases_ite ?_ (Effect.erases_pure ())
  exact Effect.erases_bind hSleep fun _ => Effect.erases_quiet

end Utinydrm

------------------------------------------------------------
-- What Is Written
------------------------------------------------------------

namespace Utinydrm

variable {env : Env} {mipi : MipiDbi}

/- The writes of `mipi_dbi_blank` for a size. -/
def blankWrites (width height : UInt32) : List RegisterWrite :=
  [(MIPI_DCS_SET_COLUMN_ADDRESS,
      [0, 0, (width >>> 8).toUInt8, (width - 1).toUInt8]),
    (MIPI_DCS_SET_PAGE_ADDRESS,
      [0, 0, (height >>> 8).toUInt8, (height - 1).toUInt8]),
    (MIPI_DCS_WRITE_MEMORY_START,
      List.replicate (width * height * 2).toNat 0)]

/- Blanking makes these writes if there is memory for it. -/
theorem recordedBlank_writes
    {w : World} {notes : List WriteNote}
    {t : World × List WriteNote}
    (hRun : mipiDbiBlankOn (notedIo env mipi.mspi) env mipi
      (w, notes) = .ok () t) :
    t.2.map Prod.fst = notes.map Prod.fst ++
      if env.kmalloc w.now then
        blankWrites mipi.minWidth mipi.minHeight
      else [] := by
  simp only [mipiDbiBlankOn, notedIo_lift, notedIo_writeBuf,
    notedIo_rawWrite] at hRun
  rcases Effect.exists_of_bind_ok hRun with
    ⟨w₀, s₀, hGet, hRun⟩
  rcases Effect.exists_of_quiet_ok hGet with ⟨_, hGot, rfl⟩
  cases hGot
  rcases Effect.exists_of_bind_ok hRun with
    ⟨granted, s₁, hAlloc, hRun⟩
  rcases Effect.exists_of_quiet_ok hAlloc with
    ⟨w₁, hAlloc, rfl⟩
  cases hAlloc
  cases hGranted : env.kmalloc w.now with
  | false =>
      rw [hGranted] at hRun
      cases hRun
      simp
  | true =>
      rw [hGranted] at hRun
      rcases Effect.exists_of_bind_ok hRun with
        ⟨_, s₂, hColumn, hRun⟩
      rcases Effect.exists_of_noted_ok hColumn with ⟨w₂, _, rfl⟩
      rcases Effect.exists_of_bind_ok hRun with
        ⟨_, s₃, hPage, hRun⟩
      rcases Effect.exists_of_noted_ok hPage with ⟨w₃, _, rfl⟩
      rcases Effect.exists_of_bind_ok hRun with
        ⟨_, s₄, hPixels, hEnd⟩
      rcases Effect.exists_of_noted_ok hPixels with ⟨w₄, _, rfl⟩
      cases hEnd
      have hZeros : ∀ n, w₃.bytes
          (.ofBytes (List.replicate n 0) (env.garbage w.now))
          n = List.replicate n 0 := by
        intro n
        rw [World.bytes_ofBytes _ _ _ (by simp)]
        simp
      simp [blankWrites, hZeros]

section Bare

variable (hBacklight : mipi.backlight = false)
variable (hRegulator : mipi.regulator = false)

include hBacklight hRegulator

/- Such a panel is not put to sleep. -/
theorem recordedUnprepare_quiet
    {s t : World × List WriteNote}
    (hRun : mipiDbiUnprepareOn (notedIo env mipi.mspi) mipi s =
      .ok () t) :
    t.2 = s.2 := by
  simp only [mipiDbiUnprepareOn, mipiDbiSleepOn,
    mipiDbiPowerOff, notedIo_lift, hBacklight, hRegulator,
    Bool.false_eq_true, if_false] at hRun
  rcases Effect.exists_of_bind_ok hRun with
    ⟨w, s₁, hGet, hRest⟩
  rcases Effect.exists_of_quiet_ok hGet with ⟨w₁, _, rfl⟩
  split at hRest
  case isTrue =>
    rcases Effect.exists_of_bind_ok hRest with
      ⟨_, s₂, hNothing, hRest⟩
    cases hNothing
    rcases Effect.exists_of_quiet_ok hRest with ⟨w₂, _, rfl⟩
    rfl
  case isFalse =>
    cases hRest
    rfl

/-
  Disabling the pipe blanks such a panel when it is enabled,
  and writes nothing to it when it is not.
-/
theorem recordedDisable_writes
    {w : World} {t : World × List WriteNote}
    (hRun : recordedDisable env mipi (w, []) = .ok () t) :
    t.2.map Prod.fst =
      if w.enabled = true ∧ env.kmalloc w.now = true then
        blankWrites mipi.minWidth mipi.minHeight
      else [] := by
  rcases Effect.exists_of_bind_ok hRun with
    ⟨_, s, hOff, hRest⟩
  rcases Effect.exists_of_bind_ok hRest with
    ⟨_, s₁, hDisabled, hRest⟩
  rw [notedIo_lift] at hDisabled
  rcases Effect.exists_of_quiet_ok hDisabled with ⟨w₁, _, rfl⟩
  rw [recordedUnprepare_quiet hBacklight hRegulator hRest]
  unfold mipiDbiTurnOffOn at hOff
  rw [notedIo_lift, hBacklight, hRegulator] at hOff
  rcases Effect.exists_of_bind_ok hOff with
    ⟨w₂, s₂, hGet, hOff⟩
  rcases Effect.exists_of_quiet_ok hGet with ⟨w₃, hGot, rfl⟩
  cases hGot
  cases hEnabled : w.enabled with
  | false =>
      rw [hEnabled] at hOff
      cases hOff
      simp
  | true =>
      rw [hEnabled] at hOff
      simpa using recordedBlank_writes hOff

end Bare

end Utinydrm

------------------------------------------------------------
-- The Whole Screen
------------------------------------------------------------

namespace Utinydrm

/-
  The writes that blank a screen of the mode: the window up
  to its last column and row, and a zero for every pixel.
-/
def screenWrites (mode : DrmDisplayMode) : List RegisterWrite :=
  let width := mode.hdisplay.toNat
  let height := mode.vdisplay.toNat
  [(MIPI_DCS_SET_COLUMN_ADDRESS,
      [0, 0, ((width - 1) / 256).toUInt8, (width - 1).toUInt8]),
    (MIPI_DCS_SET_PAGE_ADDRESS,
      [0, 0, ((height - 1) / 256).toUInt8,
        (height - 1).toUInt8]),
    (MIPI_DCS_WRITE_MEMORY_START,
      List.replicate (2 * (width * height)) 0)]

/- Disabling the pipe makes them, and each succeeds. -/
def BlanksPanel
    (env : Env) (mipi : MipiDbi) (mode : DrmDisplayMode)
    (w : World) : Prop :=
  ∃ w' notes, recordedDisable env mipi (w, []) =
      .ok () (w', notes) ∧
    notes = (screenWrites mode).map fun write => (write, .ok 0)

/- A mode configuration without a size blanks no pixel. -/
example :
    blankWrites 0 0 =
      [(MIPI_DCS_SET_COLUMN_ADDRESS, [0, 0, 0, 255]),
        (MIPI_DCS_SET_PAGE_ADDRESS, [0, 0, 0, 255]),
        (MIPI_DCS_WRITE_MEMORY_START, [])] := rfl

/- If it does, they are those of `mipi_dbi_blank`. -/
theorem BlanksPanel.writes
    {env : Env} {mipi : MipiDbi} {mode : DrmDisplayMode}
    {w : World}
    (hBlanks : BlanksPanel env mipi mode w)
    (hBacklight : mipi.backlight = false)
    (hRegulator : mipi.regulator = false) :
    screenWrites mode =
      if w.enabled = true ∧ env.kmalloc w.now = true then
        blankWrites mipi.minWidth mipi.minHeight
      else [] := by
  rcases hBlanks with ⟨w', notes, hRun, rfl⟩
  rw [← recordedDisable_writes hBacklight hRegulator hRun,
    List.map_map]
  exact (List.map_id _).symm

/-
  A panel without a backlight and a regulator is blanked for
  no mode, no rotation and in no state: the size that the
  initialisation leaves in the mode configuration is zero.
-/
theorem pipe_disable_never_blanks
    (env : Env) (mspi : MipiDbiSpi) (reset : Bool)
    {mode rotated : DrmDisplayMode} {rotation : Nat}
    {mipi : MipiDbi}
    (hInit : mipiDbiInit (mipiDbiAlloc mspi reset false false)
      mode rotation = .ok (mipi, rotated))
    (hWidth : 1 ≤ mode.hdisplay ∧ mode.hdisplay ≤ 65535)
    (hHeight : 1 ≤ mode.vdisplay ∧ mode.vdisplay ≤ 65535)
    (w : World) :
    ¬ BlanksPanel env mipi rotated w := by
  intro hBlanks
  rcases mipiDbiInit_ok hInit with ⟨hRotate, rfl⟩
  rcases tinydrmRotateMode_pos hRotate hWidth.1 hHeight.1 with
    ⟨hWide, hHigh⟩
  have hWrites := hBlanks.writes rfl rfl
  split at hWrites
  case isTrue =>
    -- the zeros are as many as the screen has bytes
    have hPixels := congrArg List.getLast? hWrites
    have hNone := (Prod.mk.inj (Option.some.inj hPixels)).2
    have hLength := congrArg List.length hNone
    rw [List.length_replicate] at hLength
    have hZero : 2 * (rotated.hdisplay.toNat *
        rotated.vdisplay.toNat) = 0 := hLength
    have hPos : 0 < rotated.hdisplay.toNat *
        rotated.vdisplay.toNat :=
      Nat.mul_pos (by omega) (by omega)
    omega
  case isFalse => cases hWrites

/- The display of `mi0283qt`, with a screen of one pixel. -/
def Env.onePixel : Env :=
  { Env.displayOn with
    getFb := fun _ => .ok
      { fbId := 1
        width := 1
        height := 1
        pitch := 2
        bpp := 16
        depth := 16
        handle := 1 } }

abbrev barePanel : MipiDbi :=
  mi0283qtProbe mainSpi true true false false

/- A dirty event after an enable event enables the pipe. -/
theorem exists_run_enabled :
    ∃ history w, Transition.Run
        (EventStep Env.onePixel barePanel)
        Transition.unguarded (World.atProbe (-1)) history w ∧
      w.enabled = true := by
  have hEnds : Effect.endsIn World.enabled
      (handleEvents Env.onePixel barePanel
        [.fbCreate 1, .pipeEnable,
          .fbDirty ⟨1, 0, 0, 0⟩ fun _ => ⟨0, 0, 0, 0⟩])
      (World.atProbe (-1)) = true := by
    decide +kernel
  rcases Effect.exists_of_endsIn hEnds with
    ⟨_, w, hHandled, hEnabled⟩
  rcases run_of_handleEvents .nil hHandled with ⟨history, hRun⟩
  exact ⟨history, w, hRun, hEnabled⟩

theorem pipe_disable_never_blanks_probe :
    ∃ history w, Transition.Run
        (EventStep Env.onePixel barePanel)
        Transition.unguarded (World.atProbe (-1)) history w ∧
      w.enabled = true ∧
      ¬ BlanksPanel Env.onePixel barePanel mi0283qtMode w := by
  rcases exists_run_enabled with ⟨history, w, hRun, hEnabled⟩
  have hNever := pipe_disable_never_blanks Env.onePixel
    (mipiDbiSpiInit mainSpi true false) true
    (mipiDbiInit_mi0283qt mainSpi true true false false)
    (by decide) (by decide) w
  exact ⟨history, w, hRun, hEnabled, hNever⟩

/- The last column would be 319; the one set is 255. -/
theorem pipe_disable_never_blanks_column :
    ¬ ∀ (env : Env) (mspi : MipiDbiSpi) (reset : Bool)
      (mode rotated : DrmDisplayMode) (rotation : Nat)
      (mipi : MipiDbi) (w₀ w : World)
      (history : List (Event × Int)),
      mipiDbiInit (mipiDbiAlloc mspi reset false false)
        mode rotation = .ok (mipi, rotated) →
      (1 ≤ mode.hdisplay ∧ mode.hdisplay ≤ 65535) →
      (1 ≤ mode.vdisplay ∧ mode.vdisplay ≤ 65535) →
      (∀ n, env.kmalloc n = true) →
      (∀ n, env.spidev n = none) →
      w₀.Probed →
      Transition.Run (EventStep env mipi)
        Transition.unguarded w₀ history w →
      w.enabled = true → BlanksPanel env mipi rotated w := by
  intro hClaim
  rcases exists_run_enabled with ⟨history, w, hRun, hEnabled⟩
  have hBlanks := hClaim Env.onePixel
    (mipiDbiSpiInit mainSpi true false) true mi0283qtMode
    mi0283qtMode 0 barePanel (World.atProbe (-1)) w history
    (mipiDbiInit_mi0283qt mainSpi true true false false)
    (by decide) (by decide) (fun _ => rfl) (fun _ => rfl)
    (World.probed_atProbe (-1)) hRun hEnabled
  have hWrites := hBlanks.writes rfl rfl
  rw [if_pos ⟨hEnabled, rfl⟩] at hWrites
  have hColumn := congrArg List.head? hWrites
  exact absurd (Prod.mk.inj (Option.some.inj hColumn)).2
    (by decide)

end Utinydrm
