import Utinydrm.Linux.Regmap
import Utinydrm.Main.Process

/-
  `mi0283qt_probe` and the functions it calls, with every
  system call of theirs.

  A probe that fails has closed the files of the device it
  had opened. One that succeeds sets up the device that the
  handlers of the events work on.

  Key definitions include:
    * `devmTinydrmRegister`, `tinydrmUnregister`
    * `mi0283qtProbeCalls`
    * `ProbeOutcome`

  Main declarations:
    * `yields_mi0283qtProbeCalls`
-/

------------------------------------------------------------
-- Setting Up The Bus
------------------------------------------------------------

namespace Utinydrm

variable (sys : SysEnv) (env : Env)

/- `devm_regmap_init`. -/
def devmRegmapInit
    (config : RegmapConfig) :
    Proc (Except Int RegmapFormat) := do
  let granted ← sysAlloc sys
  if ¬ granted then
    pure (.error (-ENOMEM))
  else
    match regmapFormatOf config with
    | .error ret => pure (.error ret)
    | .ok format => do
        -- the work buffer
        let granted ← sysAlloc sys
        if ¬ granted then
          pure (.error (-ENOMEM))
        else
          pure (.ok format)

/- `mipi_dbi_spi_init`, with what it allocates. -/
def mipiDbiSpiInitCalls
    (spi : SpiDevice) (dc writeOnly : Bool) :
    Proc (Except Int MipiDbiSpi) := do
  let granted ← sysAlloc sys
  if ¬ granted then
    pure (.error (-ENOMEM))
  else do
    let map ← devmRegmapInit sys mipiDbiRegmapConfig
    match map with
    | .error ret => pure (.error ret)
    | .ok _ => pure (.ok (mipiDbiSpiInit spi dc writeOnly))

/- `tinydrm_of_find_backlight`. -/
def tinydrmOfFindBacklight : Proc (Except Int GpioDesc) :=
  devmGpiodGetOptional sys env "led" .outLow

end Utinydrm

------------------------------------------------------------
-- Registration
------------------------------------------------------------

namespace Utinydrm

variable (sys : SysEnv) (env : Env)

/- `struct utinydrm`, as far as `main` uses it. -/
structure Udev where
  fd : Int
  controlFd : Int
  index : Nat
deriving DecidableEq, Repr

/- `ioctl(fd, UDRM_DEV_CREATE, &udev_create)`. -/
def sysCreateDevice
    (fd : Int) (request : UdrmDevCreate) :
    Proc (Except Errno UdrmDev) := fun s =>
  .ok (sys.createDevice s.now)
    (s.record
      (.createDevice fd request (sys.createDevice s.now)))

/- `udev->buf_fd = udev_create.buf_fd`. -/
def setBufFd (bufFd : Int) : Driver Unit :=
  modify fun w => { w with bufFd }

/- What `devm_tinydrm_register` asks for. -/
def udrmRequest (mode : DrmDisplayMode) : UdrmDevCreate where
  name := "mi0283qt"
  mode := mode
  formats := [.rgb565]
  swapBytes := true

/- Its last part: the control node, and `udev->buf_fd`. -/
def openControl
    (fd : Int) (dev : UdrmDev) : Proc (Except Int Udev) := do
  let control ← sysOpen sys (.control (dev.index + 64))
  match control with
  | .error e => do
      sysClose fd
      pure (.error e.ret)
  | .ok controlFd => do
      onWorld (setBufFd dev.bufFd)
      pure (.ok ⟨fd, controlFd, dev.index⟩)

/- `devm_tinydrm_register`. -/
def devmTinydrmRegister
    (mode : DrmDisplayMode) : Proc (Except Int Udev) := do
  let opened ← sysOpen sys .udrm
  match opened with
  | .error e => pure (.error e.ret)
  | .ok fd => do
      let created ← sysCreateDevice sys fd (udrmRequest mode)
      match created with
      | .error e => do
          sysClose fd
          pure (.error e.ret)
      | .ok dev => openControl sys fd dev

/- `tinydrm_unregister`. -/
def tinydrmUnregister (udev : Udev) : Proc Unit := do
  sysClose udev.controlFd
  sysClose udev.fd

/-
  `mi0283qt_probe`. There is no regulator, the panel can be
  read from, and it is not rotated.
-/
def mi0283qtProbeCalls
    (spi : SpiDevice) : Proc (Except Int (MipiDbi × Udev)) := do
  let granted ← sysAlloc sys
  if ¬ granted then
    pure (.error (-ENOMEM))
  else do
  let reset ← devmGpiodGetOptional sys env "reset" .outHigh
  match reset with
  | .error ret => pure (.error ret)
  | .ok _ => do
  let dc ← devmGpiodGetOptional sys env "dc" .outLow
  match dc with
  | .error ret => pure (.error ret)
  | .ok _ => do
  let backlight ← tinydrmOfFindBacklight sys env
  match backlight with
  | .error ret => pure (.error ret)
  | .ok _ => do
  let reg ← mipiDbiSpiInitCalls sys spi true false
  match reg with
  | .error ret => pure (.error ret)
  | .ok mspi =>
      match mipiDbiInit (mipiDbiAlloc mspi true true false)
          mi0283qtMode 0 with
      | .error ret => pure (.error ret)
      | .ok (mipi, udevMode) => do
          let registered ← devmTinydrmRegister sys udevMode
          match registered with
          | .error ret => pure (.error ret)
          | .ok udev => pure (.ok (mipi, udev))

end Utinydrm

------------------------------------------------------------
-- What It Leaves Behind
------------------------------------------------------------

namespace Utinydrm

open Effect

variable {sys : SysEnv} {env : Env}
variable {s₀ s : Process} {w : World}

theorem yields_devmRegmapInit
    {config : RegmapConfig} {format : RegmapFormat}
    (hFormat : regmapFormatOf config = .ok format)
    (hLeaves : s₀.Leaves [] w s) :
    Yields
      (fun r s' => s₀.Leaves [] w s' ∧
        (r = .error (-ENOMEM) ∨ r = .ok format))
      (devmRegmapInit sys config) s := by
  unfold devmRegmapInit
  refine yields_bind (yields_sysAlloc hLeaves) ?_
  intro granted s₁ h₁
  refine yields_ite
    (fun _ => yields_pure ⟨h₁, Or.inl rfl⟩) fun _ => ?_
  rw [hFormat]
  refine yields_bind (yields_sysAlloc h₁) ?_
  intro granted' s₂ h₂
  exact yields_ite
    (fun _ => yields_pure ⟨h₂, Or.inl rfl⟩)
    fun _ => yields_pure ⟨h₂, Or.inr rfl⟩

theorem yields_mipiDbiSpiInitCalls
    (spi : SpiDevice) (dc writeOnly : Bool)
    (hLeaves : s₀.Leaves [] w s) :
    Yields
      (fun r s' => s₀.Leaves [] w s' ∧
        (r = .error (-ENOMEM) ∨
          r = .ok (mipiDbiSpiInit spi dc writeOnly)))
      (mipiDbiSpiInitCalls sys spi dc writeOnly) s := by
  unfold mipiDbiSpiInitCalls
  refine yields_bind (yields_sysAlloc hLeaves) ?_
  intro granted s₁ h₁
  refine yields_ite
    (fun _ => yields_pure ⟨h₁, Or.inl rfl⟩) fun _ => ?_
  refine yields_bind
    (yields_devmRegmapInit regmapFormatOf_mipiDbi h₁) ?_
  rintro _ s₂ ⟨h₂, rfl | rfl⟩
  · exact yields_pure ⟨h₂, Or.inl rfl⟩
  · exact yields_pure ⟨h₂, Or.inr rfl⟩

/- The files of the device, once it is registered. -/
def Udev.files (udev : Udev) : List (SysFile × Int) :=
  [(.udrm, udev.fd),
    (.control (udev.index + 64), udev.controlFd)]

/-
  What becomes of a registration: its files are open and the
  driver has the descriptor it was given, or neither.
-/
def RegisterOutcome
    (s₀ : Process) (w : World) (result : Except Int Udev)
    (s' : Process) : Prop :=
  match result with
  | .error ret => ret < 0 ∧ s₀.Leaves [] w s'
  | .ok udev =>
      ∃ bufFd, s₀.Leaves udev.files { w with bufFd } s'

/- `/dev/udrm` is closed when the registration fails later. -/
theorem yields_close_udrm
    {fd : Int} (hLeaves : s₀.Leaves [(.udrm, fd)] w s)
    (e : Errno) :
    Yields (RegisterOutcome s₀ w)
      (do sysClose fd; pure (.error e.ret)) s := by
  have hClosed : Yields (fun _ s' => s₀.Leaves [] w s')
      (sysClose fd) s := by
    refine ⟨_, _, rfl, ?_⟩
    simpa using hLeaves.close fd
  refine yields_bind hClosed fun _ s₁ h₁ => ?_
  exact yields_pure ⟨Errno.ret_neg e, h₁⟩

/- What opening a file of the device makes of the others. -/
theorem yields_openDevice
    {file : SysFile} {files : List (SysFile × Int)}
    (hLeaves : s₀.Leaves files w s)
    (hDevice : file.isGpio = false) :
    Yields
      (fun r s' =>
        match r with
        | .error _ => s₀.Leaves files w s'
        | .ok fd => s₀.Leaves (files ++ [(file, fd)]) w s')
      (sysOpen sys file) s := by
  refine ⟨_, _, rfl, ?_⟩
  cases sys.openFile s.now with
  | error e => exact hLeaves.still rfl rfl
  | ok fd => exact hLeaves.open_device hDevice

theorem yields_openControl
    {fd : Int} (dev : UdrmDev)
    (hLeaves : s₀.Leaves [(.udrm, fd)] w s) :
    Yields (RegisterOutcome s₀ w) (openControl sys fd dev) s := by
  unfold openControl
  refine yields_bind (yields_openDevice hLeaves rfl) ?_
  rintro (e | controlFd) s₁ h₁
  case error => exact yields_close_udrm h₁ e
  case ok =>
    have hSet : Yields
        (fun _ s' => s₀.Leaves
          [(.udrm, fd), (.control (dev.index + 64), controlFd)]
          { w with bufFd := dev.bufFd } s')
        (onWorld (setBufFd dev.bufFd)) s₁ := by
      refine ⟨(), { s₁ with world := _ }, rfl, h₁.files,
        h₁.quiet, ?_⟩
      rw [h₁.world]
    refine yields_bind hSet fun _ s₂ h₂ => ?_
    exact yields_pure ⟨dev.bufFd, h₂⟩

theorem yields_devmTinydrmRegister
    (mode : DrmDisplayMode) (hLeaves : s₀.Leaves [] w s) :
    Yields (RegisterOutcome s₀ w)
      (devmTinydrmRegister sys mode) s := by
  unfold devmTinydrmRegister
  refine yields_bind (yields_openDevice hLeaves rfl) ?_
  rintro (e | fd) s₁ h₁
  case error => exact yields_pure ⟨Errno.ret_neg e, h₁⟩
  case ok =>
    have hCreated : Yields
        (fun _ s' => s₀.Leaves [(.udrm, fd)] w s')
        (sysCreateDevice sys fd (udrmRequest mode)) s₁ :=
      ⟨_, _, rfl, h₁.still rfl rfl⟩
    refine yields_bind hCreated ?_
    rintro (e | dev) s₂ h₂
    case error => exact yields_close_udrm h₂ e
    case ok => exact yields_openControl dev h₂

/- The lines as they are set while the devices are found. -/
def World.afterLines (env : Env) (w : World) : World :=
  ((w.afterGpio env .reset true).afterGpio env .dc
    false).afterGpio env .led false

/-
  What becomes of a probe. The device is that of the handlers
  of the events, and the driver has set the lines only.
-/
def ProbeOutcome
    (env : Env) (spi : SpiDevice) (s₀ : Process) (w : World)
    (result : Except Int (MipiDbi × Udev))
    (s' : Process) : Prop :=
  match result with
  | .error ret => ret < 0 ∧ ∃ w', s₀.Leaves [] w' s'
  | .ok (mipi, udev) =>
      mipi = mi0283qtProbe spi true true true false ∧
        ∃ bufFd, s₀.Leaves udev.files
          { w.afterLines env with bufFd } s'

/- A probe always comes to one of these ends. -/
theorem yields_mi0283qtProbeCalls
    (spi : SpiDevice) (hLeaves : s₀.Leaves [] w s) :
    Yields (ProbeOutcome env spi s₀ w)
      (mi0283qtProbeCalls sys env spi) s := by
  unfold mi0283qtProbeCalls
  refine yields_bind (yields_sysAlloc hLeaves) ?_
  intro granted s₁ h₁
  refine yields_ite
    (fun _ => yields_pure ⟨by decide, w, h₁⟩) fun _ => ?_
  refine yields_bind
    (yields_devmGpiodGetOptional gpioOf_reset .outHigh h₁) ?_
  rintro (ret | reset) s₂ h₂
  case error => exact yields_pure ⟨h₂.1, _, h₂.2⟩
  refine yields_bind
    (yields_devmGpiodGetOptional gpioOf_dc .outLow h₂) ?_
  rintro (ret | dc) s₃ h₃
  case error => exact yields_pure ⟨h₃.1, _, h₃.2⟩
  refine yields_bind
    (yields_devmGpiodGetOptional gpioOf_led .outLow h₃) ?_
  rintro (ret | led) s₄ h₄
  case error => exact yields_pure ⟨h₄.1, _, h₄.2⟩
  refine yields_bind
    (yields_mipiDbiSpiInitCalls spi true false h₄) ?_
  rintro _ s₅ ⟨h₅, rfl | rfl⟩
  · exact yields_pure ⟨by decide, _, h₅⟩
  -- the rotation of zero is one of those that are accepted
  simp only [mipiDbiInit_mi0283qt]
  refine yields_bind
    (yields_devmTinydrmRegister mi0283qtMode h₅) ?_
  rintro (ret | udev) s₆ h₆
  case error => exact yields_pure ⟨h₆.1, _, h₆.2⟩
  case ok => exact yields_pure ⟨rfl, h₆⟩

end Utinydrm
