import Utinydrm.Event.Blanking

/-
  The process around the driver: the files it opens, and the
  GPIO lines it reaches through sysfs.

  The outcome of every system call is decided by the
  environment. The calls are kept, so that the files that are
  open are known.

  Key definitions include:
    * `SysFile`, `SysCall`, `Process`, `openFiles`
    * `fileWriteString`, `devmGpiodGetOptional`

  Main declarations:
    * `yields_fileWriteString`
    * `yields_devmGpiodGetOptional`
-/

------------------------------------------------------------
-- System Calls
------------------------------------------------------------

namespace Utinydrm

/-
  The files the process opens: those of a line in sysfs,
  `/dev/udrm`, and the control node of a minor.
-/
inductive SysFile where
| gpioValue (gpio : Nat)
| gpioDirection (gpio : Nat)
| gpioExport
| udrm
| control (minor : Nat)
deriving DecidableEq, Repr

/- Whether it belongs to sysfs. -/
def SysFile.isGpio : SysFile → Bool
| .gpioValue _ => true
| .gpioDirection _ => true
| .gpioExport => true
| .udrm => false
| .control _ => false

/- The conditions of `poll` the loop of `main` ends at. -/
structure PollEvents where
  err : Bool
  hup : Bool
  nval : Bool
deriving DecidableEq, Repr

/- `revents & (POLLERR | POLLHUP | POLLNVAL)`. -/
def PollEvents.ends (revents : PollEvents) : Bool :=
  revents.err || revents.hup || revents.nval

/- `struct udrm_dev_create`, as it is handed over. -/
structure UdrmDevCreate where
  name : String
  mode : DrmDisplayMode
  formats : List PixelFormat
  swapBytes : Bool
deriving DecidableEq, Repr

/- What the kernel fills in. -/
structure UdrmDev where
  index : Nat
  bufFd : Int
deriving DecidableEq, Repr

/- A system call with its outcome. -/
inductive SysCall where
| alloc (granted : Bool)
| access (file : SysFile) (found : Bool)
| openFile (file : SysFile) (result : Except Errno Int)
| writeText (fd : Int) (text : String) (result : Option Errno)
| close (fd : Int)
| createDevice (fd : Int) (request : UdrmDevCreate)
    (result : Except Errno UdrmDev)
| readEvent (fd : Int) (result : Except Errno (List UInt8))
| writeReply (fd : Int) (ret : Int) (result : Option Errno)
| poll (fd : Int) (revents : PollEvents)

/- The outcome of the `n`th call, if it is of that kind. -/
structure SysEnv where
  alloc : Nat → Bool
  access : Nat → Bool
  openFile : Nat → Except Errno Int
  writeText : Nat → Option Errno
  createDevice : Nat → Except Errno UdrmDev
  readEvent : Nat → Except Errno (List UInt8)
  writeReply : Nat → Option Errno
  poll : Nat → PollEvents

/- The calls that were made, and the state of the driver. -/
structure Process where
  calls : List SysCall
  world : World

/- The programs of the process. -/
abbrev Proc := EStateM Fault Process

namespace Process

/- How many calls were made. -/
def now (s : Process) : Nat := s.calls.length

def record (s : Process) (call : SysCall) : Process :=
  { s with calls := s.calls ++ [call] }

end Process

/- What a call makes of the descriptors that are open. -/
def openStep (files : List (SysFile × Int)) :
    SysCall → List (SysFile × Int)
| .openFile file (.ok fd) => files ++ [(file, fd)]
| .close fd => files.filter (·.2 ≠ fd)
| _ => files

/- The files that are open after some calls. -/
def openFiles (calls : List SysCall) : List (SysFile × Int) :=
  calls.foldl openStep []

/- A message between the kernel and the process. -/
inductive Message where
| event (data : List UInt8)
| answer (ret : Int)
deriving DecidableEq, Repr

/- The message a call passes on. -/
def SysCall.message : SysCall → Option Message
| .readEvent _ (.ok data) => some (.event data)
| .writeReply _ ret none => some (.answer ret)
| _ => none

/- The messages some calls have passed on. -/
def traffic (calls : List SysCall) : List Message :=
  calls.filterMap SysCall.message

/- Those of the open files that are not lines. -/
def deviceFiles (calls : List SysCall) :
    List (SysFile × Int) :=
  (openFiles calls).filter fun file => ! file.1.isGpio

end Utinydrm

------------------------------------------------------------
-- Open Files
------------------------------------------------------------

namespace Utinydrm

theorem openFiles_snoc (calls : List SysCall) (call : SysCall) :
    openFiles (calls ++ [call]) =
      openStep (openFiles calls) call := by
  simp [openFiles]

/- Whether a call opens or closes a file. -/
def SysCall.movesFiles : SysCall → Bool
| .openFile _ (.ok _) => true
| .close _ => true
| _ => false

theorem deviceFiles_of_still
    {calls : List SysCall} {call : SysCall}
    (hStill : call.movesFiles = false) :
    deviceFiles (calls ++ [call]) = deviceFiles calls := by
  unfold deviceFiles
  rw [openFiles_snoc]
  cases call with
  | openFile file result =>
      cases result with
      | error e => rfl
      | ok fd => cases hStill
  | close fd => cases hStill
  | _ => rfl

theorem deviceFiles_close
    (calls : List SysCall) (fd : Int) :
    deviceFiles (calls ++ [.close fd]) =
      (deviceFiles calls).filter (·.2 ≠ fd) := by
  unfold deviceFiles
  rw [openFiles_snoc]
  simp only [openStep, List.filter_filter]
  congr 1
  funext file
  exact Bool.and_comm _ _

theorem deviceFiles_open_gpio
    {calls : List SysCall} {file : SysFile} {fd : Int}
    (hGpio : file.isGpio = true) :
    deviceFiles (calls ++ [.openFile file (.ok fd)]) =
      deviceFiles calls := by
  unfold deviceFiles
  rw [openFiles_snoc]
  simp [openStep, hGpio]

theorem deviceFiles_open
    {calls : List SysCall} {file : SysFile} {fd : Int}
    (hDevice : file.isGpio = false) :
    deviceFiles (calls ++ [.openFile file (.ok fd)]) =
      deviceFiles calls ++ [(file, fd)] := by
  unfold deviceFiles
  rw [openFiles_snoc]
  simp [openStep, hDevice]

/-
  What a process has become: the files of the device that are
  open, the messages it had passed on before, and the driver.
-/
structure Process.Leaves
    (s : Process) (files : List (SysFile × Int)) (w : World)
    (s' : Process) : Prop where
  files : deviceFiles s'.calls = files
  quiet : traffic s'.calls = traffic s.calls
  world : s'.world = w

namespace Process.Leaves

variable {s s' : Process}
variable {files : List (SysFile × Int)} {w : World}

theorem refl (s : Process) :
    s.Leaves (deviceFiles s.calls) s.world s :=
  ⟨rfl, rfl, rfl⟩

/- A call that is not a message, whatever it does to files. -/
theorem record
    {call : SysCall} {files' : List (SysFile × Int)}
    (hLeaves : s.Leaves files w s')
    (hSilent : call.message = none)
    (hFiles : deviceFiles (s'.calls ++ [call]) = files') :
    s.Leaves files' w (s'.record call) := by
  refine ⟨hFiles, ?_, hLeaves.world⟩
  rw [← hLeaves.quiet]
  simp [Process.record, Utinydrm.traffic, hSilent]

theorem still
    {call : SysCall} (hLeaves : s.Leaves files w s')
    (hSilent : call.message = none)
    (hStill : call.movesFiles = false) :
    s.Leaves files w (s'.record call) :=
  hLeaves.record hSilent
    ((deviceFiles_of_still hStill).trans hLeaves.files)

theorem close
    (hLeaves : s.Leaves files w s') (fd : Int) :
    s.Leaves (files.filter (·.2 ≠ fd)) w
      (s'.record (.close fd)) := by
  refine hLeaves.record rfl ?_
  rw [deviceFiles_close, hLeaves.files]

theorem open_gpio
    {file : SysFile} {result : Except Errno Int}
    (hLeaves : s.Leaves files w s')
    (hGpio : file.isGpio = true) :
    s.Leaves files w (s'.record (.openFile file result)) := by
  cases result with
  | error e => exact hLeaves.still rfl rfl
  | ok fd =>
      exact hLeaves.record rfl
        ((deviceFiles_open_gpio hGpio).trans hLeaves.files)

theorem open_device
    {file : SysFile} {fd : Int}
    (hLeaves : s.Leaves files w s')
    (hDevice : file.isGpio = false) :
    s.Leaves (files ++ [(file, fd)]) w
      (s'.record (.openFile file (.ok fd))) := by
  refine hLeaves.record rfl ?_
  rw [deviceFiles_open hDevice, hLeaves.files]

end Process.Leaves

end Utinydrm

------------------------------------------------------------
-- Making Them
------------------------------------------------------------

namespace Utinydrm

variable (sys : SysEnv)

/- `malloc`, `calloc` and `kzalloc`. -/
def sysAlloc : Proc Bool := fun s =>
  .ok (sys.alloc s.now) (s.record (.alloc (sys.alloc s.now)))

/- `access(fname, F_OK)`. -/
def sysAccess (file : SysFile) : Proc Bool := fun s =>
  .ok (sys.access s.now)
    (s.record (.access file (sys.access s.now)))

/- `open`. -/
def sysOpen (file : SysFile) : Proc (Except Errno Int) :=
  fun s =>
    .ok (sys.openFile s.now)
      (s.record (.openFile file (sys.openFile s.now)))

/- `write` of a string. -/
def sysWriteText (fd : Int) (text : String) :
    Proc (Option Errno) := fun s =>
  .ok (sys.writeText s.now)
    (s.record (.writeText fd text (sys.writeText s.now)))

/- `close`. -/
def sysClose (fd : Int) : Proc Unit := fun s =>
  .ok () (s.record (.close fd))

/- A part of the driver. -/
def onWorld {α : Type} (program : Driver α) : Proc α :=
  fun s =>
    match program s.world with
    | .ok a w => .ok a { s with world := w }
    | .error e w => .error e { s with world := w }

end Utinydrm

------------------------------------------------------------
-- GPIO Lines
------------------------------------------------------------

namespace Utinydrm

variable (sys : SysEnv) (env : Env)

/- `file_write_string`. -/
def fileWriteString
    (pathname : SysFile) (buf : String) : Proc Int := do
  let opened ← sysOpen sys pathname
  match opened with
  | .error e => pure e.ret
  | .ok fd => do
      let written ← sysWriteText sys fd buf
      match written with
      | some e => do
          sysClose fd
          pure e.ret
      | none => do
          sysClose fd
          pure 0

/- `enum gpiod_flags`, the values that are asked for. -/
inductive GpiodFlags where
| outLow
| outHigh
deriving DecidableEq, Repr

/- The level it asks for. -/
def GpiodFlags.value : GpiodFlags → Bool
| .outLow => false
| .outHigh => true

/- `struct gpio_desc`. -/
structure GpioDesc where
  fd : Int
  gpio : Nat
  name : String
deriving DecidableEq, Repr

/- The number of a line, by its name. -/
def gpioOf (conId : String) : Option (Nat × GpioLine) :=
  if conId = "dc" then
    some (24, .dc)
  else if conId = "reset" then
    some (23, .reset)
  else if conId = "led" then
    some (18, .led)
  else
    none

theorem gpioOf_dc : gpioOf "dc" = some (24, .dc) := rfl

theorem gpioOf_reset :
    gpioOf "reset" = some (23, .reset) := rfl

theorem gpioOf_led : gpioOf "led" = some (18, .led) := rfl

/- The line is exported as an output unless it is there. -/
def exportGpio (gpio : Nat) : Proc Int := do
  let found ← sysAccess sys (.gpioValue gpio)
  if found then
    pure 0
  else do
    let ret ← fileWriteString sys .gpioExport (toString gpio)
    if ret ≠ 0 then
      pure ret
    else
      fileWriteString sys (.gpioDirection gpio) "out"

/- `devm_gpiod_get_optional`. An error pointer is `error`. -/
def devmGpiodGetOptional
    (conId : String) (flags : GpiodFlags) :
    Proc (Except Int GpioDesc) :=
  match gpioOf conId with
  | none => pure (.error (-EINVAL))
  | some (gpio, line) => do
      let granted ← sysAlloc sys
      if ¬ granted then
        pure (.error (-ENOMEM))
      else do
        let ret ← exportGpio sys gpio
        if ret ≠ 0 then
          pure (.error ret)
        else do
          let opened ← sysOpen sys (.gpioValue gpio)
          match opened with
          | .error e => pure (.error e.ret)
          | .ok fd => do
              onWorld
                (gpiodSetValueCansleep env line flags.value)
              pure (.ok ⟨fd, gpio, conId⟩)

end Utinydrm

------------------------------------------------------------
-- What They Leave Behind
------------------------------------------------------------

namespace Utinydrm

open Effect

variable {sys : SysEnv} {env : Env} {s : Process}

theorem Errno.ret_neg (e : Errno) : e.ret < 0 := by
  have hPositive := e.pos
  unfold Errno.ret
  omega

section Quiet

variable {s₀ : Process} {w : World}

theorem yields_sysAlloc (hLeaves : s₀.Leaves [] w s) :
    Yields (fun _ s' => s₀.Leaves [] w s') (sysAlloc sys) s :=
  ⟨_, _, rfl, hLeaves.still rfl rfl⟩

theorem yields_openGpio
    {file : SysFile} (hLeaves : s₀.Leaves [] w s)
    (hGpio : file.isGpio = true) :
    Yields (fun _ s' => s₀.Leaves [] w s')
      (sysOpen sys file) s :=
  ⟨_, _, rfl, hLeaves.open_gpio hGpio⟩

theorem yields_close
    (hLeaves : s₀.Leaves [] w s) (fd : Int) :
    Yields (fun _ s' => s₀.Leaves [] w s') (sysClose fd) s :=
  ⟨_, _, rfl, hLeaves.close fd⟩

theorem yields_fileWriteString
    {pathname : SysFile} {buf : String}
    (hLeaves : s₀.Leaves [] w s)
    (hGpio : pathname.isGpio = true) :
    Yields (fun ret s' => ret ≤ 0 ∧ s₀.Leaves [] w s')
      (fileWriteString sys pathname buf) s := by
  refine yields_bind (yields_openGpio hLeaves hGpio) ?_
  rintro (e | fd) s₁ h₁
  case error =>
    exact yields_pure ⟨(Errno.ret_neg e).le, h₁⟩
  case ok =>
    have hWritten : Yields (fun _ s' => s₀.Leaves [] w s')
        (sysWriteText sys fd buf) s₁ :=
      ⟨_, _, rfl, h₁.still rfl rfl⟩
    refine yields_bind hWritten fun written s₂ h₂ => ?_
    cases written with
    | some e =>
        refine yields_bind (yields_close h₂ fd) ?_
        intro _ s₃ h₃
        exact yields_pure ⟨(Errno.ret_neg e).le, h₃⟩
    | none =>
        refine yields_bind (yields_close h₂ fd) ?_
        intro _ s₃ h₃
        exact yields_pure ⟨le_rfl, h₃⟩

theorem yields_exportGpio
    (hLeaves : s₀.Leaves [] w s) (gpio : Nat) :
    Yields (fun ret s' => ret ≤ 0 ∧ s₀.Leaves [] w s')
      (exportGpio sys gpio) s := by
  have hFound : Yields (fun _ s' => s₀.Leaves [] w s')
      (sysAccess sys (.gpioValue gpio)) s :=
    ⟨_, _, rfl, hLeaves.still rfl rfl⟩
  refine yields_bind hFound fun found s₁ h₁ => ?_
  refine yields_ite (fun _ => yields_pure ⟨le_rfl, h₁⟩) ?_
  intro _
  refine yields_bind (yields_fileWriteString h₁ rfl) ?_
  rintro ret s₂ ⟨hRet, h₂⟩
  exact yields_ite (fun _ => yields_pure ⟨hRet, h₂⟩)
    fun _ => yields_fileWriteString h₂ rfl

end Quiet

/- What became of the line that was asked for. -/
def GpioOutcome
    (env : Env) (s₀ : Process) (w : World)
    (line : GpioLine) (value : Bool)
    (result : Except Int GpioDesc) (s' : Process) : Prop :=
  match result with
  | .error ret => ret < 0 ∧ s₀.Leaves [] w s'
  | .ok _ => s₀.Leaves [] (w.afterGpio env line value) s'

theorem yields_devmGpiodGetOptional
    {conId : String} {gpio : Nat} {line : GpioLine}
    (hLine : gpioOf conId = some (gpio, line))
    (flags : GpiodFlags) {s₀ : Process} {w : World}
    (hLeaves : s₀.Leaves [] w s) :
    Yields (GpioOutcome env s₀ w line flags.value)
      (devmGpiodGetOptional sys env conId flags) s := by
  unfold devmGpiodGetOptional
  rw [hLine]
  refine yields_bind (yields_sysAlloc hLeaves) ?_
  intro granted s₁ h₁
  refine yields_ite
    (fun _ => yields_pure ⟨by decide, h₁⟩) fun _ => ?_
  refine yields_bind (yields_exportGpio h₁ gpio) ?_
  rintro ret s₂ ⟨hRet, h₂⟩
  refine yields_ite ?_ fun _ => ?_
  · intro hFailed
    exact yields_pure ⟨lt_of_le_of_ne hRet hFailed, h₂⟩
  refine yields_bind (yields_openGpio h₂ rfl) ?_
  rintro (e | fd) s₃ h₃
  case error => exact yields_pure ⟨Errno.ret_neg e, h₃⟩
  case ok =>
    have hSet : Yields
        (fun _ s' => s₀.Leaves []
          (w.afterGpio env line flags.value) s')
        (onWorld
          (gpiodSetValueCansleep env line flags.value)) s₃ := by
      refine ⟨(), { s₃ with world := _ }, rfl, h₃.files,
        h₃.quiet, ?_⟩
      rw [h₃.world]
      rfl
    refine yields_bind hSet fun _ s₄ hOutcome => ?_
    exact yields_pure hOutcome

end Utinydrm
