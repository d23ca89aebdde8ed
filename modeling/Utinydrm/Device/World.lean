import Utinydrm.Lib.Effect
import Mathlib.Algebra.GroupWithZero.Nat
import Mathlib.Data.List.Infix

/-
  The state the driver process works on, and the system
  calls through which it acts.

  A call into libc or the kernel asks the environment `Env`
  for its outcome and is added to the log of the world. The
  environment answers the call that is made as the `n`th one
  with its `n`th outcome, so that a statement about every
  environment covers every pattern of failures.

  The target is the 32-bit Raspberry Pi, little-endian, with
  `size_t`, `unsigned` and pointers of one width; sizes and
  addresses are `Nat`.

  Key definitions include:
    * `Ptr`, `UtinydrmFb`, `UdmaBuf`, `TxBuf`
    * `SpiTransfer`, `SpiMessage`, `SpiIocTransfer`
    * `Call`, `Env`, `World`, `Driver`
    * `World.wire`
-/

------------------------------------------------------------
-- Errors
------------------------------------------------------------

namespace Utinydrm

/- Error numbers; functions return them negated. -/
abbrev ENOMEM : Int := 12
abbrev EACCES : Int := 13
abbrev EINVAL : Int := 22
abbrev ENOTSUPP : Int := 524

/- `SIZE_MAX` of the 32-bit target. -/
def sizeMax : Nat := 2 ^ 32 - 1

/-
  The `errno` of a failed system call: positive, and at most
  `MAX_ERRNO`, so that `ERR_PTR(-errno)` is an error pointer.
-/
structure Errno where
  code : Nat
  pos : 0 < code
  le_max : code ≤ 4095
deriving DecidableEq

/- The result a function returns for a failed call. -/
def Errno.ret (e : Errno) : Int := -(e.code : Int)

theorem Errno.ret_ne_zero (e : Errno) : e.ret ≠ 0 := by
  have hPos := e.pos
  simp only [Errno.ret]
  omega

/- How a run of the driver can go wrong. -/
inductive Fault where
/- An error pointer is dereferenced. -/
| errPtrDeref
/- A loop makes no progress. -/
| hang
deriving DecidableEq, Repr

end Utinydrm

------------------------------------------------------------
-- Memory
------------------------------------------------------------

namespace Utinydrm

/-
  A pointer to bytes the driver sends. Objects of `malloc`
  and of the stack never lie inside a mapping and nobody
  else holds them, so such a pointer is the bytes behind it;
  what lies past the end of the object is arbitrary. Memory
  that `mmap` placed is known by its address, since the
  bytes behind it change and drivers compare the address.
-/
inductive Ptr where
| heap : (Nat → UInt8) → Ptr
| mapped : Nat → Ptr

namespace Ptr

/- Pointer arithmetic on bytes. -/
def add : Ptr → Nat → Ptr
| .heap bytes, n => .heap fun i => bytes (n + i)
| .mapped addr, n => .mapped (addr + n)

/- A pointer to an object holding the given bytes. -/
def ofBytes
    (bytes : List UInt8)
    (rest : Nat → UInt8) : Ptr :=
  .heap fun i => bytes.getD i (rest i)

/- `base <= p && p < base + size`. -/
def within : Ptr → Nat → Nat → Bool
| .heap _, _, _ => false
| .mapped addr, base, size =>
    decide (base ≤ addr) && decide (addr < base + size)

/- `p - base`, for a pointer into the mapping at `base`. -/
def diff : Ptr → Nat → Nat
| .heap _, _ => 0
| .mapped addr, base => addr - base

end Ptr

/- `struct drm_clip_rect`. -/
structure DrmClipRect where
  x1 : UInt16
  y1 : UInt16
  x2 : UInt16
  y2 : UInt16
deriving DecidableEq, Repr

/- The `DRM_FORMAT_*` codes of `drm_mode_legacy_fb_format`. -/
inductive PixelFormat where
| c8
| xrgb1555
| rgb565
| rgb888
| xrgb8888
| xrgb2101010
| argb8888
deriving DecidableEq, Repr

/- `struct drm_mode_fb_cmd`, as `DRM_IOCTL_MODE_GETFB` fills it. -/
structure DrmModeFbCmd where
  fbId : UInt32
  width : UInt32
  height : UInt32
  pitch : UInt32
  bpp : UInt32
  depth : UInt32
  handle : UInt32
deriving DecidableEq, Repr

/-
  `struct utinydrm_fb` with the fields of the
  `drm_framebuffer` inside it. `addr` is the address of the
  structure. The map size is a product of two `u32` values.
-/
structure UtinydrmFb where
  addr : Nat
  id : UInt32
  handle : UInt32
  bufFd : Int
  map : Nat
  mapSize : UInt32
  width : UInt32
  height : UInt32
  pitch : UInt32
  pixelFormat : PixelFormat
deriving DecidableEq, Repr

/- A framebuffer of the size of the display. -/
def UtinydrmFb.display : UtinydrmFb where
  addr := 64
  id := 1
  handle := 1
  bufFd := 4
  map := 2 ^ 20
  mapSize := 153600
  width := 320
  height := 240
  pitch := 640
  pixelFormat := .rgb565

/- The pointer lies inside the mapping of the framebuffer. -/
def UtinydrmFb.contains
    (ufb : UtinydrmFb)
    (p : Ptr) : Bool :=
  p.within ufb.map ufb.mapSize.toNat

/- `struct udmabuf`. -/
structure UdmaBuf where
  fd : Int
  map : Nat
  mapSize : Nat
deriving DecidableEq, Repr

def UdmaBuf.contains
    (buf : UdmaBuf)
    (p : Ptr) : Bool :=
  p.within buf.map buf.mapSize

/-
  The values of the global `struct udmabuf *tx_buf`: `NULL`,
  an error pointer, or a buffer.
-/
inductive TxBuf where
| null
| err (error : Int)
| valid (buf : UdmaBuf)
deriving DecidableEq, Repr

end Utinydrm

------------------------------------------------------------
-- SPI Data
------------------------------------------------------------

namespace Utinydrm

/- `struct spi_master`. -/
structure SpiMaster where
  bitsPerWordMask : Nat
  maxDmaLen : Nat
deriving DecidableEq, Repr

/- `struct spi_device`. -/
structure SpiDevice where
  master : SpiMaster
  maxSpeedHz : Nat
deriving DecidableEq, Repr

/-
  `struct spi_transfer`. A receive buffer is known by its
  address.
-/
structure SpiTransfer where
  txBuf : Option Ptr := none
  rxBuf : Option Nat := none
  len : Nat := 0
  bitsPerWord : Nat := 0
  speedHz : Nat := 0

/- `struct spi_message`: a list of transfers, never empty. -/
structure SpiMessage where
  first : SpiTransfer
  rest : List SpiTransfer := []

/-
  `struct spi_ioc_transfer` with the two fields for sending
  from a dma-buf. A zero `tx_buf` is `none`.
-/
structure SpiIocTransfer where
  txBuf : Option Ptr := none
  rxBuf : Option Nat := none
  len : Nat := 0
  speedHz : Nat := 0
  bitsPerWord : Nat := 0
  txDmaFd : Int := 0
  dmaOffset : Nat := 0

/-
  One `SPI_IOC_MESSAGE` call: the level of the D/C line, the
  transfers, the bytes of each transfer at the time of the
  call, and how it ended.
-/
structure SpiRecord where
  dc : Bool
  xfers : List SpiIocTransfer
  mosi : List (List UInt8)
  result : Option Errno

/- `struct mipi_dbi_spi`, less the lazily set `tx_buf`. -/
structure MipiDbiSpi where
  spi : SpiDevice
  ramReg : Nat
  dc : Bool
  writeOnly : Bool
  chunkSize : Nat
deriving DecidableEq, Repr

/-
  `struct mipi_dbi`: the bus behind its register map, the
  rotation, the minimum size in `drm->mode_config`, and which
  of the optional devices are present.
-/
structure MipiDbi where
  mspi : MipiDbiSpi
  rotation : Nat
  minWidth : UInt32
  minHeight : UInt32
  reset : Bool
  backlight : Bool
  regulator : Bool
deriving DecidableEq, Repr

/- The output lines the driver sets. -/
inductive GpioLine where
| dc
| reset
| led
deriving DecidableEq, Repr

end Utinydrm

------------------------------------------------------------
-- The World
------------------------------------------------------------

namespace Utinydrm

/-
  The calls that leave the process, with their outcome.
  `createDmabuf` is the message `utinydrm_create_dmabuf`
  prints before it asks for anything.
-/
inductive Call where
| kmalloc (granted : Bool)
| gpio (line : GpioLine) (value : Bool) (written : Bool)
| spidev (record : SpiRecord)
| createDumb (result : Except Errno Nat)
| primeHandleToFd (result : Except Errno Int)
| mmap (size : Nat) (result : Except Errno Nat)
| munmap (map size : Nat) (result : Option Errno)
| getFb (id : UInt32) (result : Except Errno DrmModeFbCmd)
| regulatorEnable (ret : Int)
| regulatorDisable
| createDmabuf

/- The outcome of the `n`th call, if it is a call of that kind. -/
structure Env where
  kmalloc : Nat → Bool
  /- the bytes of fresh or overrun memory -/
  garbage : Nat → Nat → UInt8
  gpio : GpioLine → Nat → Bool
  spidev : Nat → Option Errno
  /- the bytes clocked in, for each transfer of the message -/
  miso : Nat → Nat → Nat → UInt8
  createDumb : Nat → Except Errno Nat
  primeHandleToFd : Nat → Except Errno Int
  mmap : Nat → Except Errno Nat
  munmap : Nat → Option Errno
  getFb : Nat → Except Errno DrmModeFbCmd
  regulatorEnable : Nat → Int
  /- the dma-bufs that are not mapped by the process -/
  dmaByte : Int → Nat → UInt8

/-
  An environment that grants everything: buffers of the size
  of the display, a different descriptor and mapping for
  every call, and zeros on the bus.
-/
def Env.granting : Env where
  kmalloc := fun _ => true
  garbage := fun _ _ => 0
  gpio := fun _ _ => true
  spidev := fun _ => none
  miso := fun _ _ _ => 0
  createDumb := fun _ => .ok (320 * 240 * 2)
  primeHandleToFd := fun n => .ok (n + 3)
  mmap := fun n => .ok ((n + 1) * 2 ^ 20)
  munmap := fun _ => none
  getFb := fun _ => .ok
    { fbId := 1
      width := 320
      height := 240
      pitch := 640
      bpp := 16
      depth := 16
      handle := 1 }
  regulatorEnable := fun _ => 0
  dmaByte := fun _ _ => 0

/- The same, with a panel that reports its display on. -/
def Env.displayOn : Env :=
  { Env.granting with miso := fun _ _ _ => 0x1C }

/- `EIO`. -/
def Errno.io : Errno := ⟨5, by decide, by decide⟩

/- One in which some of the messages fail. -/
def Env.failing (fails : Nat → Bool) : Env :=
  { Env.granting with
    spidev := fun n => if fails n then some .io else none }

/-
  The state of the process and of the lines it drives: the
  calls so far, mapped memory, receive buffers, the work
  buffer of the register map, `udev->fbs` and `udev->buf_fd`,
  `plane.state->fb`, the global `tx_buf`, `mspi->tx_buf`, the
  two flags of the tinydrm device, and the line levels.
-/
structure World where
  log : List Call
  mem : Nat → UInt8
  rx : Nat → Nat → UInt8
  workBuf : Nat → UInt8
  fbs : List UtinydrmFb
  bufFd : Int
  planeFb : Option UtinydrmFb
  txBuf : TxBuf
  mspiTxBuf : Option Nat
  prepared : Bool
  enabled : Bool
  level : GpioLine → Bool

/-
  The state of a process that just started, with a
  descriptor of the kernel's or none.
-/
def World.atProbe (bufFd : Int) : World where
  log := []
  mem := fun _ => 0
  rx := fun _ _ => 0
  workBuf := fun _ => 0
  fbs := []
  bufFd := bufFd
  planeFb := none
  txBuf := .null
  mspiTxBuf := none
  prepared := false
  enabled := false
  level := fun _ => false

/- The driver's functions. -/
abbrev Driver := EStateM Fault World

namespace World

/- The number of calls so far. -/
def now (w : World) : Nat := w.log.length

def record (w : World) (call : Call) : World :=
  { w with log := w.log ++ [call] }

/- The byte `i` bytes behind a pointer. -/
def byte (w : World) : Ptr → Nat → UInt8
| .heap bytes, i => bytes i
| .mapped addr, i => w.mem (addr + i)

/- The first `len` bytes behind a pointer. -/
def bytes (w : World) (p : Ptr) (len : Nat) : List UInt8 :=
  (List.range len).map (w.byte p)

/-
  A byte of a dma-buf. The transmit buffer and the registered
  framebuffers are mapped, so their bytes are in memory.
-/
def dmaByte
    (env : Env) (w : World)
    (fd : Int) (offset : Nat) : UInt8 :=
  match w.txBuf, w.fbs.find? (·.bufFd = fd) with
  | .valid buf, some ufb =>
      if buf.fd = fd then w.mem (buf.map + offset)
      else w.mem (ufb.map + offset)
  | .valid buf, none =>
      if buf.fd = fd then w.mem (buf.map + offset)
      else env.dmaByte fd offset
  | _, some ufb => w.mem (ufb.map + offset)
  | _, none => env.dmaByte fd offset

/-
  The bytes a transfer clocks out: those of its buffer, or of
  a range of a dma-buf, or none when it only receives.
-/
def mosi
    (env : Env) (w : World)
    (utr : SpiIocTransfer) : List UInt8 :=
  match utr.txBuf with
  | some p => w.bytes p utr.len
  | none =>
      if utr.txDmaFd = 0 then
        []
      else
        (List.range utr.len).map fun i =>
          w.dmaByte env utr.txDmaFd (utr.dmaOffset + i)

/- The bytes of an executed message, with the D/C level. -/
def wireOf : Call → List (Bool × UInt8)
| .spidev r =>
    match r.result with
    | none => r.mosi.flatten.map fun b => (r.dc, b)
    | some _ => []
| _ => []

/- All bytes clocked out so far, with the D/C level. -/
def wire (w : World) : List (Bool × UInt8) :=
  w.log.flatMap wireOf

/- The transfers of the executed messages so far. -/
def xfersOf : Call → List SpiIocTransfer
| .spidev r =>
    match r.result with
    | none => r.xfers
    | some _ => []
| _ => []

def submitted (w : World) : List SpiIocTransfer :=
  w.log.flatMap xfersOf

/- The calls made since an earlier state. -/
def since (w old : World) : List Call :=
  w.log.drop old.log.length

end World

end Utinydrm

------------------------------------------------------------
-- Calls
------------------------------------------------------------

namespace Utinydrm

variable (env : Env)

/- `kmalloc`, `kzalloc`, `calloc`: whether memory was found. -/
def kmalloc : Driver Bool := fun w =>
  .ok (env.kmalloc w.now)
    (w.record (.kmalloc (env.kmalloc w.now)))

/-
  `gpiod_set_value_cansleep`: a failed write is only reported
  and leaves the line as it was.
-/
def gpiodSetValueCansleep
    (line : GpioLine) (value : Bool) : Driver Unit := fun w =>
  .ok ()
    { w.record (.gpio line value (env.gpio line w.now)) with
      level :=
        if env.gpio line w.now then
          Function.update w.level line value
        else
          w.level }

/- What a message stores in the receive buffers. -/
def receive
    (t : Nat) (xfers : List SpiIocTransfer)
    (rx : Nat → Nat → UInt8) : Nat → Nat → UInt8 :=
  xfers.zipIdx.foldl
    (fun rx (utr, k) =>
      match utr.rxBuf with
      | none => rx
      | some buf => Function.update rx buf fun i =>
          if i < utr.len then env.miso t k i else rx buf i)
    rx

/- The message as it is handed to the kernel now. -/
def World.spiRecord
    (w : World) (xfers : List SpiIocTransfer) : SpiRecord where
  dc := w.level .dc
  xfers := xfers
  mosi := xfers.map (w.mosi env)
  result := env.spidev w.now

/-
  Open the device, do one `SPI_IOC_MESSAGE` and close it. A
  message that fails clocks nothing out.
-/
def spidev (xfers : List SpiIocTransfer) : Driver Int := fun w =>
  .ok ((env.spidev w.now).elim 0 Errno.ret)
    { w.record (.spidev (w.spiRecord env xfers)) with
      rx :=
        if (env.spidev w.now).isNone then
          receive env w.now xfers w.rx
        else
          w.rx }

end Utinydrm

------------------------------------------------------------
-- Making A Call
------------------------------------------------------------

namespace Utinydrm

variable {env : Env}

namespace World

@[simp] theorem now_record
    (w : World) (call : Call) :
    (w.record call).now = w.now + 1 := by
  simp [now, record]

/- The state after some calls of a kind and nothing else. -/
def AfterCalls
    (kind : Call → Bool) (w w' : World) : Prop :=
  ∃ calls, w' = { w with log := w.log ++ calls } ∧
    ∀ c ∈ calls, kind c = true

namespace AfterCalls

theorem refl (kind : Call → Bool) (w : World) :
    w.AfterCalls kind w :=
  ⟨[], by simp, by simp⟩

theorem record
    {kind : Call → Bool} {w w' : World} {call : Call}
    (hAfter : w.AfterCalls kind w')
    (hKind : kind call = true) :
    w.AfterCalls kind (w'.record call) := by
  rcases hAfter with ⟨calls, rfl, hCalls⟩
  refine ⟨calls ++ [call], by simp [World.record], ?_⟩
  intro c hc
  rcases List.mem_append.mp hc with hOld | hNew
  · exact hCalls c hOld
  · rw [List.mem_singleton.mp hNew]
    exact hKind

end AfterCalls

end World

theorem kmalloc_bind
    {α : Type}
    (next : Bool → Driver α) (w : World) :
    (kmalloc env >>= next) w =
      next (env.kmalloc w.now)
        (w.record (.kmalloc (env.kmalloc w.now))) := rfl

/- The state after setting a line. -/
def World.afterGpio
    (env : Env) (w : World)
    (line : GpioLine) (value : Bool) : World :=
  { w.record (.gpio line value (env.gpio line w.now)) with
    level :=
      if env.gpio line w.now then
        Function.update w.level line value
      else
        w.level }

theorem gpiodSetValueCansleep_bind
    {α : Type}
    (line : GpioLine) (value : Bool)
    (next : Unit → Driver α) (w : World) :
    (gpiodSetValueCansleep env line value >>= next) w =
      next () (w.afterGpio env line value) := rfl

/- A line that can be written has the level it was given. -/
theorem World.afterGpio_level_self
    {w : World} {line : GpioLine} {value : Bool}
    (hWritten : env.gpio line w.now = true) :
    (w.afterGpio env line value).level line = value := by
  simp [World.afterGpio, hWritten]

theorem World.afterGpio_level_ne
    {w : World} {line other : GpioLine} {value : Bool}
    (hOther : other ≠ line) :
    (w.afterGpio env line value).level other =
      w.level other := by
  simp only [World.afterGpio]
  split
  · rw [Function.update_of_ne hOther]
  · rfl

/- The state after a call of spidev. -/
def World.afterSpidev
    (env : Env) (w : World)
    (xfers : List SpiIocTransfer) : World :=
  { w.record (.spidev (w.spiRecord env xfers)) with
    rx :=
      if (env.spidev w.now).isNone then
        receive env w.now xfers w.rx
      else
        w.rx }

theorem spidev_eq
    (xfers : List SpiIocTransfer) (w : World) :
    spidev env xfers w =
      .ok ((env.spidev w.now).elim 0 Errno.ret)
        (w.afterSpidev env xfers) := rfl

end Utinydrm
