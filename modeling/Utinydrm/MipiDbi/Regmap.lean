import Utinydrm.MipiDbi.Option1
import Utinydrm.MipiDbi.Option3

/-
  `regmap.h` for a map with registers and values of 8 bits,
  over the bus of either option, and `mipi_dbi_write_buf`.

  Key definitions include:
    * `regmapRawWrite`
    * `regmapRawRead`
    * `mipiDbiWriteBuf`
-/

------------------------------------------------------------
-- The Bus
------------------------------------------------------------

namespace Utinydrm

variable (env : Env)

/- `map->bus->write`. -/
def busWrite
    (mspi : MipiDbiSpi)
    (data : Ptr) (count : Nat) : Driver Int :=
  if mspi.dc then
    mipiDbiSpi3Write env mspi data count
  else
    mipiDbiSpi1Write env mspi data count

/- `map->bus->gather_write`. -/
def busGatherWrite
    (mspi : MipiDbiSpi)
    (reg : Ptr) (regLen : Nat)
    (val : Option Ptr) (valLen : Nat) : Driver Int :=
  if mspi.dc then
    mipiDbiSpi3GatherWrite env mspi reg regLen val valLen
  else
    mipiDbiSpi1GatherWrite env mspi reg regLen val valLen

/- `map->bus->read`. -/
def busRead
    (mspi : MipiDbiSpi)
    (reg : Ptr) (valLen : Nat) : Driver (Int × List UInt8) :=
  if mspi.dc then
    mipiDbiSpi3Read env mspi reg valLen
  else
    mipiDbiSpi1Read

end Utinydrm

------------------------------------------------------------
-- Raw Accesses
------------------------------------------------------------

namespace Utinydrm

variable (env : Env)

/- The fields of `map->format` for 8-bit registers and values. -/
def regBytes : Nat := 1
def padBytes : Nat := 0
def valBytes : Nat := 1

/- `regmap_format_8`, storing at an offset of the work buffer. -/
def regmapFormat8 (offset : Nat) (val : UInt8) : Driver Unit :=
  modify fun w =>
    { w with workBuf := Function.update w.workBuf offset val }

/-
  The write from the work buffer for a single value, else the
  gather write.
-/
def regmapWriteOut
    (mspi : MipiDbiSpi)
    (val : Ptr) (valLen : Nat) : Driver Int := do
  let w ← get
  if valLen = valBytes then do
    regmapFormat8 (regBytes + padBytes) (w.byte val 0)
    let w ← get
    busWrite env mspi (.heap w.workBuf)
      (regBytes + padBytes + valLen)
  else
    busGatherWrite env mspi (.heap w.workBuf)
      (regBytes + padBytes) (some val) valLen

/- The fallback that puts register and values in one buffer. -/
def regmapLinearise
    (mspi : MipiDbiSpi)
    (val : Ptr) (valLen : Nat) : Driver Int := do
  let w ← get
  let granted ← kmalloc env
  if granted then
    busWrite env mspi
      (.ofBytes (w.workBuf 0 :: w.bytes val valLen)
        (env.garbage w.now))
      (regBytes + padBytes + valLen)
  else
    pure (-ENOMEM)

/-
  `_regmap_raw_write`. The write flag mask is zero, and the
  value is never the work buffer itself.
-/
def regmapRawWriteUnlocked
    (mspi : MipiDbiSpi)
    (reg : Nat) (val : Ptr) (valLen : Nat) : Driver Int := do
  regmapFormat8 0 reg.toUInt8
  let ret ← regmapWriteOut env mspi val valLen
  if ret = -ENOTSUPP then
    regmapLinearise env mspi val valLen
  else
    pure ret

/- `regmap_raw_write`. -/
def regmapRawWrite
    (mspi : MipiDbiSpi)
    (reg : Nat) (val : Ptr) (valLen : Nat) : Driver Int :=
  if valLen % valBytes ≠ 0 then
    pure (-EINVAL)
  else
    regmapRawWriteUnlocked env mspi reg val valLen

/- `regmap_raw_read`. The register stride is one. -/
def regmapRawRead
    (mspi : MipiDbiSpi)
    (reg valLen : Nat) : Driver (Int × List UInt8) :=
  if valLen % valBytes ≠ 0 then
    pure (-EINVAL, [])
  else if valLen / valBytes = 0 then
    pure (-EINVAL, [])
  else do
    regmapFormat8 0 reg.toUInt8
    let w ← get
    busRead env mspi (.heap w.workBuf) valLen

/- `mipi_dbi_write_buf`. -/
def mipiDbiWriteBuf
    (mspi : MipiDbiSpi)
    (cmd : Nat) (parameters : List UInt8) : Driver Int := do
  let w ← get
  let granted ← kmalloc env
  if granted then
    regmapRawWrite env mspi cmd
      (.ofBytes parameters (env.garbage w.now))
      parameters.length
  else
    pure (-ENOMEM)

end Utinydrm

------------------------------------------------------------
-- One Bus Write
------------------------------------------------------------

namespace Utinydrm

/- A write of one buffer is a gather write of its parts. -/
theorem busWrite_eq
    (env : Env) (mspi : MipiDbiSpi) (data : Ptr) (count : Nat) :
    busWrite env mspi data count =
      busGatherWrite env mspi data 1 (some (data.add 1))
        (count - 1) := by
  unfold busWrite busGatherWrite mipiDbiSpi3Write
    mipiDbiSpi1Write
  rfl

/-
  The pointer is one to the same bytes: the same pointer, or
  one into memory of the process.
-/
structure Ptr.Copies
    (p val : Ptr) (valLen : Nat) (w : World) : Prop where
  place : p = val ∨ ∃ bytes, p = .heap bytes
  bytes : ∀ i < valLen, w.byte p i = w.byte val i

/- A copy of memory of the process is one as well. -/
theorem Ptr.Copies.exists_heap
    {p : Ptr} {val : Nat → UInt8} {valLen : Nat} {w : World}
    (hCopies : p.Copies (.heap val) valLen w) :
    ∃ bytes, p = .heap bytes := by
  rcases hCopies.place with hSame | hHeap
  · exact ⟨val, hSame⟩
  · exact hHeap

/-
  Either way out is a gather write, from the work buffer and
  of the same bytes.
-/
theorem regmapWriteOut_eq
    (env : Env) (mspi : MipiDbiSpi)
    (val : Ptr) (valLen : Nat) (w : World) :
    ∃ buf p, regmapWriteOut env mspi val valLen w =
        busGatherWrite env mspi (.heap buf) 1 (some p) valLen
          { w with workBuf := buf } ∧
      buf 0 = w.workBuf 0 ∧ p.Copies val valLen w := by
  unfold regmapWriteOut
  rw [Effect.bind_of_ok (Effect.get_apply w)]
  by_cases hOne : valLen = valBytes
  case pos =>
    refine ⟨Function.update w.workBuf 1 (w.byte val 0),
      (Ptr.heap (Function.update w.workBuf 1 (w.byte val 0))).add
        1, ?_, by simp, Or.inr ⟨_, rfl⟩, ?_⟩
    · have hFormat : regmapFormat8 (regBytes + padBytes)
          (w.byte val 0) w =
          .ok () { w with
            workBuf :=
              Function.update w.workBuf 1 (w.byte val 0) } :=
        rfl
      rw [if_pos hOne, Effect.bind_of_ok hFormat,
        Effect.bind_of_ok (Effect.get_apply _), busWrite_eq,
        hOne]
      rfl
    · intro i hi
      have hFirst : i = 0 := by
        rw [hOne, valBytes] at hi
        omega
      rw [hFirst]
      simp [World.byte, Ptr.add]
  case neg =>
    refine ⟨w.workBuf, val, ?_, rfl, Or.inl rfl,
      fun _ _ => rfl⟩
    rw [if_neg hOne]
    rfl

/-
  A raw write is a gather write, tried another way when that
  is not supported.
-/
theorem regmapRawWrite_out
    (env : Env) (mspi : MipiDbiSpi)
    (cmd : Nat) (val : Ptr) (valLen : Nat) (w : World) :
    ∃ buf p, regmapRawWrite env mspi cmd val valLen w =
        (busGatherWrite env mspi (.heap buf) 1 (some p) valLen >>=
          fun ret =>
            if ret = -ENOTSUPP then
              regmapLinearise env mspi val valLen
            else
              pure ret)
          { w with workBuf := buf } ∧
      buf 0 = cmd.toUInt8 ∧ p.Copies val valLen w := by
  let s : World :=
    { w with
      workBuf := Function.update w.workBuf 0 cmd.toUInt8 }
  rcases regmapWriteOut_eq env mspi val valLen s with
    ⟨buf, p, hOut, hCmd, hCopies⟩
  have hFormat : regmapFormat8 0 cmd.toUInt8 w = .ok () s := rfl
  have hCopies' : p.Copies val valLen w :=
    ⟨hCopies.place, hCopies.bytes⟩
  refine ⟨buf, p, ?_, by simpa [s] using hCmd, hCopies'⟩
  rw [regmapRawWrite, if_neg (by simp [valBytes, Nat.mod_one]),
    regmapRawWriteUnlocked, Effect.bind_of_ok hFormat]
  exact Effect.bind_congr hOut _

end Utinydrm

------------------------------------------------------------
-- Contracts
------------------------------------------------------------

namespace Utinydrm

variable {env : Env}
variable {C : Effect.Contract Fault World}

theorem meets_busWrite
    (hBus : BusContract env C)
    (mspi : MipiDbiSpi)
    (data : Ptr) (count : Nat) (w : World) :
    Effect.Meets C (busWrite env mspi data count) w :=
  Effect.meets_ite
    (fun _ => meets_mipiDbiSpi3Write hBus _ _ _ w)
    (fun _ => meets_mipiDbiSpi1Write hBus _ _ _ w)

theorem meets_busGatherWrite
    (hBus : BusContract env C)
    (mspi : MipiDbiSpi)
    (reg : Ptr) (regLen : Nat)
    (val : Option Ptr) (valLen : Nat) (w : World) :
    Effect.Meets C
      (busGatherWrite env mspi reg regLen val valLen) w :=
  Effect.meets_ite
    (fun _ => meets_mipiDbiSpi3GatherWrite hBus _ _ _ _ _ w)
    (fun _ => meets_mipiDbiSpi1GatherWrite
      hBus.toSendContract hBus.meets_kmalloc _ _ _ _ _ w
      (fun _ _ => hBus.hang))

theorem meets_busRead
    (hBus : BusContract env C)
    (mspi : MipiDbiSpi)
    (reg : Ptr) (valLen : Nat) (w : World) :
    Effect.Meets C (busRead env mspi reg valLen) w :=
  Effect.meets_ite
    (fun _ => meets_mipiDbiSpi3Read hBus _ _ _ w)
    (fun _ => Effect.meets_pure _ w)

theorem meets_regmapFormat8
    (hBus : BusContract env C)
    (offset : Nat) (val : UInt8) (w : World) :
    Effect.Meets C (regmapFormat8 offset val) w :=
  Effect.meets_modify (hBus.workBuf w _)

theorem meets_regmapWriteOut
    (hBus : BusContract env C)
    (mspi : MipiDbiSpi)
    (val : Ptr) (valLen : Nat) (w : World) :
    Effect.Meets C (regmapWriteOut env mspi val valLen) w := by
  refine Effect.meets_get_bind (Effect.meets_ite
    (fun _ => ?_)
    fun _ => meets_busGatherWrite hBus _ _ _ _ _ w)
  refine Effect.meets_bind (meets_regmapFormat8 hBus _ _ w)
    fun _ s _ => ?_
  exact Effect.meets_get_bind (meets_busWrite hBus _ _ _ s)

theorem meets_regmapLinearise
    (hBus : BusContract env C)
    (mspi : MipiDbiSpi)
    (val : Ptr) (valLen : Nat) (w : World) :
    Effect.Meets C (regmapLinearise env mspi val valLen) w := by
  refine Effect.meets_get_bind (Effect.meets_bind
    (hBus.meets_kmalloc w) fun granted s _ => ?_)
  exact Effect.meets_ite
    (fun _ => meets_busWrite hBus _ _ _ s)
    (fun _ => Effect.meets_pure _ s)

theorem meets_regmapRawWrite
    (hBus : BusContract env C)
    (mspi : MipiDbiSpi)
    (reg : Nat) (val : Ptr) (valLen : Nat) (w : World) :
    Effect.Meets C
      (regmapRawWrite env mspi reg val valLen) w := by
  refine Effect.meets_ite
    (fun _ => Effect.meets_pure _ w) fun _ => ?_
  refine Effect.meets_bind (meets_regmapFormat8 hBus _ _ w)
    fun _ s _ => ?_
  refine Effect.meets_bind (meets_regmapWriteOut hBus _ _ _ s)
    fun ret s _ => ?_
  exact Effect.meets_ite
    (fun _ => meets_regmapLinearise hBus _ _ _ s)
    (fun _ => Effect.meets_pure _ s)

theorem meets_regmapRawRead
    (hBus : BusContract env C)
    (mspi : MipiDbiSpi)
    (reg valLen : Nat) (w : World) :
    Effect.Meets C (regmapRawRead env mspi reg valLen) w := by
  refine Effect.meets_ite
    (fun _ => Effect.meets_pure _ w) fun _ => ?_
  refine Effect.meets_ite
    (fun _ => Effect.meets_pure _ w) fun _ => ?_
  refine Effect.meets_bind (meets_regmapFormat8 hBus _ _ w)
    fun _ s _ => ?_
  exact Effect.meets_get_bind (meets_busRead hBus _ _ _ s)

theorem meets_mipiDbiWriteBuf
    (hBus : BusContract env C)
    (mspi : MipiDbiSpi)
    (cmd : Nat) (parameters : List UInt8) (w : World) :
    Effect.Meets C
      (mipiDbiWriteBuf env mspi cmd parameters) w := by
  refine Effect.meets_get_bind (Effect.meets_bind
    (hBus.meets_kmalloc w) fun granted s _ => ?_)
  exact Effect.meets_ite
    (fun _ => meets_regmapRawWrite hBus _ _ _ _ s)
    (fun _ => Effect.meets_pure _ s)

end Utinydrm
