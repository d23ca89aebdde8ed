import Utinydrm.Spi.Transfer
import Utinydrm.Lib.BitStream

/-
  MIPI DBI type C option 1: every byte is a word of 9 bits
  whose first bit is the D/C bit.

  A controller with 9-bit words is given one 16-bit memory
  word for each byte. For any other controller eight words
  are packed into nine bytes.

  Key definitions include:
    * `mipiDbiSpiClampSize`
    * `shiftU9IntoU64` and the blocks packed with it
    * `mipiDbiSpi1eTransfer`
    * `mipiDbiSpi1Transfer`
    * `mipiDbiSpi1GatherWrite`
-/

------------------------------------------------------------
-- Packing Nine-Bit Words
------------------------------------------------------------

namespace Utinydrm

/- `mipi_dbi_spi_clamp_size`. -/
def mipiDbiSpiClampSize (spi : SpiDevice) (size : Nat) : Nat :=
  let maxSpi :=
    min (spiMaxTransferSize spi) spi.master.maxDmaLen
  let size := if size = 0 then maxSpi else size
  let clamped := min (max size 4) maxSpi
  -- `clamped &= ~0x3`
  clamped / 4 * 4

/-
  `SHIFT_U9_INTO_U64`. No shift used below reaches past the
  64 bits, so the `u64` is a `Nat`.
-/
def shiftU9IntoU64
    (dst : Nat) (src : UInt8) (pos : Nat) : Nat :=
  (dst ||| 1 <<< (63 - pos * 9)) |||
    src.toNat <<< (63 - 8 - pos * 9)

/-
  `*(u64 *)dst = cpu_to_be64(tmp)` on a little-endian host:
  the bytes are stored most significant first.
-/
def storeBe64 (tmp : Nat) : List UInt8 :=
  BitStream.beBytes 8 tmp

/- The block padded at its start, for a single command byte. -/
def commandBlock (cmd : UInt8) : List UInt8 :=
  List.replicate 8 0 ++ [cmd]

/- The padded block of less than eight bytes, 8-bit data. -/
def tailBlock8
    (src : Nat → UInt8) (chunk : Nat) : List UInt8 :=
  let tmp := (List.range chunk).foldl
    (fun tmp j => shiftU9IntoU64 tmp (src j) j) 0
  storeBe64 tmp ++ [0]

/-
  The padded block of less than eight bytes, 16-bit data:
  `for (j = 0; j < (chunk / 2); j += 2)`, two bytes a step.
-/
def tailBlock16
    (src : Nat → UInt8) (chunk : Nat) : List UInt8 :=
  let tmp := (List.range ((chunk / 2 + 1) / 2)).foldl
    (fun tmp k =>
      let j := 2 * k
      let tmp := shiftU9IntoU64 tmp (src j) (j + 1)
      shiftU9IntoU64 tmp (src (j + 1)) j) 0
  storeBe64 tmp ++ [0]

/- A full block of eight bytes, 8-bit data. -/
def fullBlock8 (src : Nat → UInt8) : List UInt8 :=
  let tmp := shiftU9IntoU64 0 (src 0) 0
  let tmp := shiftU9IntoU64 tmp (src 1) 1
  let tmp := shiftU9IntoU64 tmp (src 2) 2
  let tmp := shiftU9IntoU64 tmp (src 3) 3
  let tmp := shiftU9IntoU64 tmp (src 4) 4
  let tmp := shiftU9IntoU64 tmp (src 5) 5
  let tmp := shiftU9IntoU64 tmp (src 6) 6
  storeBe64 (tmp ||| 1) ++ [src 7]

/- A full block of eight bytes, 16-bit data. -/
def fullBlock16 (src : Nat → UInt8) : List UInt8 :=
  let tmp := shiftU9IntoU64 0 (src 0) 1
  let tmp := shiftU9IntoU64 tmp (src 1) 0
  let tmp := shiftU9IntoU64 tmp (src 2) 3
  let tmp := shiftU9IntoU64 tmp (src 3) 2
  let tmp := shiftU9IntoU64 tmp (src 4) 5
  let tmp := shiftU9IntoU64 tmp (src 5) 4
  let src7 := src 6
  let tmp := shiftU9IntoU64 tmp (src 7) 6
  storeBe64 (tmp ||| 1) ++ [src7]

/- What a chunk writes to the buffer, and `tr.len`. -/
def packChunk
    (bitsPerWord : Nat)
    (src : Nat → UInt8) (chunk : Nat) : List UInt8 × Nat :=
  if chunk < 8 then
    (if bitsPerWord = 8 then tailBlock8 src chunk
      else tailBlock16 src chunk, 8 + 1)
  else
    -- `for (i = 0; i < chunk; i += 8)`
    let added := (chunk + 7) / 8
    ((List.range added).flatMap fun k =>
        if bitsPerWord = 8 then
          fullBlock8 fun i => src (8 * k + i)
        else
          fullBlock16 fun i => src (8 * k + i),
      chunk + added)

/- The source bytes of one message: a multiple of eight. -/
def maxSrcChunk (maxChunk len : Nat) : Nat :=
  max 8 (min (maxChunk / 9 * 8) len / 8 * 8)

end Utinydrm

------------------------------------------------------------
-- The Emulated Transfer
------------------------------------------------------------

namespace Utinydrm

variable (env : Env)

/-
  `mipi_dbi_spi1e_transfer`. Every message but the last one
  takes whole blocks, so the source pointer of a message is
  as far from the start as the bytes counted off `len`.
-/
def mipiDbiSpi1eTransfer
    (spi : SpiDevice) (bitsPerWord : Nat) (dc : Bool)
    (buf : Ptr) (len maxChunk : Nat) : Driver Int := do
  let w ← get
  let maxChunk := mipiDbiSpiClampSize spi maxChunk
  if maxChunk < 9 then
    pure (-EINVAL)
  else if dc = false then
    if len ≠ 1 ∨ bitsPerWord ≠ 8 then
      pure (-EINVAL)
    else do
      let granted ← kmalloc env
      if granted then
        spiSync env spi
          { first :=
              { txBuf := some
                  (.ofBytes (commandBlock (w.byte buf 0))
                    (env.garbage w.now))
                len := 9
                bitsPerWord := 8 } }
      else
        pure (-ENOMEM)
  else do
    let granted ← kmalloc env
    if granted then
      Chunking.chunkLoop .hang (maxSrcChunk maxChunk len)
        (fun offset chunk =>
          let packed :=
            packChunk bitsPerWord (w.byte (buf.add offset)) chunk
          spiSync env spi
            { first :=
                { txBuf := some
                    (.ofBytes packed.1 (env.garbage w.now))
                  len := packed.2
                  bitsPerWord := 8 } })
        len
    else
      pure (-ENOMEM)

end Utinydrm

------------------------------------------------------------
-- The Native Transfer
------------------------------------------------------------

namespace Utinydrm

variable (env : Env)

/- `dst16[i]` of a byte, with the D/C bit above it. -/
def dcWord16 (dc : Bool) (b : UInt8) : UInt16 :=
  if dc then b.toUInt16 ||| 0x0100 else b.toUInt16

/-
  The entries one chunk writes to `dst16`. With 16-bit data
  the loop runs to `chunk * 2` in steps of two and takes one
  16-bit source word a step, so `src16` advances `chunk`
  words while `len` decreases by `chunk` bytes.
-/
def dst16Words
    (w : World) (bitsPerWord : Nat) (dc : Bool)
    (buf : Ptr) (offset chunk : Nat) : List UInt16 :=
  if bitsPerWord = 8 then
    (List.range chunk).map fun i =>
      dcWord16 dc (w.byte buf (offset + i))
  else
    (List.range chunk).flatMap fun i =>
      let src16 := w.loadU16 buf (offset + i)
      [dcWord16 dc (src16 >>> 8).toUInt8,
        dcWord16 dc (src16 &&& 0xFF).toUInt8]

/- The memory of an array of `u16`. -/
def leBytes16 (words : List UInt16) : List UInt8 :=
  words.flatMap fun (x : UInt16) =>
    [x.toUInt8, (x >>> 8).toUInt8]

/- `mipi_dbi_spi1_transfer`. -/
def mipiDbiSpi1Transfer
    (spi : SpiDevice) (bitsPerWord : Nat) (dc : Bool)
    (buf : Ptr) (len maxChunk : Nat) : Driver Int := do
  let w ← get
  if tinydrmSpiBpwSupported spi 9 = false then
    mipiDbiSpi1eTransfer env spi bitsPerWord dc buf len maxChunk
  else if bitsPerWord = 16 ∧ len % 2 ≠ 0 then
    pure (-EINVAL)
  else do
    let maxChunk := mipiDbiSpiClampSize spi maxChunk
    let granted ← kmalloc env
    if granted then
      Chunking.chunkLoop .hang (min (maxChunk / 2) len)
        (fun offset chunk =>
          spiSync env spi
            { first :=
                { txBuf := some
                    (.ofBytes
                      (leBytes16
                        (dst16Words w bitsPerWord dc buf
                          offset chunk))
                      (env.garbage w.now))
                  len := chunk
                  bitsPerWord := 9 } })
        len
    else
      pure (-ENOMEM)

end Utinydrm

------------------------------------------------------------
-- Register Writes
------------------------------------------------------------

namespace Utinydrm

variable (env : Env)

/- `mipi_dbi_spi1_gather_write`. -/
def mipiDbiSpi1GatherWrite
    (mspi : MipiDbiSpi)
    (reg : Ptr) (regLen : Nat)
    (val : Option Ptr) (valLen : Nat) : Driver Int := do
  let w ← get
  if regLen ≠ 1 then
    pure (-EINVAL)
  else do
    let valWidth :=
      if (w.byte reg 0).toNat = mspi.ramReg then 16 else 8
    let ret ←
      mipiDbiSpi1Transfer env mspi.spi 8 false reg regLen 4096
    if ret ≠ 0 then
      pure ret
    else
      match val with
      | some p =>
          if valLen ≠ 0 then
            mipiDbiSpi1Transfer env mspi.spi valWidth true p
              valLen 4096
          else
            pure ret
      | none => pure ret

/- `mipi_dbi_spi1_write`. -/
def mipiDbiSpi1Write
    (mspi : MipiDbiSpi)
    (data : Ptr) (count : Nat) : Driver Int :=
  mipiDbiSpi1GatherWrite env mspi data 1
    (some (data.add 1)) (count - 1)

/- `mipi_dbi_spi1_read`. -/
def mipiDbiSpi1Read : Driver (Int × List UInt8) :=
  pure (-ENOTSUPP, [])

end Utinydrm

------------------------------------------------------------
-- One Gather Write
------------------------------------------------------------

namespace Utinydrm

variable {env : Env} {mspi : MipiDbiSpi} {reg : Ptr}
variable {w s : World}

/- It ends with the command byte, when that fails. -/
theorem mipiDbiSpi1GatherWrite_fault
    {e : Fault}
    (hCommand : mipiDbiSpi1Transfer env mspi.spi 8 false reg 1
      4096 w = .error e s)
    (val : Option Ptr) (valLen : Nat) :
    mipiDbiSpi1GatherWrite env mspi reg 1 val valLen w =
      .error e s := by
  unfold mipiDbiSpi1GatherWrite
  rw [Effect.bind_of_ok (Effect.get_apply w),
    if_neg (by decide)]
  exact Effect.bind_of_error hCommand

theorem mipiDbiSpi1GatherWrite_failed
    {ret : Int}
    (hCommand : mipiDbiSpi1Transfer env mspi.spi 8 false reg 1
      4096 w = .ok ret s)
    (hFailed : ret ≠ 0)
    (val : Option Ptr) (valLen : Nat) :
    mipiDbiSpi1GatherWrite env mspi reg 1 val valLen w =
      .ok ret s := by
  unfold mipiDbiSpi1GatherWrite
  rw [Effect.bind_of_ok (Effect.get_apply w),
    if_neg (by decide), Effect.bind_of_ok hCommand,
    if_pos hFailed]
  rfl

/- Or when there is no data. -/
theorem mipiDbiSpi1GatherWrite_empty
    {ret : Int}
    (hCommand : mipiDbiSpi1Transfer env mspi.spi 8 false reg 1
      4096 w = .ok ret s)
    (val : Option Ptr) :
    mipiDbiSpi1GatherWrite env mspi reg 1 val 0 w =
      .ok ret s := by
  unfold mipiDbiSpi1GatherWrite
  rw [Effect.bind_of_ok (Effect.get_apply w),
    if_neg (by decide), Effect.bind_of_ok hCommand]
  by_cases hFailed : ret = 0
  · cases val <;> simp [hFailed]
  · rw [if_pos hFailed]
    rfl

/- Else the data follows, in words of its own width. -/
theorem mipiDbiSpi1GatherWrite_data
    (hCommand : mipiDbiSpi1Transfer env mspi.spi 8 false reg 1
      4096 w = .ok 0 s)
    (p : Ptr) {valLen : Nat} (hSome : valLen ≠ 0) :
    mipiDbiSpi1GatherWrite env mspi reg 1 (some p) valLen w =
      mipiDbiSpi1Transfer env mspi.spi
        (if (w.byte reg 0).toNat = mspi.ramReg then 16 else 8)
        true p valLen 4096 s := by
  unfold mipiDbiSpi1GatherWrite
  rw [Effect.bind_of_ok (Effect.get_apply w),
    if_neg (by decide), Effect.bind_of_ok hCommand,
    if_neg (by decide)]
  simp only [ne_eq, hSome, not_false_eq_true, if_true]

end Utinydrm

------------------------------------------------------------
-- Contracts
------------------------------------------------------------

namespace Utinydrm

variable {env : Env}
variable {C : Effect.Contract Fault World}

section Transfers

variable (hSend : SendContract env C)
variable (hAlloc : ∀ w, Effect.Meets C (kmalloc env) w)

include hSend hAlloc

/- The packed transfer makes progress: it does not hang. -/
theorem meets_mipiDbiSpi1eTransfer
    (spi : SpiDevice) (bitsPerWord : Nat) (dc : Bool)
    (buf : Ptr) (len maxChunk : Nat) (w : World) :
    Effect.Meets C
      (mipiDbiSpi1eTransfer env spi bitsPerWord dc buf len
        maxChunk) w := by
  have hMax : ∀ limit, maxSrcChunk limit len ≠ 0 := by
    intro limit
    unfold maxSrcChunk
    omega
  refine Effect.meets_get_bind (Effect.meets_ite
    (fun _ => Effect.meets_pure _ w) fun _ => ?_)
  refine Effect.meets_ite (fun _ => ?_) fun _ => ?_
  · refine Effect.meets_ite
      (fun _ => Effect.meets_pure _ w) fun _ => ?_
    refine Effect.meets_bind (hAlloc w)
      fun granted s _ => ?_
    exact Effect.meets_ite
      (fun _ => meets_spiSync hSend _ _ s)
      (fun _ => Effect.meets_pure _ s)
  · refine Effect.meets_bind (hAlloc w)
      fun granted s _ => ?_
    exact Effect.meets_ite
      (fun _ => Chunking.meets_chunkLoop
        (fun hZero => absurd hZero (hMax _))
        (fun _ _ s' => meets_spiSync hSend _ _ s') s)
      (fun _ => Effect.meets_pure _ s)

/- The other one may, when half of the limit is nothing. -/
theorem meets_mipiDbiSpi1Transfer
    (spi : SpiDevice) (bitsPerWord : Nat) (dc : Bool)
    (buf : Ptr) (len maxChunk : Nat) (w : World)
    (hHang : tinydrmSpiBpwSupported spi 9 = true → 0 < len →
      mipiDbiSpiClampSize spi maxChunk / 2 = 0 →
      ∀ s, C.fault .hang s) :
    Effect.Meets C
      (mipiDbiSpi1Transfer env spi bitsPerWord dc buf len
        maxChunk) w := by
  refine Effect.meets_get_bind (Effect.meets_ite
    (fun _ =>
      meets_mipiDbiSpi1eTransfer hSend hAlloc _ _ _ _ _ _ w)
    fun hNine => ?_)
  refine Effect.meets_ite
    (fun _ => Effect.meets_pure _ w) fun _ => ?_
  refine Effect.meets_bind (hAlloc w)
    fun granted s _ => ?_
  exact Effect.meets_ite
    (fun _ => Chunking.meets_chunkLoop
      (fun hZero hLen =>
        hHang (by simpa using hNine) hLen (by omega))
      (fun _ _ s' => meets_spiSync hSend _ _ s') s)
    (fun _ => Effect.meets_pure _ s)

theorem meets_mipiDbiSpi1GatherWrite
    (mspi : MipiDbiSpi)
    (reg : Ptr) (regLen : Nat)
    (val : Option Ptr) (valLen : Nat) (w : World)
    (hHang : tinydrmSpiBpwSupported mspi.spi 9 = true →
      mipiDbiSpiClampSize mspi.spi 4096 / 2 = 0 →
      ∀ s, C.fault .hang s) :
    Effect.Meets C
      (mipiDbiSpi1GatherWrite env mspi reg regLen val valLen)
      w := by
  refine Effect.meets_get_bind (Effect.meets_ite
    (fun _ => Effect.meets_pure _ w) fun _ => ?_)
  refine Effect.meets_bind
    (meets_mipiDbiSpi1Transfer hSend hAlloc _ _ _ _ _ _ w
      fun hNine _ => hHang hNine)
    fun ret s _ => ?_
  refine Effect.meets_ite
    (fun _ => Effect.meets_pure _ s) fun _ => ?_
  cases val with
  | none => exact Effect.meets_pure _ s
  | some p =>
      exact Effect.meets_ite
        (fun _ => meets_mipiDbiSpi1Transfer hSend hAlloc
          _ _ _ _ _ _ s fun hNine _ => hHang hNine)
        (fun _ => Effect.meets_pure _ s)

end Transfers

theorem meets_mipiDbiSpi1Write
    (hBus : BusContract env C)
    (mspi : MipiDbiSpi)
    (data : Ptr) (count : Nat) (w : World) :
    Effect.Meets C (mipiDbiSpi1Write env mspi data count) w :=
  meets_mipiDbiSpi1GatherWrite hBus.toSendContract
    hBus.meets_kmalloc mspi _ _ _ _ w (fun _ _ => hBus.hang)

end Utinydrm
