import Utinydrm.MipiDbi.PixelOrder
import Utinydrm.MipiDbi.CommandProtocol
import Utinydrm.Tinydrm.Flush

/-
  What a register write over option 3 leaves alone once the
  transmit buffer exists.

  The only memory it stores into is the transmit buffer, and
  it does not ask for another one, however it ends.

  Key definitions include:
    * `Stays`
    * `stays`, as a contract

  Main declarations:
    * `meets_stays_regmapRawWrite`
    * `meets_stays_mipiDbiWriteBuf`
-/

------------------------------------------------------------
-- The Frame
------------------------------------------------------------

namespace Utinydrm

/- The transmit buffer stays, and all memory outside it. -/
structure Stays (buf : UdmaBuf) (w w' : World) : Prop where
  mspiTxBuf : w'.mspiTxBuf = some buf.map
  txBuf : w'.txBuf = w.txBuf
  memory : SameOutside buf.map buf.mapSize w w'

/- This is what happens when the buffer is the one asked for. -/
def StaysIfAsked (buf : UdmaBuf) (w w' : World) : Prop :=
  w.mspiTxBuf = some buf.map → Stays buf w w'

theorem Stays.trans
    {buf : UdmaBuf} {w₁ w₂ w₃ : World}
    (h₁ : Stays buf w₁ w₂) (h₂ : Stays buf w₂ w₃) :
    Stays buf w₁ w₃ :=
  ⟨h₂.mspiTxBuf, h₂.txBuf.trans h₁.txBuf,
    fun a ha => (h₂.memory a ha).trans (h₁.memory a ha)⟩

theorem staysIfAsked_of_same
    {buf : UdmaBuf} {w w' : World}
    (hAsked : w'.mspiTxBuf = w.mspiTxBuf)
    (hGlobal : w'.txBuf = w.txBuf)
    (hMem : w'.mem = w.mem) :
    StaysIfAsked buf w w' :=
  fun h => ⟨hAsked.trans h, hGlobal, fun a _ => by rw [hMem]⟩

/- The frame as a contract: nothing is said of a fault. -/
def stays (buf : UdmaBuf) : Effect.Contract Fault World where
  step := StaysIfAsked buf
  fault := fun _ _ => True
  refl := fun _ => staysIfAsked_of_same rfl rfl rfl
  trans := fun h₁ h₂ hAsked =>
    (h₁ hAsked).trans (h₂ (h₁ hAsked).mspiTxBuf)

end Utinydrm

------------------------------------------------------------
-- One Transfer
------------------------------------------------------------

namespace Utinydrm

variable {env : Env} {buf : UdmaBuf}

theorem meets_stays_kmalloc (w : World) :
    Effect.Meets (stays buf) (kmalloc env) w :=
  staysIfAsked_of_same rfl rfl rfl

theorem meets_stays_gpio
    (line : GpioLine) (value : Bool) (w : World) :
    Effect.Meets (stays buf)
      (gpiodSetValueCansleep env line value) w :=
  staysIfAsked_of_same rfl rfl rfl

theorem meets_stays_spiSync
    (spi : SpiDevice) (m : SpiMessage) (w : World) :
    Effect.Meets (stays buf) (spiSync env spi m) w := by
  have hSpidev : ∀ xfers s,
      Effect.Meets (stays buf) (spidev env xfers) s :=
    fun _ _ => staysIfAsked_of_same rfl rfl rfl
  exact meets_spiSync_of_spidev hSpidev (fun _ _ _ => trivial)
    spi m w

/- The exchanged words of a chunk fit into the buffer. -/
theorem meets_stays_chunkSource
    (swap : Bool) (src : Ptr) {chunk : Nat}
    (hRoom : chunk ≤ buf.mapSize) (w : World) :
    Effect.Meets (stays buf)
      (chunkSource swap (some buf.map) src chunk) w := by
  cases swap with
  | false => exact Effect.meets_pure _ w
  | true =>
      refine Effect.meets_bind (Effect.meets_modify ?_)
        fun _ s _ => Effect.meets_pure _ s
      have hOutside := w.swapWords_outside src buf.map
        (chunk / 2)
      rcases w.swapWords_eq src buf.map (chunk / 2) with
        ⟨mem, hMem⟩
      rw [hMem] at hOutside ⊢
      intro hAsked
      exact ⟨hAsked, rfl, fun a ha => hOutside a (by omega)⟩

theorem meets_stays_tinydrmSpiTransfer
    (spi : SpiDevice) (speedHz : Nat)
    (header : Option SpiTransfer) (bpw : Nat)
    (p : Ptr) (len : Nat) {maxChunk : Nat}
    (hLarge : maxChunk ≤ buf.mapSize) (w : World) :
    Effect.Meets (stays buf)
      (tinydrmSpiTransfer env spi speedHz header bpw p len
        (some buf.map) maxChunk) w := by
  refine Effect.meets_ite
    (fun _ => Effect.meets_pure _ w) (fun _ => ?_)
  refine Effect.meets_ite
    (fun _ => Effect.meets_pure _ w) (fun _ => ?_)
  refine Chunking.meets_chunkLoop_le
    (fun _ _ _ => trivial) (fun _ chunk s hChunk => ?_) w
  exact Effect.meets_bind
    (meets_stays_chunkSource _ _ (hChunk.trans hLarge) s)
    fun _ s' _ => meets_stays_spiSync _ _ s'

end Utinydrm

------------------------------------------------------------
-- One Write
------------------------------------------------------------

namespace Utinydrm

variable {env : Env} {buf : UdmaBuf} {mspi : MipiDbiSpi}

section Writes

variable (hLarge : mspi.chunkSize ≤ buf.mapSize)

include hLarge

theorem meets_stays_mipiDbiSpi3Send
    (width : Nat) (reg : Ptr) (val : Option Ptr)
    (valLen : Nat) (w : World) :
    Effect.Meets (stays buf)
      (mipiDbiSpi3Send env mspi buf.map width reg val valLen)
      w := by
  have hTransfer : ∀ bpw p len s, Effect.Meets (stays buf)
      (tinydrmSpiTransfer env mspi.spi 0 none bpw p len
        (some buf.map) mspi.chunkSize) s := fun _ _ _ s =>
    meets_stays_tinydrmSpiTransfer _ _ _ _ _ _ hLarge s
  refine Effect.meets_bind (meets_stays_gpio _ _ w)
    fun _ s _ => ?_
  refine Effect.meets_bind (hTransfer _ _ _ s)
    fun ret s _ => ?_
  refine Effect.meets_ite (fun _ => Effect.meets_pure _ s)
    fun _ => ?_
  cases val with
  | none => exact Effect.meets_pure _ s
  | some p =>
      refine Effect.meets_ite (fun _ => ?_)
        fun _ => Effect.meets_pure _ s
      exact Effect.meets_bind (meets_stays_gpio _ _ s)
        fun _ s _ => hTransfer _ _ _ s

/- The buffer that was asked for is used again. -/
theorem meets_stays_mipiDbiSpi3GatherWrite
    (reg : Ptr) (regLen : Nat)
    (val : Option Ptr) (valLen : Nat) (w : World) :
    Effect.Meets (stays buf)
      (mipiDbiSpi3GatherWrite env mspi reg regLen val valLen)
      w := by
  by_cases hAsked : w.mspiTxBuf = some buf.map
  case neg =>
    -- nothing is said of other buffers
    unfold Effect.Meets
    cases mipiDbiSpi3GatherWrite env mspi reg regLen val
        valLen w with
    | ok ret s => exact fun h => absurd h hAsked
    | error e s => exact ⟨fun h => absurd h hAsked, trivial⟩
  case pos =>
    have hTxBuf : mipiDbiSpi3TxBuf env mspi w =
        .ok (some buf.map) w := by
      rw [mipiDbiSpi3TxBuf,
        Effect.bind_of_ok (Effect.get_apply w), hAsked]
      rfl
    by_cases hLen : regLen = 1
    case neg =>
      unfold Effect.Meets
      rw [mipiDbiSpi3GatherWrite_refused _ _ _ hLen]
      exact (stays buf).refl w
    case pos =>
      subst hLen
      have hSend : Effect.Meets (stays buf)
          (mipiDbiSpi3Send env mspi buf.map
            (valWidth mspi (w.byte reg 0)) reg val valLen) w :=
        meets_stays_mipiDbiSpi3Send hLarge _ _ _ _ w
      unfold Effect.Meets at hSend ⊢
      rw [mipiDbiSpi3GatherWrite_buf _ _ _ hTxBuf]
      exact hSend

variable (hDc : mspi.dc = true)

include hDc

theorem meets_stays_busGatherWrite
    (reg : Ptr) (regLen : Nat)
    (val : Option Ptr) (valLen : Nat) (w : World) :
    Effect.Meets (stays buf)
      (busGatherWrite env mspi reg regLen val valLen) w := by
  rw [busGatherWrite, if_pos hDc]
  exact meets_stays_mipiDbiSpi3GatherWrite hLarge _ _ _ _ w

theorem meets_stays_regmapLinearise
    (val : Ptr) (valLen : Nat) (w : World) :
    Effect.Meets (stays buf)
      (regmapLinearise env mspi val valLen) w := by
  refine Effect.meets_get_bind (Effect.meets_bind
    (meets_stays_kmalloc w) fun granted s _ => ?_)
  refine Effect.meets_ite (fun _ => ?_)
    (fun _ => Effect.meets_pure _ s)
  rw [busWrite_eq]
  exact meets_stays_busGatherWrite hLarge hDc _ _ _ _ s

theorem meets_stays_regmapRawWrite
    (reg : Nat) (val : Ptr) (valLen : Nat) (w : World) :
    Effect.Meets (stays buf)
      (regmapRawWrite env mspi reg val valLen) w := by
  have hFormat : ∀ offset byte s, Effect.Meets (stays buf)
      (regmapFormat8 offset byte) s := fun offset byte s =>
    Effect.meets_modify (staysIfAsked_of_same rfl rfl rfl)
  have hGather : ∀ reg regLen val valLen s,
      Effect.Meets (stays buf)
        (busGatherWrite env mspi reg regLen val valLen) s :=
    fun _ _ _ _ s =>
      meets_stays_busGatherWrite hLarge hDc _ _ _ _ s
  refine Effect.meets_ite
    (fun _ => Effect.meets_pure _ w) fun _ => ?_
  refine Effect.meets_bind (hFormat _ _ w) fun _ s _ => ?_
  refine Effect.meets_bind ?_ fun ret s _ => ?_
  · refine Effect.meets_get_bind (Effect.meets_ite
      (fun _ => ?_) fun _ => hGather _ _ _ _ s)
    refine Effect.meets_bind (hFormat _ _ s)
      fun _ s _ => Effect.meets_get_bind ?_
    rw [busWrite_eq]
    exact hGather _ _ _ _ s
  · exact Effect.meets_ite
      (fun _ => meets_stays_regmapLinearise hLarge hDc _ _ s)
      (fun _ => Effect.meets_pure _ s)

theorem meets_stays_mipiDbiWriteBuf
    (cmd : Nat) (parameters : List UInt8) (w : World) :
    Effect.Meets (stays buf)
      (mipiDbiWriteBuf env mspi cmd parameters) w := by
  refine Effect.meets_get_bind (Effect.meets_bind
    (meets_stays_kmalloc w) fun granted s _ => ?_)
  exact Effect.meets_ite
    (fun _ => meets_stays_regmapRawWrite hLarge hDc _ _ _ s)
    (fun _ => Effect.meets_pure _ s)

theorem meets_stays_tinydrmRegmapFlushRgb565
    (regnr : Nat) (fb : UtinydrmFb) (vmem : Ptr)
    (clip : DrmClipRect) (w : World) :
    Effect.Meets (stays buf)
      (tinydrmRegmapFlushRgb565 env mspi regnr fb vmem clip)
      w := by
  have hWrite : ∀ val len s, Effect.Meets (stays buf)
      (regmapRawWrite env mspi regnr val len) s := fun _ _ s =>
    meets_stays_regmapRawWrite hLarge hDc _ _ _ s
  apply Effect.meets_get_bind
  dsimp only
  cases fb.pixelFormat
  case rgb565 => exact hWrite _ _ w
  case xrgb8888 =>
    refine Effect.meets_bind (meets_stays_kmalloc w)
      fun granted s _ => ?_
    exact Effect.meets_ite (fun _ => hWrite _ _ s)
      (fun _ => Effect.meets_pure _ s)
  all_goals exact Effect.meets_pure _ w

end Writes

end Utinydrm
