import Utinydrm.Device.TxBuffer

/-
  What the calls of the process put on the wire.

  Only a message to spidev sends anything. Of the others it
  is enough to know that they are quiet.

  Key definitions include:
    * `World.messages`
    * `World.clocked`
    * `World.Quiet`

  Main declarations:
    * `World.wire_afterSpidev`
    * `World.Quiet.of_log`
-/

------------------------------------------------------------
-- What One Call Clocks Out
------------------------------------------------------------

namespace Utinydrm

variable {env : Env}

@[simp] theorem World.afterSpidev_log
    (w : World) (xfers : List SpiIocTransfer) :
    (w.afterSpidev env xfers).log =
      w.log ++ [.spidev (w.spiRecord env xfers)] := rfl

@[simp] theorem World.afterSpidev_txBuf
    (w : World) (xfers : List SpiIocTransfer) :
    (w.afterSpidev env xfers).txBuf = w.txBuf := rfl

@[simp] theorem World.afterSpidev_fbs
    (w : World) (xfers : List SpiIocTransfer) :
    (w.afterSpidev env xfers).fbs = w.fbs := rfl

@[simp] theorem World.afterSpidev_mem
    (w : World) (xfers : List SpiIocTransfer) :
    (w.afterSpidev env xfers).mem = w.mem := rfl

@[simp] theorem World.afterSpidev_level
    (w : World) (xfers : List SpiIocTransfer) :
    (w.afterSpidev env xfers).level = w.level := rfl

/- What is clocked out is added to the wire. -/
theorem World.wire_afterSpidev
    (w : World) (xfers : List SpiIocTransfer) :
    (w.afterSpidev env xfers).wire =
      w.wire ++
        match env.spidev w.now with
        | none =>
            (xfers.map (w.mosi env)).flatten.map
              fun b => (w.level .dc, b)
        | some _ => [] := by
  rw [World.wire, World.wire, World.afterSpidev_log,
    List.flatMap_append, List.flatMap_singleton]
  unfold World.wireOf World.spiRecord
  cases env.spidev w.now <;> rfl

theorem World.submitted_afterSpidev
    (hBus : ∀ n, env.spidev n = none)
    (w : World) (xfers : List SpiIocTransfer) :
    (w.afterSpidev env xfers).submitted =
      w.submitted ++ xfers := by
  simp [World.submitted, World.xfersOf, World.spiRecord, hBus]

end Utinydrm

------------------------------------------------------------
-- Messages
------------------------------------------------------------

namespace Utinydrm

variable {env : Env}

/- The messages handed to spidev so far. -/
def World.messageOf : Call → Option SpiRecord
| .spidev r => some r
| _ => none

def World.messages (w : World) : List SpiRecord :=
  w.log.filterMap World.messageOf

theorem World.messages_afterSpidev
    (w : World) (xfers : List SpiIocTransfer) :
    (w.afterSpidev env xfers).messages =
      w.messages ++ [w.spiRecord env xfers] := by
  simp [World.messages, World.messageOf]

end Utinydrm

------------------------------------------------------------
-- Calls That Send Nothing
------------------------------------------------------------

namespace Utinydrm

variable {env : Env}

def Call.isMessage : Call → Bool
| .spidev _ => true
| _ => false

namespace World

/- Only calls that are no messages were made. -/
structure Quiet (w w' : World) : Prop where
  wire : w'.wire = w.wire
  messages : w'.messages = w.messages

theorem Quiet.of_log
    {w w' : World} (calls : List Call)
    (hLog : w'.log = w.log ++ calls)
    (hCalls : ∀ c ∈ calls, c.isMessage = false) :
    w.Quiet w' := by
  have hWire : calls.flatMap wireOf = [] := by
    rw [List.flatMap_eq_nil_iff]
    intro c hc
    have hNot := hCalls c hc
    cases c <;> simp_all [Call.isMessage, wireOf]
  have hMessages : calls.filterMap messageOf = [] := by
    rw [List.filterMap_eq_nil_iff]
    intro c hc
    have hNot := hCalls c hc
    cases c <;> simp_all [Call.isMessage, messageOf]
  exact ⟨by simp [World.wire, hLog, hWire],
    by simp [World.messages, hLog, hMessages]⟩

theorem Quiet.of_log_eq
    {w w' : World}
    (hLog : w'.log = w.log) :
    w.Quiet w' :=
  ⟨by simp [World.wire, hLog], by simp [World.messages, hLog]⟩

theorem Quiet.trans
    {w₁ w₂ w₃ : World}
    (h₁ : w₁.Quiet w₂) (h₂ : w₂.Quiet w₃) :
    w₁.Quiet w₃ :=
  ⟨h₂.wire.trans h₁.wire, h₂.messages.trans h₁.messages⟩

theorem quiet_afterGpio
    (w : World) (line : GpioLine) (value : Bool) :
    w.Quiet (w.afterGpio env line value) :=
  .of_log _ rfl (by simp [Call.isMessage])

theorem quiet_creation
    {w w' : World}
    (hAfter : w.AfterCreation w') (txBuf : TxBuf) :
    w.Quiet { w' with txBuf := txBuf } := by
  rcases hAfter with ⟨calls, rfl, hCalls⟩
  refine Quiet.of_log (.createDmabuf :: calls) ?_ ?_
  · simp [World.record]
  · intro c hc
    rcases List.mem_cons.mp hc with hHead | hTail
    · rw [hHead]
      rfl
    · have hAsks := hCalls c hTail
      cases c <;>
        simp_all [Call.asksForDmabuf, Call.isMessage]

end World

end Utinydrm

------------------------------------------------------------
-- Bytes
------------------------------------------------------------

namespace Utinydrm

variable {env : Env}

/- The bytes clocked out so far, whatever the D/C line. -/
def World.clocked (w : World) : List UInt8 :=
  w.wire.map Prod.snd

theorem World.clocked_afterSpidev
    (hBus : ∀ n, env.spidev n = none)
    (w : World) (xfer : SpiIocTransfer) :
    (w.afterSpidev env [xfer]).clocked =
      w.clocked ++ w.mosi env xfer := by
  simp [World.clocked, World.wire_afterSpidev, hBus,
    Function.comp_def]

theorem World.clocked_afterGpio
    (w : World) (line : GpioLine) (value : Bool) :
    (w.afterGpio env line value).clocked = w.clocked := by
  rw [World.clocked, (w.quiet_afterGpio line value).wire,
    World.clocked]

end Utinydrm
