import Utinydrm.Device.TxBuffer

/-
  Contracts for the functions between a register access and
  the wire.

  Everything these functions do to the world is one of a few
  primitive changes. A contract that each of them keeps is
  kept by all the functions: this is shown function by
  function next to their definitions, once for every
  contract.

  Key definitions include:
    * `SendContract`, for handing over a message
    * `BusContract`, for a register access
    * `busStep`: what the bus functions leave alone
-/

------------------------------------------------------------
-- Primitive Changes
------------------------------------------------------------

namespace Utinydrm

/-
  The contract is kept by a call of spidev and by a store
  into mapped memory, and allows for following a transmit
  buffer that is an error pointer.
-/
structure SendContract
    (env : Env)
    (C : Effect.Contract Fault World) : Prop where
  spidev : ∀ xfers w, C.step w (w.afterSpidev env xfers)
  memory : ∀ w mem, C.step w { w with mem := mem }
  deref : ∀ w e, w.txBuf = .err e → C.fault .errPtrDeref w

/-
  It is kept by the other calls the bus functions make, by a
  store into the work buffer and by asking for the transmit
  buffer, and allows for a loop that makes no progress.
-/
structure BusContract
    (env : Env)
    (C : Effect.Contract Fault World) : Prop
    extends SendContract env C where
  kmalloc : ∀ w,
    C.step w (w.record (.kmalloc (env.kmalloc w.now)))
  dcLine : ∀ value w, C.step w (w.afterGpio env .dc value)
  workBuf : ∀ w buf, C.step w { w with workBuf := buf }
  getTxBuf : ∀ len w,
    Effect.Meets C (utinydrmGetTxBuf env len) w
  mspiTxBuf : ∀ w p, C.step w { w with mspiTxBuf := p }
  hang : ∀ w, C.fault .hang w

variable {env : Env}
variable {C : Effect.Contract Fault World}

theorem SendContract.meets_spidev
    (hSend : SendContract env C)
    (xfers : List SpiIocTransfer) (w : World) :
    Effect.Meets C (Utinydrm.spidev env xfers) w :=
  hSend.spidev xfers w

namespace BusContract

theorem meets_kmalloc
    (hBus : BusContract env C) (w : World) :
    Effect.Meets C (Utinydrm.kmalloc env) w :=
  hBus.kmalloc w

theorem meets_dcLine
    (hBus : BusContract env C) (value : Bool) (w : World) :
    Effect.Meets C (gpiodSetValueCansleep env .dc value) w :=
  hBus.dcLine value w

end BusContract

end Utinydrm

------------------------------------------------------------
-- The Frame
------------------------------------------------------------

namespace Utinydrm

/- The calls the bus functions make. -/
def Call.onBus : Call → Bool
| .kmalloc _ => true
| .gpio .dc _ _ => true
| .spidev _ => true
| .createDmabuf => true
| .createDumb _ => true
| .primeHandleToFd _ => true
| .mmap _ _ => true
| _ => false

/-
  The registered framebuffers, the two flags and the other
  lines are left alone, and only calls of the bus are added.
-/
structure BusStep (w w' : World) : Prop where
  fbs : w'.fbs = w.fbs
  bufFd : w'.bufFd = w.bufFd
  planeFb : w'.planeFb = w.planeFb
  prepared : w'.prepared = w.prepared
  enabled : w'.enabled = w.enabled
  level : ∀ line, line ≠ .dc → w'.level line = w.level line
  log : ∃ calls, w'.log = w.log ++ calls ∧
    ∀ c ∈ calls, c.onBus = true

namespace BusStep

theorem refl (w : World) : BusStep w w :=
  ⟨rfl, rfl, rfl, rfl, rfl, fun _ _ => rfl, [], by simp,
    by simp⟩

theorem trans
    {w₁ w₂ w₃ : World}
    (h₁ : BusStep w₁ w₂) (h₂ : BusStep w₂ w₃) :
    BusStep w₁ w₃ := by
  rcases h₁.log with ⟨calls₁, hLog₁, hBus₁⟩
  rcases h₂.log with ⟨calls₂, hLog₂, hBus₂⟩
  refine ⟨h₂.fbs.trans h₁.fbs, h₂.bufFd.trans h₁.bufFd,
    h₂.planeFb.trans h₁.planeFb,
    h₂.prepared.trans h₁.prepared,
    h₂.enabled.trans h₁.enabled,
    fun line hLine =>
      (h₂.level line hLine).trans (h₁.level line hLine),
    calls₁ ++ calls₂, by simp [hLog₂, hLog₁], ?_⟩
  intro c hc
  rcases List.mem_append.mp hc with hOld | hNew
  · exact hBus₁ c hOld
  · exact hBus₂ c hNew

/- A state that differs elsewhere, after one more call. -/
theorem of_call
    {w w' : World} {call : Call}
    (hLog : w'.log = w.log ++ [call])
    (hCall : call.onBus = true)
    (hLevel : ∀ line, line ≠ .dc →
      w'.level line = w.level line)
    (hSame : w'.fbs = w.fbs ∧ w'.bufFd = w.bufFd ∧
      w'.planeFb = w.planeFb ∧ w'.prepared = w.prepared ∧
      w'.enabled = w.enabled) :
    BusStep w w' := by
  rcases hSame with ⟨hFbs, hBufFd, hPlane, hPrepared, hEnabled⟩
  exact ⟨hFbs, hBufFd, hPlane, hPrepared, hEnabled, hLevel,
    [call], hLog, by simpa using hCall⟩

theorem of_creation
    {w w' : World}
    (hAfter : w.AfterCreation w') (txBuf : TxBuf) :
    BusStep w { w' with txBuf := txBuf } := by
  rcases hAfter with ⟨calls, rfl, hCalls⟩
  refine ⟨rfl, rfl, rfl, rfl, rfl, fun _ _ => rfl,
    .createDmabuf :: calls, by simp [World.record], ?_⟩
  intro c hc
  rcases List.mem_cons.mp hc with hHead | hTail
  · rw [hHead]
    rfl
  · have hAsks := hCalls c hTail
    cases c <;> simp_all [Call.asksForDmabuf, Call.onBus]

end BusStep

/- The frame as a contract: nothing is said of a fault. -/
def busStep : Effect.Contract Fault World where
  step := BusStep
  fault := fun _ _ => True
  refl := BusStep.refl
  trans := BusStep.trans

theorem busContract_busStep (env : Env) :
    BusContract env busStep where
  kmalloc := fun _ => BusStep.of_call rfl rfl
    (fun _ _ => rfl) ⟨rfl, rfl, rfl, rfl, rfl⟩
  dcLine := fun _ _ => BusStep.of_call rfl rfl
    (fun _ hLine => World.afterGpio_level_ne hLine)
    ⟨rfl, rfl, rfl, rfl, rfl⟩
  spidev := fun _ _ => BusStep.of_call rfl rfl
    (fun _ _ => rfl) ⟨rfl, rfl, rfl, rfl, rfl⟩
  memory := fun w _ => ⟨rfl, rfl, rfl, rfl, rfl,
    fun _ _ => rfl, [], by simp, by simp⟩
  workBuf := fun w _ => ⟨rfl, rfl, rfl, rfl, rfl,
    fun _ _ => rfl, [], by simp, by simp⟩
  getTxBuf := by
    intro len w
    unfold Effect.Meets
    rcases utinydrmGetTxBuf_cases env len w with
      ⟨_, hRun⟩ | ⟨_, w', hAfter, ⟨e, _, hRun⟩ |
        ⟨buf, _, hRun⟩⟩
    · rw [hRun]
      exact BusStep.refl w
    · rw [hRun]
      exact BusStep.of_creation hAfter _
    · rw [hRun]
      exact BusStep.of_creation hAfter _
  mspiTxBuf := fun w _ => ⟨rfl, rfl, rfl, rfl, rfl,
    fun _ _ => rfl, [], by simp, by simp⟩
  deref := fun _ _ _ => trivial
  hang := fun _ => trivial

/-
  A contract that asks for less than the frame and nothing
  of a fault is kept by the bus functions.
-/
theorem busContract_of_busStep
    (env : Env)
    {C : Effect.Contract Fault World}
    (hStep : ∀ w w', BusStep w w' → C.step w w')
    (hFault : ∀ e w, C.fault e w) :
    BusContract env C := by
  have hBus := busContract_busStep env
  constructor
  case toSendContract =>
    exact
      { spidev := fun xfers w => hStep _ _ (hBus.spidev xfers w)
        memory := fun w mem => hStep _ _ (hBus.memory w mem)
        deref := fun w _ _ => hFault _ w }
  case kmalloc => exact fun w => hStep _ _ (hBus.kmalloc w)
  case dcLine =>
    exact fun value w => hStep _ _ (hBus.dcLine value w)
  case workBuf =>
    exact fun w buf => hStep _ _ (hBus.workBuf w buf)
  case getTxBuf =>
    exact fun len w => (hBus.getTxBuf len w).mono
      (fun s => hStep w s) (fun e s _ => hFault e s)
  case mspiTxBuf =>
    exact fun w p => hStep _ _ (hBus.mspiTxBuf w p)
  case hang => exact fun w => hFault _ w

end Utinydrm
