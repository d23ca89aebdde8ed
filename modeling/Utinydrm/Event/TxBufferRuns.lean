import Utinydrm.Event.Handlers
import Utinydrm.Lib.Transition

/-
  The transmit buffer over whole runs.

  A creation that the kernel refuses leaves an error pointer
  in the global. The write that asked for the buffer returns
  cleanly; the next message that is not sent from a
  framebuffer follows the pointer. As long as every creation
  is granted, the global is never an error pointer.

  Key definitions include:
    * `Operation`: events and register accesses
    * `World.CreationsGranted`

  Main declarations:
    * `txSafe`, the contract all of them keep
    * `utinydrmGetTxBuf_err_iff`
    * `txBuf_ok_of_granted`
-/

------------------------------------------------------------
-- Operations
------------------------------------------------------------

namespace Utinydrm

variable (env : Env)

/- What can happen to the process after the probe. -/
inductive Operation where
| event (e : Event)
| writeBuf (cmd : Nat) (parameters : List UInt8)
| rawWrite (reg : Nat) (val : Ptr) (valLen : Nat)
| rawRead (reg valLen : Nat)

/- An operation, with the result it returns. -/
def Operation.run
    (mipi : MipiDbi) : Operation → Driver Int
| .event e => utinydrmEvent env mipi e
| .writeBuf cmd parameters =>
    mipiDbiWriteBuf env mipi.mspi cmd parameters
| .rawWrite reg val valLen =>
    regmapRawWrite env mipi.mspi reg val valLen
| .rawRead reg valLen => do
    let result ← regmapRawRead env mipi.mspi reg valLen
    pure result.1

/- An operation that returns is a step. -/
def OperationStep
    (mipi : MipiDbi)
    (w : World) (label : Operation × Int) (w' : World) :
    Prop :=
  label.1.run env mipi w = .ok label.2 w'

end Utinydrm

------------------------------------------------------------
-- The Contract
------------------------------------------------------------

namespace Utinydrm

variable {env : Env}

/- The kernel granted every creation made so far. -/
def World.CreationsGranted (env : Env) (w : World) : Prop :=
  ∀ n, w.log[n]? = some .createDmabuf → DmabufGranted env n

theorem World.CreationsGranted.of_prefix
    {w w' : World}
    (hGranted : w'.CreationsGranted env)
    (hPrefix : w.log <+: w'.log) :
    w.CreationsGranted env := by
  intro n hCall
  rcases hPrefix with ⟨rest, hLog⟩
  apply hGranted n
  rw [← hLog, List.getElem?_append_left]
  · exact hCall
  · exact (List.getElem?_eq_some_iff.mp hCall).1

/-
  The log grows, the global stays clear of error pointers
  while creations are granted, and an error pointer is only
  followed when the global is one.
-/
def txSafe (env : Env) : Effect.Contract Fault World where
  step := fun w w' => w.log <+: w'.log ∧
    (w'.CreationsGranted env → w.TxOk → w'.TxOk)
  fault := fun e w => e = .errPtrDeref → ¬ w.TxOk
  refl := fun w => ⟨List.prefix_refl _, fun _ h => h⟩
  trans := by
    intro w₁ w₂ w₃ h₁ h₂
    refine ⟨h₁.1.trans h₂.1, ?_⟩
    intro hGranted hOk
    exact h₂.2 hGranted
      (h₁.2 (hGranted.of_prefix h₂.1) hOk)

/- A step that keeps the global is safe. -/
theorem txSafe_of_same
    {w w' : World}
    (hPrefix : w.log <+: w'.log)
    (hSame : w'.txBuf = w.txBuf) :
    (txSafe env).step w w' := by
  refine ⟨hPrefix, fun _ hOk => ?_⟩
  rwa [World.TxOk, hSame]

/- So is asking for the buffer. -/
theorem meets_txSafe_getTxBuf (len : Nat) (w : World) :
    Effect.Meets (txSafe env) (utinydrmGetTxBuf env len) w := by
  unfold Effect.Meets
  rcases utinydrmGetTxBuf_cases env len w with
    ⟨_, hRun⟩ | ⟨_, s, ⟨calls, rfl, _⟩, ⟨e, hNot, hRun⟩ |
      ⟨buf, _, hRun⟩⟩
  · rw [hRun]
    exact (txSafe env).refl w
  · rw [hRun]
    refine ⟨by simp [World.record], ?_⟩
    intro hGranted
    -- the message of this creation is in the log
    exfalso
    apply hNot
    apply hGranted w.now
    simp [World.record, World.now]
  · rw [hRun]
    refine ⟨by simp [World.record], ?_⟩
    intro _ _
    exact World.txOk_of_valid rfl

theorem pipeContract_txSafe (env : Env) :
    PipeContract env (txSafe env) where
  kmalloc := fun _ =>
    txSafe_of_same (List.prefix_append _ _) rfl
  dcLine := fun _ _ =>
    txSafe_of_same (List.prefix_append _ _) rfl
  spidev := fun _ _ =>
    txSafe_of_same (List.prefix_append _ _) rfl
  memory := fun _ _ => txSafe_of_same (List.prefix_refl _) rfl
  workBuf := fun _ _ => txSafe_of_same (List.prefix_refl _) rfl
  getTxBuf := meets_txSafe_getTxBuf
  mspiTxBuf := fun _ _ =>
    txSafe_of_same (List.prefix_refl _) rfl
  deref := fun _ e hErr _ hOk => hOk e hErr
  hang := fun _ hEq => by cases hEq
  ledOn := fun _ =>
    txSafe_of_same (List.prefix_append _ _) rfl
  enabled := fun _ => txSafe_of_same (List.prefix_refl _) rfl
  ledOff := fun _ =>
    txSafe_of_same (List.prefix_append _ _) rfl
  disabled := fun _ => txSafe_of_same (List.prefix_refl _) rfl
  regulatorDisable := fun _ =>
    txSafe_of_same (List.prefix_append _ _) rfl
  unprepared := fun _ =>
    txSafe_of_same (List.prefix_refl _) rfl
  reset := fun _ _ =>
    txSafe_of_same (List.prefix_append _ _) rfl
  regulatorEnable := fun _ =>
    txSafe_of_same (List.prefix_append _ _) rfl
  prepared := fun _ => txSafe_of_same (List.prefix_refl _) rfl

end Utinydrm

------------------------------------------------------------
-- Every Operation
------------------------------------------------------------

namespace Utinydrm

variable {env : Env}

theorem meets_txSafe_fbCreate (fbId : UInt32) (w : World) :
    Effect.Meets (txSafe env) (utinydrmFbCreate env fbId) w := by
  unfold Effect.Meets
  rcases utinydrmFbCreate_cases env fbId w with
    ⟨ret, s, ⟨calls, rfl, _⟩, ⟨_, hRun⟩ |
      ⟨ufb, n, info, _, _, _, hRun⟩⟩
  · rw [hRun]
    exact txSafe_of_same (List.prefix_append _ _) rfl
  · rw [hRun]
    exact txSafe_of_same (List.prefix_append _ _) rfl

theorem meets_txSafe_fbDestroy (fbId : UInt32) (w : World) :
    Effect.Meets (txSafe env) (utinydrmFbDestroy env fbId)
      w := by
  unfold Effect.Meets
  rcases utinydrmFbDestroy_cases env fbId w with
    hRun | ⟨_, _, _, _, _, hRun⟩
  · rw [hRun]
    exact (txSafe env).refl w
  · rw [hRun]
    exact txSafe_of_same (List.prefix_append _ _) rfl

theorem meets_txSafe_event
    (mipi : MipiDbi) (event : Event) (w : World) :
    Effect.Meets (txSafe env)
      (utinydrmEvent env mipi event) w :=
  meets_utinydrmEvent (pipeContract_txSafe env)
    (fun _ _ => txSafe_of_same (List.prefix_refl _) rfl)
    mipi event w
    (fun fbId _ => meets_txSafe_fbCreate fbId w)
    (fun fbId _ => meets_txSafe_fbDestroy fbId w)

theorem meets_txSafe_operation
    (mipi : MipiDbi) (operation : Operation) (w : World) :
    Effect.Meets (txSafe env) (operation.run env mipi) w := by
  have hBus :=
    (pipeContract_txSafe env).toDirtyContract.toBusContract
  cases operation with
  | event e => exact meets_txSafe_event mipi e w
  | writeBuf cmd parameters =>
      exact meets_mipiDbiWriteBuf hBus _ _ _ w
  | rawWrite reg val valLen =>
      exact meets_regmapRawWrite hBus _ _ _ _ w
  | rawRead reg valLen =>
      exact Effect.meets_bind (meets_regmapRawRead hBus _ _ _ w)
        fun _ s _ => Effect.meets_pure _ s

end Utinydrm

------------------------------------------------------------
-- Runs
------------------------------------------------------------

namespace Utinydrm

/-
  After asking for the buffer the global is an error pointer
  if and only if the kernel refused part of the creation.
-/
theorem utinydrmGetTxBuf_err_iff
    (env : Env) {len : Nat} {w : World}
    (hLen : len ≤ 320 * 240 * 16 / 8) :
    ∃ txBuf w', utinydrmGetTxBuf env len w = .ok txBuf w' ∧
      (w'.TxOk ↔ DmabufGranted env w.now) := by
  rcases utinydrmGetTxBuf_cases env len w with
    ⟨hLong, _⟩ | ⟨_, s, _, ⟨e, hNot, hRun⟩ |
      ⟨buf, hGranted, hRun⟩⟩
  · omega
  · refine ⟨_, _, hRun, ?_⟩
    constructor
    · intro hOk
      exact absurd rfl (hOk e)
    · intro hGranted
      exact absurd hGranted hNot
  · refine ⟨_, _, hRun, ?_⟩
    constructor
    · intro _
      exact hGranted
    · intro _
      exact World.txOk_of_valid rfl

/-
  In every run whose creations are granted the global is
  `NULL` or a buffer, and an operation that follows an error
  pointer starts a creation that is refused. A refused
  creation leaves an error pointer.
-/
theorem txBuf_ok_of_granted
    (env : Env) (mipi : MipiDbi) :
    (∀ (w₀ w : World) (history : List (Operation × Int)),
      w₀.Probed →
      Transition.Run (OperationStep env mipi)
        Transition.unguarded w₀ history w →
      w.CreationsGranted env →
      (w.txBuf = .null ∨ ∃ buf, w.txBuf = .valid buf) ∧
      ∀ (operation : Operation) (w' : World),
        w'.CreationsGranted env →
        operation.run env mipi w ≠ .error .errPtrDeref w') ∧
    (∀ (len : Nat) (w : World), len ≤ 320 * 240 * 16 / 8 →
      ∃ txBuf w', utinydrmGetTxBuf env len w =
          .ok txBuf w' ∧
        (w'.TxOk ↔ DmabufGranted env w.now)) := by
  refine ⟨?_, fun len w => utinydrmGetTxBuf_err_iff env⟩
  intro w₀ w history hProbed hRun hGranted
  have hInv : w.CreationsGranted env → w.TxOk := by
    apply hRun.invariant
      (fun s => s.CreationsGranted env → s.TxOk)
    · intro _
      exact World.txOk_of_null hProbed.txBuf
    · intro _ s label s' hOk _ hStep hLater
      have hSafe :=
        (meets_txSafe_operation mipi label.1 s).of_ok hStep
      exact hSafe.2 hLater (hOk (hLater.of_prefix hSafe.1))
  have hOk := hInv hGranted
  refine ⟨?_, ?_⟩
  · cases hTx : w.txBuf with
    | null => exact Or.inl rfl
    | err e => exact absurd hTx (hOk e)
    | valid buf => exact Or.inr ⟨buf, rfl⟩
  · intro operation w' hLater hFault
    rcases (meets_txSafe_operation mipi operation w).of_error
      hFault with ⟨hStep, hDeref⟩
    exact hDeref rfl (hStep.2 hLater hOk)

/- A first write, with a kernel that grants everything. -/
theorem txBuf_ok_of_granted_write :
    ∃ w, (Operation.writeBuf 0x28 []).run Env.granting
        (mi0283qtProbe mainSpi true true true false)
        (World.atProbe (-1)) = .ok 0 w ∧
      (w.txBuf = .null ∨ ∃ buf, w.txBuf = .valid buf) ∧
      ∀ w', w'.CreationsGranted Env.granting →
        (Operation.rawRead 0x0A 1).run Env.granting
            (mi0283qtProbe mainSpi true true true false) w ≠
          .error .errPtrDeref w' := by
  have hWrite : ∃ w, (Operation.writeBuf 0x28 []).run
      Env.granting
      (mi0283qtProbe mainSpi true true true false)
      (World.atProbe (-1)) = .ok 0 w :=
    ⟨_, rfl⟩
  have hAll : ∀ n, DmabufGranted Env.granting n :=
    fun n => ⟨rfl, rfl, rfl, rfl, rfl⟩
  rcases hWrite with ⟨w, hWrite⟩
  rcases (txBuf_ok_of_granted Env.granting _).1 _ w
      [(.writeBuf 0x28 [], 0)] (World.probed_atProbe (-1))
      (.snoc .nil trivial hWrite) (fun n _ => hAll n) with
    ⟨hTx, hNoFault⟩
  exact ⟨w, hWrite, hTx, hNoFault (.rawRead 0x0A 1)⟩

/-
  A kernel without memory for the dumb buffer: the first
  enable leaves an error pointer, the second follows it.
-/
theorem txBuf_err_after_refusal :
    ¬ ∀ (env : Env) (mipi : MipiDbi) (w₀ w : World)
      (history : List (Operation × Int)),
      w₀.Probed →
      Transition.Run (OperationStep env mipi)
        Transition.unguarded w₀ history w →
      (w.txBuf = .null ∨ ∃ buf, w.txBuf = .valid buf) ∧
      ∀ (operation : Operation) (w' : World),
        operation.run env mipi w ≠
          .error .errPtrDeref w' := by
  intro hClaim
  have hEnable : ∃ w w',
      (Operation.event .pipeEnable).run
        { Env.granting with
          createDumb := fun _ =>
            .error ⟨12, by decide, by decide⟩ }
        (mi0283qtProbe mainSpi true true true false)
        (World.atProbe (-1)) = .ok 0 w ∧
      (Operation.event .pipeEnable).run
        { Env.granting with
          createDumb := fun _ =>
            .error ⟨12, by decide, by decide⟩ }
        (mi0283qtProbe mainSpi true true true false)
        w = .error .errPtrDeref w' :=
    ⟨_, _, rfl, rfl⟩
  rcases hEnable with ⟨w, w', hFirst, hSecond⟩
  exact (hClaim _ _ _ w [(.event .pipeEnable, 0)]
    (World.probed_atProbe (-1))
    (.snoc .nil trivial hFirst)).2 _ w' hSecond

end Utinydrm
