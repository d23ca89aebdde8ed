import Utinydrm.Event.Regulator
import Utinydrm.MipiDbi.CommandFailure

/-
  Whether a prepared display has been set up.

  Enabling the pipe looks at the result of the reset command
  only. When a later command of the sequence fails, the
  display counts as prepared all the same, and no later
  enable sets it up.

  Key definitions include:
    * `Delivered`
    * `SetUp`
    * `SequenceRefused`
    * `SetUpSince`

  Main declarations:
    * `prepared_setUp_iff`
    * `mi0283qtEnable_of_setUp`
    * `panel_setUp`
-/

------------------------------------------------------------
-- Delivery
------------------------------------------------------------

namespace Utinydrm

/- The commands are written one after another, without error. -/
inductive Delivered (env : Env) (mspi : MipiDbiSpi) :
    List (Nat × List UInt8) → World → World → Prop
| nil (w : World) : Delivered env mspi [] w w
| cons {cmd parameters rest w s w'} :
    mipiDbiWriteBuf env mspi cmd parameters w = .ok 0 s →
    Delivered env mspi rest s w' →
    Delivered env mspi ((cmd, parameters) :: rest) w w'

/- One of the commands fails, after those before it. -/
inductive Refused (env : Env) (mspi : MipiDbiSpi) :
    List (Nat × List UInt8) → World → Prop
| here {cmd parameters rest w ret s} :
    mipiDbiWriteBuf env mspi cmd parameters w = .ok ret s →
    ret ≠ 0 →
    Refused env mspi ((cmd, parameters) :: rest) w
| later {cmd parameters rest w s} :
    mipiDbiWriteBuf env mspi cmd parameters w = .ok 0 s →
    Refused env mspi rest s →
    Refused env mspi ((cmd, parameters) :: rest) w

variable {env : Env} {mspi : MipiDbiSpi}
variable {commands : List (Nat × List UInt8)} {w w' : World}

/- Commands that are delivered are written. -/
theorem Delivered.writeCommands_eq
    (hDelivered : Delivered env mspi commands w w') :
    writeCommands env mspi commands w = .ok () w' := by
  induction hDelivered with
  | nil w => rfl
  | cons hWrite _ ih =>
      rw [writeCommands, Effect.bind_of_ok hWrite]
      exact ih

/- What was not refused was delivered. -/
theorem delivered_of_writeCommands
    (hRun : writeCommands env mspi commands w = .ok () w')
    (hNot : ¬ Refused env mspi commands w) :
    Delivered env mspi commands w w' := by
  induction commands generalizing w with
  | nil =>
      cases hRun
      exact .nil _
  | cons command rest ih =>
      rcases command with ⟨cmd, parameters⟩
      rcases Effect.exists_of_bind_ok hRun with
        ⟨ret, s, hWrite, hRest⟩
      by_cases hRet : ret = 0
      · subst hRet
        exact .cons hWrite
          (ih hRest fun h => hNot (.later hWrite h))
      · exact absurd (Refused.here hWrite hRet) hNot

theorem Refused.not_delivered
    (hRefused : Refused env mspi commands w)
    (w' : World) :
    ¬ Delivered env mspi commands w w' := by
  induction hRefused with
  | here hWrite hRet =>
      intro hDelivered
      cases hDelivered with
      | cons hOther _ =>
          cases hWrite.symm.trans hOther
          exact hRet rfl
  | later hWrite _ ih =>
      intro hDelivered
      cases hDelivered with
      | cons hOther hRest =>
          cases hWrite.symm.trans hOther
          exact ih hRest

end Utinydrm

------------------------------------------------------------
-- One Enable
------------------------------------------------------------

namespace Utinydrm

/- The whole of the initialisation. -/
def initSequence (rotation : Nat) :
    List (Nat × List UInt8) :=
  (MIPI_DCS_SOFT_RESET, []) :: mi0283qtSequence rotation

/-
  Enabling verifies the display to be on, or delivers every
  command of the initialisation after resetting the panel.
-/
def SetUp (env : Env) (mipi : MipiDbi) (w : World) : Prop :=
  (∃ s, mipiDbiDisplayIsOn env mipi.mspi
    (w.powered env mipi) = .ok true s) ∨
  ∃ s s₁ s₂,
    mipiDbiDisplayIsOn env mipi.mspi
      (w.powered env mipi) = .ok false s ∧
    mipiDbiHwReset env mipi s = .ok () s₁ ∧
    Delivered env mipi.mspi (initSequence mipi.rotation) s₁ s₂

/- It is refused a command after the reset. -/
def SequenceRefused
    (env : Env) (mipi : MipiDbi) (w : World) : Prop :=
  w.prepared = false ∧ ¬ SupplyRefused env mipi w ∧
    ∃ s, ResetReturns env mipi (w.powered env mipi) 0 s ∧
      Refused env mipi.mspi (mi0283qtSequence mipi.rotation) s

variable {env : Env} {mipi : MipiDbi} {w w' : World}

/- The sequence is delivered after a reset that was. -/
theorem setUp_of_delivered
    {s s' : World}
    (hReset : ResetReturns env mipi (w.powered env mipi) 0 s)
    (hDelivered : Delivered env mipi.mspi
      (mi0283qtSequence mipi.rotation) s s') :
    SetUp env mipi w := by
  rcases hReset with ⟨s₀, s₁, hOn, hLine, hWrite⟩
  exact Or.inr ⟨s₀, s₁, s', hOn, hLine,
    .cons hWrite hDelivered⟩

theorem SequenceRefused.not_setUp
    (hRefused : SequenceRefused env mipi w) :
    ¬ SetUp env mipi w := by
  rcases hRefused with ⟨_, _, s, hReset, hRefused⟩
  rintro (⟨t, hOn⟩ | ⟨t, t₁, t₂, hOn, hLine, hDelivered⟩)
  · exact hReset.not_on t hOn
  · cases hDelivered with
    | cons hWrite hRest =>
        have hSame :=
          (hReset.unique ⟨t, t₁, hOn, hLine, hWrite⟩).2
        rw [hSame] at hRefused
        exact hRefused.not_delivered t₂ hRest

/- The two ways an unprepared display gets on with it. -/
theorem mi0283qtEnable_prepared_cases
    (hPrepared : w.prepared = false)
    (hRun : mi0283qtEnable env mipi w = .ok () w') :
    (w'.prepared = false ∧ ¬ SequenceRefused env mipi w) ∨
    (w'.prepared = true ∧
      (SequenceRefused env mipi w ∨
        (SetUp env mipi w ∧
          ¬ SequenceRefused env mipi w))) := by
  have hBus := (dirtyContract_sameSupply env).toBusContract
  have hPowered : (w.powered env mipi).prepared = false := by
    unfold World.powered
    split <;> exact hPrepared
  rcases mi0283qtEnable_cases hRun with
    ⟨hOther, _⟩ | ⟨_, hRefused, rfl⟩ | ⟨_, hGranted, hSetup⟩
  · rw [hPrepared] at hOther
    cases hOther
  · exact Or.inl ⟨hPowered, fun h => h.2.1 hRefused⟩
  rcases mi0283qtSetup_cases hSetup with
    ⟨s, hOn, rfl⟩ | ⟨ret, hReset, hRet⟩ |
      ⟨s, s', hReset, hSequence, rfl⟩
  · have hSetUp : SetUp env mipi w := Or.inl ⟨s, hOn⟩
    exact Or.inr ⟨rfl, Or.inr
      ⟨hSetUp, fun h => h.not_setUp hSetUp⟩⟩
  · refine Or.inl ⟨hReset.sameSupply.2.trans hPowered, ?_⟩
    rintro ⟨_, _, t, hReset', _⟩
    exact hRet (hReset.unique hReset').1
  · refine Or.inr ⟨rfl, ?_⟩
    by_cases hRefused : Refused env mipi.mspi
        (mi0283qtSequence mipi.rotation) s
    · exact Or.inl ⟨hPrepared, hGranted, s, hReset, hRefused⟩
    · have hSetUp := setUp_of_delivered hReset
        (delivered_of_writeCommands hSequence hRefused)
      exact Or.inr ⟨hSetUp, fun h => h.not_setUp hSetUp⟩

/-
  The display gets prepared only by a complete setup if and
  only if no command after the reset is refused.
-/
theorem prepared_setUp_iff
    (hPrepared : w.prepared = false)
    (hRun : mi0283qtEnable env mipi w = .ok () w') :
    (w'.prepared = true → SetUp env mipi w) ↔
      ¬ SequenceRefused env mipi w := by
  rcases mi0283qtEnable_prepared_cases hPrepared hRun with
    ⟨hOff, hNot⟩ | ⟨hOn, hRefused | ⟨hSetUp, hNot⟩⟩
  · refine iff_of_true (fun h => ?_) hNot
    rw [hOff] at h
    cases h
  · refine iff_of_false (fun h => ?_) (not_not_intro hRefused)
    exact hRefused.not_setUp (h hOn)
  · exact iff_of_true (fun _ => hSetUp) hNot

/- A complete setup prepares the display, again and again. -/
theorem mi0283qtEnable_of_setUp
    (hPrepared : w.prepared = false)
    (hSupply : ¬ SupplyRefused env mipi w)
    (hSetUp : SetUp env mipi w) :
    ∃ w', mi0283qtEnable env mipi w = .ok () w' ∧
      w'.prepared = true := by
  have hSetup : ∃ w',
      mi0283qtSetup env mipi (w.powered env mipi) =
        .ok () w' ∧ w'.prepared = true := by
    unfold mi0283qtSetup
    rcases hSetUp with
      ⟨s, hOn⟩ | ⟨s, s₁, s₂, hOn, hLine, hDelivered⟩
    · rw [Effect.bind_of_ok hOn]
      exact ⟨_, rfl, rfl⟩
    · cases hDelivered with
      | cons hWrite hRest =>
          rw [Effect.bind_of_ok hOn]
          simp only [Bool.false_eq_true, if_false]
          rw [Effect.bind_of_ok hLine, Effect.bind_of_ok hWrite,
            if_neg (by simp),
            Effect.bind_of_ok hRest.writeCommands_eq]
          exact ⟨_, rfl, rfl⟩
  rcases hSetup with ⟨w', hRun, hOn⟩
  refine ⟨w', ?_, hOn⟩
  rw [← hRun]
  unfold mi0283qtEnable
  rw [Effect.bind_of_ok (Effect.get_apply w), hPrepared,
    if_neg (by simp)]
  cases hRegulator : mipi.regulator with
  | false =>
      rw [World.powered, hRegulator]
      rfl
  | true =>
      have hZero : env.regulatorEnable w.now = 0 := by
        by_contra hNe
        exact hSupply ⟨hRegulator, hNe⟩
      have hPowered : regulatorEnable env w =
          .ok 0 (w.powered env mipi) := by
        simp [regulatorEnable, World.powered, hRegulator,
          hZero]
      rw [if_pos rfl, Effect.bind_of_ok hPowered,
        if_neg (by simp)]

end Utinydrm

------------------------------------------------------------
-- Runs
------------------------------------------------------------

namespace Utinydrm

/-
  An enable of the run set the panel up, and since then it
  was neither put to sleep nor powered off: disabling does
  the one with a backlight and the other with a regulator.
-/
def SetUpSince
    (env : Env) (mipi : MipiDbi) (w₀ : World)
    (history : List (Event × Int)) (w : World) : Prop :=
  ∃ before ret after s s',
    history = before ++ (.pipeEnable, ret) :: after ∧
    Transition.Run (EventStep env mipi) Transition.unguarded
      w₀ before s ∧
    s.prepared = false ∧ SetUp env mipi s ∧
    EventStep env mipi s (.pipeEnable, ret) s' ∧
    Transition.Run (EventStep env mipi) Transition.unguarded
      s' after w ∧
    ∀ label ∈ after, label.1 = .pipeDisable →
      mipi.backlight = false ∧ mipi.regulator = false

/- No enable of the run is refused a command of the sequence. -/
def AcceptsSequence (env : Env) (mipi : MipiDbi) :
    List (Event × Int) → World → Event × Int → Prop :=
  fun _ w label =>
    ¬ (label.1 = .pipeEnable ∧ SequenceRefused env mipi w)

variable {env : Env} {mipi : MipiDbi} {w₀ w w' : World}
variable {history : List (Event × Int)} {label : Event × Int}

/- Events that leave the panel alone change nothing of that. -/
theorem SetUpSince.snoc
    (hSince : SetUpSince env mipi w₀ history w)
    (hStep : EventStep env mipi w label w')
    (hAwake : label.1 = .pipeDisable →
      mipi.backlight = false ∧ mipi.regulator = false) :
    SetUpSince env mipi w₀ (history ++ [label]) w' := by
  rcases hSince with ⟨before, ret, after, s, s', rfl, hBefore,
    hPrepared, hSetUp, hEnable, hAfter, hNone⟩
  refine ⟨before, ret, after ++ [label], s, s', by simp,
    hBefore, hPrepared, hSetUp, hEnable,
    .snoc hAfter trivial hStep, ?_⟩
  intro other hOther
  rcases List.mem_append.mp hOther with hOld | hNew
  · exact hNone other hOld
  · rw [List.mem_singleton.mp hNew]
    exact hAwake

/- Disabling never prepares a display. -/
def neverPrepares : Effect.Contract Fault World where
  step := fun w w' => w'.prepared = true → w.prepared = true
  fault := fun _ _ => True
  refl := fun _ => id
  trans := fun h₁ h₂ h => h₁ (h₂ h)

theorem disableContract_neverPrepares (env : Env) :
    DisableContract env neverPrepares where
  toBusContract := busContract_of_busStep env
    (fun _ _ hStep h => hStep.prepared.symm.trans h)
    (fun _ _ => trivial)
  ledOff := fun _ => id
  disabled := fun _ => id
  regulatorDisable := fun _ => id
  unprepared := fun _ h => by cases h

/-
  A prepared display was prepared before an event or is after
  an enable, and has not been put to sleep by the event.
-/
theorem prepared_step_cases
    (hStep : EventStep env mipi w label w')
    (hPrepared : w'.prepared = true) :
    (w.prepared = true ∧ (label.1 = .pipeDisable →
      mipi.backlight = false ∧ mipi.regulator = false)) ∨
    (w.prepared = false ∧ label.1 = .pipeEnable ∧
      mi0283qtEnable env mipi w = .ok () w') := by
  rcases label with ⟨event, ret⟩
  rw [EventStep] at hStep
  dsimp only at hStep ⊢
  by_cases hEnable : event = .pipeEnable
  · subst hEnable
    cases hBefore : w.prepared with
    | true => exact Or.inl ⟨rfl, fun h => by cases h⟩
    | false =>
        exact Or.inr ⟨rfl, rfl, mi0283qtEnable_of_event hStep⟩
  by_cases hDisable : event = .pipeDisable
  · subst hDisable
    have hRun := mipiDbiPipeDisable_of_event hStep
    have hBefore := (meets_mipiDbiPipeDisable
      (disableContract_neverPrepares env) _ w).of_ok hRun
    refine Or.inl ⟨hBefore hPrepared, fun _ => ?_⟩
    by_contra hPower
    have hOff : w'.prepared = false := by
      apply mipiDbiPipeDisable_unprepares _ hRun
      revert hPower
      cases mipi.backlight <;> cases mipi.regulator <;> simp
    rw [hPrepared] at hOff
    cases hOff
  · have hSame := sameSupply_event ⟨hEnable, hDisable⟩ hStep
    exact Or.inl ⟨hSame.2.symm.trans hPrepared,
      fun h => absurd h hDisable⟩

/-
  Enabling prepares an unprepared display only by a complete
  setup if and only if no command after the reset is refused,
  and after an enable that failed it can be prepared by
  enabling again. In every run none of whose enables is
  refused such a command, a prepared display has been set up
  since it was last put to sleep or powered off.
-/
theorem panel_setUp
    (env : Env) (mipi : MipiDbi)
    {w₀ w : World} (history : List (Event × Int))
    (hProbed : w₀.Probed)
    (hRun : Transition.Run (EventStep env mipi)
      (AcceptsSequence env mipi) w₀ history w) :
    (w.prepared = true →
      SetUpSince env mipi w₀ history w) ∧
    ∀ s ret s', s.prepared = false →
      EventStep env mipi s (.pipeEnable, ret) s' →
      ((s'.prepared = true → SetUp env mipi s) ↔
        ¬ SequenceRefused env mipi s) ∧
      (s'.prepared = false → ¬ SupplyRefused env mipi s' →
        SetUp env mipi s' →
        ∃ s'', EventStep env mipi s' (.pipeEnable, 0) s'' ∧
          s''.prepared = true) := by
  refine ⟨?_, ?_⟩
  · have hInv : Transition.Run (EventStep env mipi)
        Transition.unguarded w₀ history w ∧
        (w.prepared = true →
          SetUpSince env mipi w₀ history w) := by
      apply hRun.invariant_history (fun history w =>
        Transition.Run (EventStep env mipi)
          Transition.unguarded w₀ history w ∧
        (w.prepared = true →
          SetUpSince env mipi w₀ history w))
      · refine ⟨.nil, fun hOn => ?_⟩
        rw [hProbed.prepared] at hOn
        cases hOn
      · rintro history s label s' ⟨hBefore, hSince⟩ hGuard hStep
        refine ⟨.snoc hBefore trivial hStep, fun hOn => ?_⟩
        rcases prepared_step_cases hStep hOn with
          ⟨hPrepared, hAwake⟩ | ⟨hPrepared, hEnable, hEnabled⟩
        · exact (hSince hPrepared).snoc hStep hAwake
        · have hSetUp := (prepared_setUp_iff hPrepared
            hEnabled).mpr (fun h => hGuard ⟨hEnable, h⟩) hOn
          rcases label with ⟨event, ret⟩
          cases hEnable
          exact ⟨history, ret, [], s, s', rfl, hBefore,
            hPrepared, hSetUp, hStep, .nil, by simp⟩
    exact hInv.2
  · intro s ret s' hPrepared hStep
    have hEnabled := mi0283qtEnable_of_event hStep
    refine ⟨prepared_setUp_iff hPrepared hEnabled, ?_⟩
    intro hFailed hSupply hSetUp
    rcases mi0283qtEnable_of_setUp hFailed hSupply hSetUp with
      ⟨s'', hRetry, hOn⟩
    exact ⟨s'', Effect.bind_of_ok hRetry, hOn⟩

/- The pipe is enabled, with the display on. -/
theorem panel_setUp_on :
    ∃ w, utinydrmEvent Env.displayOn
        (mi0283qtProbe mainSpi true true true false)
        .pipeEnable (World.atProbe (-1)) = .ok 0 w ∧
      SetUpSince Env.displayOn
        (mi0283qtProbe mainSpi true true true false)
        (World.atProbe (-1)) [(.pipeEnable, 0)] w := by
  have hStates : ∃ s w,
      mipiDbiDisplayIsOn Env.displayOn
        (mi0283qtProbe mainSpi true true true false).mspi
        ((World.atProbe (-1)).powered Env.displayOn
          (mi0283qtProbe mainSpi true true true false)) =
        .ok true s ∧
      utinydrmEvent Env.displayOn
        (mi0283qtProbe mainSpi true true true false)
        .pipeEnable (World.atProbe (-1)) = .ok 0 w ∧
      w.prepared = true :=
    ⟨_, _, rfl, rfl, rfl⟩
  rcases hStates with ⟨s, w, hOn, hEnable, hPrepared⟩
  refine ⟨w, hEnable, ?_⟩
  refine (panel_setUp Env.displayOn
    (mi0283qtProbe mainSpi true true true false)
    [(.pipeEnable, 0)] (World.probed_atProbe (-1))
    (.snoc .nil ?_ hEnable)).1 hPrepared
  rintro ⟨_, _, _, t, hReset, _⟩
  exact hReset.not_on s hOn

end Utinydrm

------------------------------------------------------------
-- A Bus That Fails
------------------------------------------------------------

namespace Utinydrm

/-
  The reset gets through and nothing after it: the display
  counts as prepared, without having been set up.
-/
theorem panel_prepared_not_setUp :
    ∃ w, utinydrmEvent (Env.failing fun n => decide (5 ≤ n))
        option1Panel .pipeEnable (World.atProbe (-1)) =
        .ok 0 w ∧
      w.prepared = true ∧
      ¬ SetUp (Env.failing fun n => decide (5 ≤ n))
        option1Panel (World.atProbe (-1)) := by
  let env := Env.failing fun n => decide (5 ≤ n)
  have hBus : EmulatedBus env option1Panel.mspi :=
    emulatedBus_failing _
  have hFails : ∀ n, 5 ≤ n → env.spidev n ≠ none := by
    intro n hLate
    simp [env, Env.failing, hLate]
  have hTx := World.txOk_atProbe (-1)
  have hOn : ∃ s, mipiDbiDisplayIsOn env option1Panel.mspi
      (World.atProbe (-1)) = .ok false s ∧
      s.TxOk ∧ s.now = 0 :=
    ⟨_, rfl, hTx, rfl⟩
  rcases hOn with ⟨s, hOn, hTxOn, hZero⟩
  rcases mipiDbiWriteBuf_command hBus
      MIPI_DCS_SOFT_RESET [] hTxOn (Or.inl rfl) with
    ⟨s₁, hWrite, hTx₁, hNow⟩
  rw [hZero] at hWrite hNow
  have hReset : ResetReturns env option1Panel
      (World.atProbe (-1)) 0 s₁ := ⟨s, s, hOn, rfl, hWrite⟩
  rcases writeCommands_failing hBus 5 hFails
      (mi0283qtSequence option1Panel.rotation) hTx₁
      (by omega) with ⟨s₂, hRest⟩
  -- the first command of the sequence is refused
  rcases mipiDbiWriteBuf_command hBus
      MIPI_DCS_SET_DISPLAY_OFF [] hTx₁ (Or.inl rfl) with
    ⟨t, hOff, _, _⟩
  rw [hNow] at hOff
  have hNoSupply : ¬ SupplyRefused env option1Panel
      (World.atProbe (-1)) := by
    rintro ⟨hPresent, _⟩
    cases hPresent
  have hRefused : SequenceRefused env option1Panel
      (World.atProbe (-1)) :=
    ⟨rfl, hNoSupply, s₁, hReset, .here hOff (by decide)⟩
  have hSetup : mi0283qtSetup env option1Panel
      (World.atProbe (-1)) =
      .ok () { s₂ with prepared := true } := by
    rw [mi0283qtSetup, Effect.bind_of_ok hOn,
      if_neg (by simp),
      Effect.bind_of_ok (show mipiDbiHwReset env option1Panel
        s = .ok () s from rfl),
      Effect.bind_of_ok hWrite, if_neg (by decide),
      Effect.bind_of_ok hRest]
    rfl
  have hEnable : mi0283qtEnable env option1Panel
      (World.atProbe (-1)) =
      .ok () { s₂ with prepared := true } := by
    rw [mi0283qtEnable,
      Effect.bind_of_ok (Effect.get_apply _),
      if_neg (by decide), if_neg (by decide)]
    exact hSetup
  exact ⟨_, Effect.bind_of_ok hEnable, rfl,
    hRefused.not_setUp⟩

end Utinydrm
