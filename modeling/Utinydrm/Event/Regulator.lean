import Utinydrm.Event.Handlers
import Utinydrm.Lib.Transition

/-
  The supply of the panel over runs of the process: how often
  the regulator was enabled, less how often it was disabled.

  Disabling the pipe takes back what enabling it did only for
  a prepared display. Enabling leaves the regulator on without
  a prepared display when the reset command fails.

  Key definitions include:
    * `supply`
    * `Balanced`
    * `ResetRefused`

  Main declarations:
    * `mi0283qtEnable_supplies`
    * `mipiDbiPipeDisable_supplies`
    * `regulator_balanced`
-/

------------------------------------------------------------
-- Accounting
------------------------------------------------------------

namespace Utinydrm

/- What a call adds to the supply. -/
def supplyOf : Call → Int
| .regulatorEnable ret => if ret = 0 then 1 else 0
| .regulatorDisable => -1
| _ => 0

/-
  The calls of `regulator_enable` that succeeded, less those
  of `regulator_disable`.
-/
def supply (calls : List Call) : Int :=
  (calls.map supplyOf).sum

/-
  The supply since an earlier state is one for a prepared
  display, and zero otherwise.
-/
def Balanced (w₀ w : World) : Prop :=
  supply (w.since w₀) = if w.prepared then 1 else 0

/- The calls between the states add to the supply. -/
def Supplies (n : Int) (w w' : World) : Prop :=
  ∃ calls, w'.log = w.log ++ calls ∧ supply calls = n

theorem supply_append (calls calls' : List Call) :
    supply (calls ++ calls') = supply calls + supply calls' := by
  simp [supply]

theorem supply_eq_zero
    {calls : List Call}
    (hNone : ∀ c ∈ calls, supplyOf c = 0) :
    supply calls = 0 := by
  unfold supply
  rw [List.map_congr_left hNone]
  simp

namespace Supplies

theorem refl (w : World) : Supplies 0 w w :=
  ⟨[], by simp, rfl⟩

theorem trans
    {m n : Int} {w₁ w₂ w₃ : World}
    (h₁ : Supplies m w₁ w₂) (h₂ : Supplies n w₂ w₃) :
    Supplies (m + n) w₁ w₃ := by
  rcases h₁ with ⟨calls, hLog, rfl⟩
  rcases h₂ with ⟨calls', hLog', rfl⟩
  exact ⟨calls ++ calls', by simp [hLog', hLog],
    supply_append calls calls'⟩

theorem of_call
    {w w' : World} (call : Call)
    (hLog : w'.log = w.log ++ [call]) :
    Supplies (supplyOf call) w w' :=
  ⟨[call], hLog, by simp [supply]⟩

/- What the supply since an earlier state is then. -/
theorem supply_since
    {n : Int} {w₀ w w' : World}
    (hSupplies : Supplies n w w')
    (hPrefix : w₀.log <+: w.log) :
    supply (w'.since w₀) = supply (w.since w₀) + n := by
  rcases hSupplies with ⟨calls, hLog, rfl⟩
  have hLength := hPrefix.length_le
  rw [World.since, World.since, hLog,
    List.drop_append_of_le_length hLength, supply_append]

theorem prefix_log
    {n : Int} {w w' : World}
    (hSupplies : Supplies n w w') :
    w.log <+: w'.log := by
  rcases hSupplies with ⟨calls, hLog, _⟩
  exact ⟨calls, hLog.symm⟩

end Supplies

/- The regulator and the display are left alone. -/
def sameSupply : Effect.Contract Fault World where
  step := fun w w' =>
    Supplies 0 w w' ∧ w'.prepared = w.prepared
  fault := fun _ _ => True
  refl := fun w => ⟨.refl w, rfl⟩
  trans := fun h₁ h₂ => ⟨h₁.1.trans h₂.1, h₂.2.trans h₁.2⟩

theorem sameSupply_of_call
    {w w' : World} {call : Call}
    (hLog : w'.log = w.log ++ [call])
    (hNone : supplyOf call = 0)
    (hPrepared : w'.prepared = w.prepared) :
    sameSupply.step w w' := by
  refine ⟨?_, hPrepared⟩
  rw [← hNone]
  exact .of_call call hLog

theorem dirtyContract_sameSupply (env : Env) :
    DirtyContract env sameSupply where
  toBusContract := busContract_of_busStep env
    (by
      intro w w' hStep
      rcases hStep.log with ⟨calls, hLog, hBus⟩
      refine ⟨⟨calls, hLog, supply_eq_zero ?_⟩, hStep.prepared⟩
      intro c hc
      have hOnBus := hBus c hc
      cases c
      case regulatorEnable ret => cases hOnBus
      case regulatorDisable => cases hOnBus
      all_goals rfl)
    (fun _ _ => trivial)
  ledOn := fun _ => sameSupply_of_call rfl rfl rfl
  enabled := fun w => ⟨.refl w, rfl⟩

end Utinydrm

------------------------------------------------------------
-- Enabling And Disabling
------------------------------------------------------------

namespace Utinydrm

variable {env : Env} {mipi : MipiDbi} {w w' : World}

/-
  Enabling the pipe switches the supply on and gives up when
  the reset command fails.
-/
def ResetRefused
    (env : Env) (mipi : MipiDbi) (w : World) : Prop :=
  w.prepared = false ∧ ¬ SupplyRefused env mipi w ∧
    ∃ ret s, ResetReturns env mipi (w.powered env mipi) ret s ∧
      ret ≠ 0

/- The setup does not touch the supply. -/
theorem ResetReturns.sameSupply
    {ret : Int}
    (hReset : ResetReturns env mipi w ret w') :
    sameSupply.step w w' := by
  have hBus := (dirtyContract_sameSupply env).toBusContract
  rcases hReset with ⟨s, s₁, hOn, hLine, hWrite⟩
  have hFirst :=
    (meets_mipiDbiDisplayIsOn hBus _ w).of_ok hOn
  have hSecond :=
    (meets_mipiDbiHwReset
      (fun _ _ => sameSupply_of_call rfl rfl rfl) _ s).of_ok
        hLine
  have hThird :=
    (meets_mipiDbiWriteBuf hBus _ _ _ s₁).of_ok hWrite
  exact Utinydrm.sameSupply.trans
    (Utinydrm.sameSupply.trans hFirst hSecond) hThird

/- Switching the supply on counts when it succeeds. -/
theorem supplies_powered
    (hRegulator : mipi.regulator = true)
    (env : Env) (w : World) :
    Supplies (supplyOf (.regulatorEnable
      (env.regulatorEnable w.now))) w (w.powered env mipi) := by
  rw [World.powered, if_pos hRegulator]
  exact .of_call _ rfl

/-
  Enabling an unprepared display: the supply is on when the
  display is prepared, and also when the reset is refused.
-/
theorem mi0283qtEnable_supplies
    (hRegulator : mipi.regulator = true)
    (hPrepared : w.prepared = false)
    (hRun : mi0283qtEnable env mipi w = .ok () w') :
    (¬ ResetRefused env mipi w ∧
      Supplies (if w'.prepared then 1 else 0) w w') ∨
    (ResetRefused env mipi w ∧ w'.prepared = false ∧
      Supplies 1 w w') := by
  have hSupply := supplies_powered hRegulator env w
  have hSame : (w.powered env mipi).prepared = false := by
    rw [World.powered, if_pos hRegulator]
    exact hPrepared
  rcases mi0283qtEnable_cases hRun with
    ⟨hOther, _⟩ | ⟨_, hRefused, rfl⟩ | ⟨_, hGranted, hSetup⟩
  · rw [hPrepared] at hOther
    cases hOther
  · refine Or.inl ⟨fun h => h.2.1 hRefused, ?_⟩
    rw [hSame]
    rwa [supplyOf, if_neg hRefused.2] at hSupply
  have hZero : env.regulatorEnable w.now = 0 := by
    by_contra hNe
    exact hGranted ⟨hRegulator, hNe⟩
  rw [hZero, supplyOf, if_pos rfl] at hSupply
  have hBus := (dirtyContract_sameSupply env).toBusContract
  rcases mi0283qtSetup_cases hSetup with
    ⟨s, hOn, rfl⟩ | ⟨ret, hReset, hRet⟩ |
      ⟨s, s', hReset, hSequence, rfl⟩
  · have hStep := (meets_mipiDbiDisplayIsOn hBus _ _).of_ok hOn
    refine Or.inl ⟨?_, hSupply.trans hStep.1⟩
    rintro ⟨_, _, ret, t, hReset, _⟩
    exact hReset.not_on s hOn
  · have hStep := hReset.sameSupply
    exact Or.inr ⟨⟨hPrepared, hGranted, ret, w', hReset, hRet⟩,
      hStep.2.trans hSame, hSupply.trans hStep.1⟩
  · have hStep := hReset.sameSupply
    have hRest :=
      (meets_writeCommands hBus _ _ s).of_ok hSequence
    refine Or.inl ⟨?_,
      (hSupply.trans hStep.1).trans hRest.1⟩
    rintro ⟨_, _, ret, t, hReset', hRet⟩
    exact hRet (hReset'.unique hReset).1

end Utinydrm

------------------------------------------------------------
-- Disabling
------------------------------------------------------------

namespace Utinydrm

variable {env : Env} {mipi : MipiDbi} {w w' : World}

/- Putting the panel to sleep does not touch the supply. -/
theorem mipiDbiSleep_supplies
    (hRun : mipiDbiSleep env mipi w = .ok () w') :
    Supplies 0 w w' := by
  have hBus := (dirtyContract_sameSupply env).toBusContract
  unfold mipiDbiSleep at hRun
  cases hBacklight : mipi.backlight with
  | false =>
      rw [hBacklight] at hRun
      cases hRun
      exact .refl w
  | true =>
      rw [hBacklight, if_pos rfl] at hRun
      rcases Effect.exists_of_bind_ok hRun with
        ⟨_, s, hOff, hRest⟩
      rcases Effect.exists_of_bind_ok hRest with
        ⟨_, s₁, hSleep, hEnd⟩
      cases hEnd
      have hFirst :=
        (meets_mipiDbiWriteBuf hBus _ _ _ w).of_ok hOff
      have hSecond :=
        (meets_mipiDbiWriteBuf hBus _ _ _ s).of_ok hSleep
      exact hFirst.1.trans hSecond.1

/-
  Disabling takes back what enabling a display that got
  prepared did.
-/
theorem mipiDbiPipeDisable_supplies
    (hRegulator : mipi.regulator = true)
    (hRun : mipiDbiPipeDisable env mipi w = .ok () w') :
    w'.prepared = false ∧
      Supplies (if w.prepared then -1 else 0) w w' := by
  have hBus := (dirtyContract_sameSupply env).toBusContract
  rcases Effect.exists_of_bind_ok hRun with
    ⟨_, s, hTurnOff, hRest⟩
  have hOff := (meets_mipiDbiTurnOff hBus
    (fun _ => sameSupply_of_call rfl rfl rfl) _ w).of_ok hTurnOff
  rcases Effect.exists_of_bind_ok hRest with
    ⟨_, s₁, hDisabled, hRest⟩
  cases hDisabled
  unfold mipiDbiUnprepare at hRest
  rw [Effect.bind_of_ok (Effect.get_apply _)] at hRest
  dsimp only at hRest
  rw [hOff.2] at hRest
  cases hPrepared : w.prepared with
  | false =>
      rw [hPrepared] at hRest
      cases hRest
      exact ⟨rfl, hOff.1⟩
  | true =>
      rw [hPrepared, if_pos rfl] at hRest
      rcases Effect.exists_of_bind_ok hRest with
        ⟨_, s₂, hSleep, hPower⟩
      have hFirst := mipiDbiSleep_supplies hSleep
      rw [mipiDbiPowerOff, hRegulator, if_pos rfl] at hPower
      cases hPower
      refine ⟨rfl, ?_⟩
      have hLast : Supplies (-1) s₂
          { s₂.record .regulatorDisable with
            prepared := false } :=
        .of_call .regulatorDisable rfl
      exact (hOff.1.trans hFirst).trans hLast

end Utinydrm

------------------------------------------------------------
-- Events
------------------------------------------------------------

namespace Utinydrm

variable {env : Env} {mipi : MipiDbi} {w₀ w w' : World}

/- Creating a framebuffer asks nothing of the regulator. -/
theorem sameSupply_of_afterCalls
    (hAfter : w.AfterCalls Call.ofFbCreate w') :
    sameSupply.step w w' := by
  rcases hAfter with ⟨calls, rfl, hCalls⟩
  refine ⟨⟨calls, rfl, supply_eq_zero ?_⟩, rfl⟩
  intro c hc
  have hKind := hCalls c hc
  cases c
  case regulatorEnable ret => cases hKind
  case regulatorDisable => cases hKind
  all_goals rfl

/- The other events leave the supply alone. -/
theorem sameSupply_event
    {event : Event} {ret : Int}
    (hEvent : event ≠ .pipeEnable ∧ event ≠ .pipeDisable)
    (hRun : utinydrmEvent env mipi event w = .ok ret w') :
    sameSupply.step w w' := by
  cases event with
  | pipeEnable => exact absurd rfl hEvent.1
  | pipeDisable => exact absurd rfl hEvent.2
  | fbCreate fbId =>
      rcases utinydrmFbCreate_cases env fbId w with
        ⟨code, s, hAfter, ⟨_, hEq⟩ |
          ⟨ufb, n, info, _, _, _, hEq⟩⟩
      · cases hEq.symm.trans hRun
        exact sameSupply_of_afterCalls hAfter
      · cases hEq.symm.trans hRun
        have hSame := sameSupply_of_afterCalls hAfter
        exact ⟨hSame.1, hSame.2⟩
  | fbDestroy fbId =>
      rcases utinydrmFbDestroy_cases env fbId w with
        hEq | ⟨prev, curr, _, _, _, hEq⟩
      · cases hEq.symm.trans hRun
        exact sameSupply.refl w
      · cases hEq.symm.trans hRun
        exact sameSupply_of_call rfl rfl rfl
  | fbDirty dirty clips =>
      exact (meets_utinydrmFbDirty
        (dirtyContract_sameSupply env)
        (fun w _ => ⟨.refl w, rfl⟩) _ _ _ w).of_ok hRun
  | unknown =>
      cases hRun
      exact sameSupply.refl w

/- The supply is balanced after calls that keep it so. -/
theorem Balanced.of_supplies
    {n : Int}
    (hBalanced : Balanced w₀ w)
    (hPrefix : w₀.log <+: w.log)
    (hSupplies : Supplies n w w') :
    Balanced w₀ w' ↔
      (if w.prepared then 1 else 0) + n =
        if w'.prepared then 1 else 0 := by
  unfold Balanced at hBalanced ⊢
  rw [hSupplies.supply_since hPrefix, hBalanced]

/- Enabling keeps the balance unless it is refused the reset. -/
theorem balanced_enable_iff
    (hRegulator : mipi.regulator = true)
    (hBalanced : Balanced w₀ w)
    (hPrefix : w₀.log <+: w.log)
    (hRun : mi0283qtEnable env mipi w = .ok () w') :
    w₀.log <+: w'.log ∧
      (Balanced w₀ w' ↔ ¬ ResetRefused env mipi w) := by
  cases hPrepared : w.prepared with
  | true =>
      have hSame : w' = w := by
        unfold mi0283qtEnable at hRun
        rw [Effect.bind_of_ok (Effect.get_apply w),
          hPrepared] at hRun
        cases hRun
        rfl
      rw [hSame]
      refine ⟨hPrefix, fun _ h => ?_, fun _ => hBalanced⟩
      rw [h.1] at hPrepared
      cases hPrepared
  | false =>
      rcases mi0283qtEnable_supplies hRegulator hPrepared hRun
        with ⟨hAccepted, hSupplies⟩ |
          ⟨hRefused, hOff, hSupplies⟩
      · refine ⟨hPrefix.trans hSupplies.prefix_log, ?_⟩
        rw [hBalanced.of_supplies hPrefix hSupplies,
          hPrepared]
        simpa using hAccepted
      · refine ⟨hPrefix.trans hSupplies.prefix_log, ?_⟩
        rw [hBalanced.of_supplies hPrefix hSupplies,
          hPrepared, hOff]
        simpa using hRefused

/- Disabling keeps it. -/
theorem balanced_disable
    (hRegulator : mipi.regulator = true)
    (hBalanced : Balanced w₀ w)
    (hPrefix : w₀.log <+: w.log)
    (hRun : mipiDbiPipeDisable env mipi w = .ok () w') :
    w₀.log <+: w'.log ∧ Balanced w₀ w' := by
  rcases mipiDbiPipeDisable_supplies hRegulator hRun with
    ⟨hOff, hSupplies⟩
  refine ⟨hPrefix.trans hSupplies.prefix_log, ?_⟩
  rw [hBalanced.of_supplies hPrefix hSupplies, hOff]
  cases w.prepared <;> rfl

/-
  An event keeps the balance if and only if it is not an
  enable whose reset is refused.
-/
theorem balanced_step_iff
    {label : Event × Int}
    (hRegulator : mipi.regulator = true)
    (hBalanced : Balanced w₀ w)
    (hPrefix : w₀.log <+: w.log)
    (hStep : EventStep env mipi w label w') :
    w₀.log <+: w'.log ∧
      (Balanced w₀ w' ↔
        ¬ (label.1 = .pipeEnable ∧ ResetRefused env mipi w)) := by
  rcases label with ⟨event, ret⟩
  rw [EventStep] at hStep
  dsimp only at hStep ⊢
  by_cases hEnable : event = .pipeEnable
  · subst hEnable
    have hRun := mi0283qtEnable_of_event hStep
    simpa only [true_and] using
      balanced_enable_iff hRegulator hBalanced hPrefix hRun
  have hNot : ¬ (event = .pipeEnable ∧
      ResetRefused env mipi w) := fun h => hEnable h.1
  by_cases hDisable : event = .pipeDisable
  · subst hDisable
    have hRun := mipiDbiPipeDisable_of_event hStep
    rcases balanced_disable hRegulator hBalanced hPrefix hRun
      with ⟨hMore, hKept⟩
    exact ⟨hMore, iff_of_true hKept hNot⟩
  · have hSame := sameSupply_event ⟨hEnable, hDisable⟩ hStep
    refine ⟨hPrefix.trans hSame.1.prefix_log, ?_⟩
    rw [hBalanced.of_supplies hPrefix hSame.1, hSame.2,
      add_zero]
    exact iff_of_true rfl hNot

end Utinydrm

------------------------------------------------------------
-- Runs
------------------------------------------------------------

namespace Utinydrm

variable {env : Env} {mipi : MipiDbi}

/- No enable of the run is refused the reset. -/
def AcceptsReset (env : Env) (mipi : MipiDbi) :
    List (Event × Int) → World → Event × Int → Prop :=
  fun _ w label =>
    ¬ (label.1 = .pipeEnable ∧ ResetRefused env mipi w)

/-
  From the probe on, in every run none of whose enables is
  refused the reset after its supply was switched on, the
  regulator is enabled once for a prepared display and not at
  all for any other. An enable that is refused the reset ends
  that.
-/
theorem regulator_balanced
    (env : Env) (mipi : MipiDbi)
    (hRegulator : mipi.regulator = true)
    {w₀ w : World} (history : List (Event × Int))
    (hProbed : w₀.Probed)
    (hRun : Transition.Run (EventStep env mipi)
      (AcceptsReset env mipi) w₀ history w) :
    Balanced w₀ w ∧
    ∀ label w', EventStep env mipi w label w' →
      (Balanced w₀ w' ↔
        ¬ (label.1 = .pipeEnable ∧
          ResetRefused env mipi w)) := by
  have hInv : Balanced w₀ w ∧ w₀.log <+: w.log := by
    apply hRun.invariant
      (fun w => Balanced w₀ w ∧ w₀.log <+: w.log)
    · refine ⟨?_, List.prefix_refl _⟩
      unfold Balanced
      rw [hProbed.prepared, World.since, List.drop_length]
      rfl
    · rintro _ s label s' ⟨hBalanced, hPrefix⟩ hGuard hStep
      rcases balanced_step_iff hRegulator hBalanced hPrefix
        hStep with ⟨hPrefix', hIff⟩
      exact ⟨hIff.mpr hGuard, hPrefix'⟩
  refine ⟨hInv.1, ?_⟩
  intro label w' hStep
  exact (balanced_step_iff hRegulator hInv.1 hInv.2 hStep).2

/- The pipe is enabled, with the display on. -/
theorem regulator_balanced_enable :
    ∃ w, utinydrmEvent Env.displayOn
        (mi0283qtProbe mainSpi true true true true)
        .pipeEnable (World.atProbe (-1)) = .ok 0 w ∧
      w.prepared = true ∧
      Balanced (World.atProbe (-1)) w := by
  have hStates : ∃ s w,
      mipiDbiDisplayIsOn Env.displayOn
        (mi0283qtProbe mainSpi true true true true).mspi
        ((World.atProbe (-1)).powered Env.displayOn
          (mi0283qtProbe mainSpi true true true true)) =
        .ok true s ∧
      utinydrmEvent Env.displayOn
        (mi0283qtProbe mainSpi true true true true)
        .pipeEnable (World.atProbe (-1)) = .ok 0 w ∧
      w.prepared = true :=
    ⟨_, _, rfl, rfl, rfl⟩
  rcases hStates with ⟨s, w, hOn, hEnable, hPrepared⟩
  refine ⟨w, hEnable, hPrepared, ?_⟩
  refine (regulator_balanced Env.displayOn
    (mi0283qtProbe mainSpi true true true true) rfl
    [(.pipeEnable, 0)] (World.probed_atProbe (-1))
    (.snoc .nil ?_ hEnable)).1
  rintro ⟨_, _, _, ret, t, hReset, _⟩
  exact hReset.not_on s hOn

/-
  On a bus that fails, an enable leaves the regulator enabled
  for a display that is not prepared.
-/
theorem regulator_drifts :
    ∃ w, utinydrmEvent (Env.failing fun _ => true)
        (mi0283qtProbe mainSpi false false true true)
        .pipeEnable (World.atProbe (-1)) = .ok 0 w ∧
      w.prepared = false ∧
      supply (w.since (World.atProbe (-1))) = 1 ∧
      ¬ Balanced (World.atProbe (-1)) w := by
  have hState : ∃ w, utinydrmEvent (Env.failing fun _ => true)
        (mi0283qtProbe mainSpi false false true true)
        .pipeEnable (World.atProbe (-1)) = .ok 0 w ∧
      w.prepared = false ∧
      supply (w.since (World.atProbe (-1))) = 1 :=
    ⟨_, rfl, rfl, rfl⟩
  rcases hState with ⟨w, hEnable, hPrepared, hSupply⟩
  refine ⟨w, hEnable, hPrepared, hSupply, ?_⟩
  unfold Balanced
  rw [hSupply, hPrepared]
  decide

end Utinydrm
