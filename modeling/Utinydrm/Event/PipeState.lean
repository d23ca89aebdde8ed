import Utinydrm.Event.Handlers
import Utinydrm.Lib.Transition

/-
  The display pipe as a state machine: the flags `prepared`
  and `enabled`, and the backlight.

  Key definitions include:
    * `PipeInv`: what holds in every reachable state
    * `SwitchesOn`: a call that turns the backlight on

  Main declarations:
    * `mipiDbiFbDirty_cases`: what a dirty call can do
    * `pipeInv_step` and `pipe_state_machine`
-/

------------------------------------------------------------
-- Enabling And Disabling
------------------------------------------------------------

namespace Utinydrm

/- The backlight is written to be on. -/
def SwitchesOn (call : Call) : Prop :=
  ∃ written, call = .gpio .led true written

/- No call added between the states switches it on. -/
def NoSwitchOn (w w' : World) : Prop :=
  ∃ calls, w'.log = w.log ++ calls ∧
    ∀ c ∈ calls, ¬ SwitchesOn c

namespace NoSwitchOn

theorem refl (w : World) : NoSwitchOn w w :=
  ⟨[], by simp, by simp⟩

theorem trans
    {w₁ w₂ w₃ : World}
    (h₁ : NoSwitchOn w₁ w₂) (h₂ : NoSwitchOn w₂ w₃) :
    NoSwitchOn w₁ w₃ := by
  rcases h₁ with ⟨calls₁, hLog₁, hNone₁⟩
  rcases h₂ with ⟨calls₂, hLog₂, hNone₂⟩
  refine ⟨calls₁ ++ calls₂, by simp [hLog₂, hLog₁], ?_⟩
  intro c hc
  rcases List.mem_append.mp hc with hOld | hNew
  · exact hNone₁ c hOld
  · exact hNone₂ c hNew

theorem of_call
    {w w' : World} {call : Call}
    (hLog : w'.log = w.log ++ [call])
    (hNot : ¬ SwitchesOn call) :
    NoSwitchOn w w' :=
  ⟨[call], hLog, by simpa using hNot⟩

theorem of_busStep
    {w w' : World}
    (hStep : BusStep w w') :
    NoSwitchOn w w' := by
  rcases hStep.log with ⟨calls, hLog, hBus⟩
  refine ⟨calls, hLog, ?_⟩
  rintro c hc ⟨written, rfl⟩
  have hOnBus := hBus _ hc
  cases hOnBus

theorem not_mem_since
    {w w' : World}
    (hNone : NoSwitchOn w w') :
    ∀ c ∈ w'.since w, ¬ SwitchesOn c := by
  rcases hNone with ⟨calls, hLog, hCalls⟩
  simpa [World.since, hLog] using hCalls

end NoSwitchOn

/-
  Enabling the pipe: the display can become prepared, and
  everything else stays as it was.
-/
def enableStep : Effect.Contract Fault World where
  step := fun w w' => w'.enabled = w.enabled ∧
    w'.level .led = w.level .led ∧
    (w.prepared = true → w'.prepared = true) ∧
    w'.fbs = w.fbs ∧ NoSwitchOn w w'
  fault := fun _ _ => True
  refl := fun w => ⟨rfl, rfl, id, rfl, NoSwitchOn.refl w⟩
  trans := by
    rintro w₁ w₂ w₃ ⟨hOn₁, hLed₁, hPrep₁, hFbs₁, hNone₁⟩
      ⟨hOn₂, hLed₂, hPrep₂, hFbs₂, hNone₂⟩
    exact ⟨hOn₂.trans hOn₁, hLed₂.trans hLed₁,
      fun h => hPrep₂ (hPrep₁ h), hFbs₂.trans hFbs₁,
      hNone₁.trans hNone₂⟩

theorem enableContract_enableStep (env : Env) :
    EnableContract env enableStep where
  toBusContract := busContract_of_busStep env
    (fun _ _ hStep => ⟨hStep.enabled, hStep.level _ (by simp),
      fun h => hStep.prepared.trans h, hStep.fbs,
      .of_busStep hStep⟩)
    (fun _ _ => trivial)
  reset := fun _ _ => ⟨rfl,
    World.afterGpio_level_ne (by simp), id, rfl,
    .of_call rfl (by simp [SwitchesOn])⟩
  regulatorEnable := fun _ => ⟨rfl, rfl, id, rfl,
    .of_call rfl (by simp [SwitchesOn])⟩
  prepared := fun w => ⟨rfl, rfl, fun _ => rfl, rfl,
    NoSwitchOn.refl w⟩

/-
  Disabling the pipe: what is off stays off.
-/
def disableStep : Effect.Contract Fault World where
  step := fun w w' =>
    (w.enabled = false → w'.enabled = false) ∧
    (w.level .led = false → w'.level .led = false) ∧
    w'.fbs = w.fbs ∧ NoSwitchOn w w'
  fault := fun _ _ => True
  refl := fun w => ⟨id, id, rfl, NoSwitchOn.refl w⟩
  trans := by
    rintro w₁ w₂ w₃ ⟨hOff₁, hLed₁, hFbs₁, hNone₁⟩
      ⟨hOff₂, hLed₂, hFbs₂, hNone₂⟩
    exact ⟨fun h => hOff₂ (hOff₁ h), fun h => hLed₂ (hLed₁ h),
      hFbs₂.trans hFbs₁, hNone₁.trans hNone₂⟩

theorem disableContract_disableStep (env : Env) :
    DisableContract env disableStep where
  toBusContract := busContract_of_busStep env
    (fun _ _ hStep => ⟨fun h => hStep.enabled.trans h,
      fun h => (hStep.level _ (by simp)).trans h, hStep.fbs,
      .of_busStep hStep⟩)
    (fun _ _ => trivial)
  ledOff := by
    intro w
    refine ⟨id, ?_, rfl, .of_call rfl (by simp [SwitchesOn])⟩
    intro hOff
    simp only [World.afterGpio]
    split
    · simp
    · exact hOff
  disabled := fun w => ⟨fun _ => rfl, id, rfl,
    NoSwitchOn.refl w⟩
  regulatorDisable := fun _ => ⟨id, id, rfl,
    .of_call rfl (by simp [SwitchesOn])⟩
  unprepared := fun w => ⟨id, id, rfl, NoSwitchOn.refl w⟩

end Utinydrm

------------------------------------------------------------
-- Dirty Calls
------------------------------------------------------------

namespace Utinydrm

variable {env : Env}

/- The state after the end of a first successful flush. -/
def World.switchOn
    (env : Env) (mipi : MipiDbi) (w : World) : World :=
  if mipi.backlight then
    { w.afterGpio env .led true with enabled := true }
  else
    { w with enabled := true }

/- A flush is the third of three writes. -/
theorem exists_flush
    {mipi : MipiDbi} {fb : UtinydrmFb} {clip : DrmClipRect}
    {ret : Int} {w w' : World}
    (hRun : mipiDbiFbFlush env mipi fb clip w = .ok ret w') :
    ∃ s, BusStep w s ∧
      tinydrmRegmapFlushRgb565 env mipi.mspi
        MIPI_DCS_WRITE_MEMORY_START fb (.mapped fb.map) clip
        s = .ok ret w' := by
  have hBus := busContract_busStep env
  rcases Effect.exists_of_bind_ok hRun with
    ⟨_, s₁, hColumn, hRest⟩
  rcases Effect.exists_of_bind_ok hRest with
    ⟨_, s₂, hPage, hFlush⟩
  have hFirst :=
    (meets_mipiDbiWriteBuf hBus _ _ _ w).of_ok hColumn
  have hSecond :=
    (meets_mipiDbiWriteBuf hBus _ _ _ s₁).of_ok hPage
  exact ⟨s₂, hFirst.trans hSecond, hFlush⟩

theorem mipiDbiFbEnable_eq
    (env : Env) (mipi : MipiDbi) (w : World) :
    mipiDbiFbEnable env mipi 0 w =
      .ok 0 (if w.enabled then w else w.switchOn env mipi) := by
  unfold mipiDbiFbEnable
  rw [Effect.bind_of_ok (Effect.get_apply w)]
  cases hEnabled : w.enabled with
  | true => rfl
  | false =>
      cases hLed : mipi.backlight <;>
        simp [tinydrmEnableBacklight, World.switchOn, hLed] <;>
        rfl

/-
  A dirty call does nothing while the display is not
  prepared. Otherwise it flushes a clip, the whole screen
  when the pipe is not enabled yet, and ends there or, after
  a first flush that succeeded, switches on.
-/
theorem mipiDbiFbDirty_cases
    {mipi : MipiDbi} {fb : UtinydrmFb} {flags : UInt32}
    {clips : Option (Nat → DrmClipRect)} {numClips : UInt32}
    {ret : Int} {w w' : World}
    (hRun : mipiDbiFbDirty env mipi fb flags clips numClips w =
      .ok ret w') :
    (w.prepared = false ∧ ret = 0 ∧ w' = w) ∨
    (w.prepared = true ∧ ∃ clip s s', BusStep w s ∧
      tinydrmRegmapFlushRgb565 env mipi.mspi
        MIPI_DCS_WRITE_MEMORY_START fb (.mapped fb.map) clip
        s = .ok ret s' ∧
      ((w' = s' ∧ (ret = 0 → w.enabled = true)) ∨
        (ret = 0 ∧ w.enabled = false ∧
          clip = fullClip fb.width fb.height ∧
          w' = s'.switchOn env mipi))) := by
  unfold mipiDbiFbDirty at hRun
  rw [Effect.bind_of_ok (Effect.get_apply w)] at hRun
  cases hPrepared : w.prepared with
  | false =>
      simp only [tinydrmCheckDirty, hPrepared, if_true]
        at hRun
      cases hRun
      exact Or.inl ⟨rfl, rfl, rfl⟩
  | true =>
  refine Or.inr ⟨rfl, ?_⟩
  rw [tinydrmCheckDirty_prepared hPrepared] at hRun
  rcases Effect.exists_of_bind_ok hRun with
    ⟨code, s', hFlush, hEnd⟩
  rcases exists_flush hFlush with ⟨s, hStep, hWrite⟩
  have hSame : BusStep s s' :=
    (meets_tinydrmRegmapFlushRgb565 (busContract_busStep env)
      _ _ _ _ _ s).of_ok hWrite
  have hEnabled : s'.enabled = w.enabled :=
    hSame.enabled.trans hStep.enabled
  by_cases hCode : code = 0
  · subst hCode
    simp only [ne_eq, not_true_eq_false, if_false,
      mipiDbiFbEnable_eq, hEnabled] at hEnd
    cases hOn : w.enabled with
    | true =>
        simp only [hOn, if_true] at hEnd
        cases hEnd
        exact ⟨_, s, _, hStep, hWrite,
          Or.inl ⟨rfl, fun _ => rfl⟩⟩
    | false =>
        -- the first flush is one of everything
        simp only [hOn, Bool.false_eq_true, if_false]
          at hEnd hWrite
        cases hEnd
        exact ⟨_, s, s', hStep, hWrite,
          Or.inr ⟨rfl, rfl, rfl, rfl⟩⟩
  · simp only [ne_eq, hCode, not_false_eq_true, if_true]
      at hEnd
    cases hEnd
    exact ⟨_, s, _, hStep, hWrite,
      Or.inl ⟨rfl, fun h => absurd h hCode⟩⟩

end Utinydrm

------------------------------------------------------------
-- The Invariant
------------------------------------------------------------

namespace Utinydrm

variable {env : Env} {mipi : MipiDbi}

/- The kernel gives framebuffers the driver can address. -/
def Env.SmallFbs (env : Env) : Prop :=
  ∀ n info, env.getFb n = .ok info →
    info.width.toNat ≤ 65535 ∧ info.height.toNat ≤ 65535

/- Writing the backlight line succeeds. -/
def Env.LedWritable (env : Env) : Prop :=
  ∀ n, env.gpio .led n = true

/- What holds in every reachable state. -/
structure PipeInv (mipi : MipiDbi) (w : World) : Prop where
  prepared : w.enabled = true → w.prepared = true
  backlight : mipi.backlight = true →
    w.level .led = w.enabled
  sizes : ∀ ufb ∈ w.fbs,
    ufb.width.toNat ≤ 65535 ∧ ufb.height.toNat ≤ 65535

theorem PipeInv.of_enableStep
    {w w' : World}
    (hInv : PipeInv mipi w)
    (hStep : enableStep.step w w') :
    PipeInv mipi w' := by
  rcases hStep with ⟨hEnabled, hLed, hPrepared, hFbs, _⟩
  constructor
  · intro hOn
    exact hPrepared (hInv.prepared (hEnabled ▸ hOn))
  · intro hPresent
    rw [hLed, hEnabled]
    exact hInv.backlight hPresent
  · rw [hFbs]
    exact hInv.sizes

/- The frame of the bus keeps it. -/
theorem PipeInv.of_busStep
    {w w' : World}
    (hInv : PipeInv mipi w)
    (hStep : BusStep w w') :
    PipeInv mipi w' :=
  hInv.of_enableStep
    ⟨hStep.enabled, hStep.level _ (by simp),
      fun h => hStep.prepared.trans h, hStep.fbs,
      .of_busStep hStep⟩

/- Other framebuffers, flags and lines as they were. -/
theorem PipeInv.of_fbs
    {w : World}
    (hInv : PipeInv mipi w)
    {log : List Call} {fbs : List UtinydrmFb}
    {planeFb : Option UtinydrmFb}
    (hSizes : ∀ ufb ∈ fbs,
      ufb.width.toNat ≤ 65535 ∧ ufb.height.toNat ≤ 65535) :
    PipeInv mipi
      { w with log := log, fbs := fbs, planeFb := planeFb } :=
  ⟨hInv.prepared, hInv.backlight, hSizes⟩

/- Disabling ends with the pipe and the backlight off. -/
theorem pipeInv_disable
    {w w' : World}
    (hLed : env.LedWritable)
    (hInv : PipeInv mipi w)
    (hRun : mipiDbiPipeDisable env mipi w = .ok () w') :
    PipeInv mipi w' := by
  have hDisable := disableContract_disableStep env
  rcases Effect.exists_of_bind_ok hRun with
    ⟨_, s, hTurnOff, hRest⟩
  have hFirst :=
    (meets_mipiDbiTurnOff hDisable.toBusContract
      hDisable.ledOff _ w).of_ok hTurnOff
  have hLast :=
    (meets_mipiDbiUnprepare hDisable mipi
      { s with enabled := false }).of_ok hRest
  have hOff : mipi.backlight = true →
      s.level .led = false := by
    intro hPresent
    unfold mipiDbiTurnOff at hTurnOff
    rw [Effect.bind_of_ok (Effect.get_apply w)] at hTurnOff
    cases hEnabled : w.enabled with
    | false =>
        rw [hEnabled] at hTurnOff
        cases hTurnOff
        rw [hInv.backlight hPresent, hEnabled]
    | true =>
        rw [hEnabled, if_pos rfl, hPresent, if_pos rfl]
          at hTurnOff
        cases hTurnOff
        exact World.afterGpio_level_self (hLed _)
  have hEnabled := hLast.1 rfl
  constructor
  · intro hOn
    rw [hEnabled] at hOn
    cases hOn
  · intro hPresent
    rw [hEnabled]
    exact hLast.2.1 (hOff hPresent)
  · rw [hLast.2.2.1]
    change ∀ ufb ∈ s.fbs, _
    rw [hFirst.2.2.1]
    exact hInv.sizes

/- A first flush switches on only a prepared display. -/
theorem pipeInv_switchOn
    {w : World}
    (hLed : env.LedWritable)
    (hInv : PipeInv mipi w)
    (hPrepared : w.prepared = true) :
    PipeInv mipi (w.switchOn env mipi) := by
  unfold World.switchOn
  split
  case isTrue hPresent =>
    refine ⟨fun _ => hPrepared, fun _ => ?_, hInv.sizes⟩
    exact World.afterGpio_level_self (hLed _)
  case isFalse hAbsent =>
    exact ⟨fun _ => hPrepared, fun h => absurd h hAbsent,
      hInv.sizes⟩

theorem pipeInv_dirty
    {fb : UtinydrmFb} {flags : UInt32}
    {clips : Option (Nat → DrmClipRect)} {numClips : UInt32}
    {ret : Int} {w w' : World}
    (hLed : env.LedWritable)
    (hInv : PipeInv mipi w)
    (hRun : mipiDbiFbDirty env mipi fb flags clips numClips w =
      .ok ret w') :
    PipeInv mipi w' := by
  rcases mipiDbiFbDirty_cases hRun with
    ⟨_, _, rfl⟩ | ⟨hPrepared, clip, s, s', hStep, hFlush, hEnd⟩
  · exact hInv
  have hSame : BusStep s s' :=
    (meets_tinydrmRegmapFlushRgb565 (busContract_busStep env)
      _ _ _ _ _ s).of_ok hFlush
  have hFlushed := hStep.trans hSame
  rcases hEnd with ⟨rfl, _⟩ | ⟨_, _, _, rfl⟩
  · exact hInv.of_busStep hFlushed
  · exact pipeInv_switchOn hLed (hInv.of_busStep hFlushed)
      (hFlushed.prepared.trans hPrepared)

end Utinydrm

------------------------------------------------------------
-- Runs
------------------------------------------------------------

namespace Utinydrm

variable {env : Env} {mipi : MipiDbi}

/- A dirty event marks its framebuffer and flushes it. -/
theorem utinydrmFbDirty_cases
    {dirty : DrmModeFbDirtyCmd} {clips : Nat → DrmClipRect}
    {ret : Int} {w w' : World}
    (hRun : utinydrmFbDirty env mipi dirty clips w =
      .ok ret w') :
    w' = w ∨ ∃ ufb ∈ w.fbs, ufb.id = dirty.fbId ∧ ∃ code,
      mipiDbiFbDirty env mipi ufb dirty.flags (some clips)
        dirty.numClips { w with planeFb := some ufb } =
          .ok code w' := by
  unfold utinydrmFbDirty at hRun
  rw [Effect.bind_of_ok (Effect.get_apply w)] at hRun
  cases hFind :
      w.fbs.find? (fun ufb => ufb.id = dirty.fbId) with
  | none =>
      simp only [hFind] at hRun
      cases hRun
      exact Or.inl rfl
  | some ufb =>
      simp only [hFind] at hRun
      rcases Effect.exists_of_bind_ok hRun with
        ⟨_, s, hPlane, hRest⟩
      cases hPlane
      rcases Effect.exists_of_bind_ok hRest with
        ⟨code, s', hDirty, hEnd⟩
      cases hEnd
      have hId : ufb.id = dirty.fbId := by
        simpa using List.find?_some hFind
      exact Or.inr ⟨ufb, List.mem_of_find?_eq_some hFind, hId,
        code, hDirty⟩

theorem pipeInv_step
    {w w' : World} {label : Event × Int}
    (hLed : env.LedWritable) (hSmall : env.SmallFbs)
    (hInv : PipeInv mipi w)
    (hStep : EventStep env mipi w label w') :
    PipeInv mipi w' := by
  rcases label with ⟨event, ret⟩
  rw [EventStep] at hStep
  cases event with
  | pipeEnable =>
      have hRun := mi0283qtEnable_of_event hStep
      exact hInv.of_enableStep ((meets_mi0283qtEnable
        (enableContract_enableStep env) _ w).of_ok hRun)
  | pipeDisable =>
      exact pipeInv_disable hLed hInv
        (mipiDbiPipeDisable_of_event hStep)
  | fbCreate fbId =>
      rcases utinydrmFbCreate_cases env fbId w with
        ⟨code, s, ⟨calls, rfl, _⟩, ⟨_, hRun⟩ |
          ⟨ufb, n, info, hInfo, hMade, _, hRun⟩⟩
      · cases hRun.symm.trans hStep
        exact hInv.of_fbs hInv.sizes
      · cases hRun.symm.trans hStep
        apply hInv.of_fbs
        intro fb hMem
        rcases List.mem_cons.mp hMem with hNew | hOld
        · rw [hNew, hMade.width, hMade.height]
          exact hSmall n info hInfo
        · exact hInv.sizes fb hOld
  | fbDestroy fbId =>
      rcases utinydrmFbDestroy_cases env fbId w with
        hRun | ⟨prev, curr, _, _, _, hRun⟩
      · cases hRun.symm.trans hStep
        exact hInv
      · cases hRun.symm.trans hStep
        apply hInv.of_fbs
        intro fb hMem
        exact hInv.sizes fb (mem_of_mem_unlinkSlot hMem)
  | fbDirty dirty clips =>
      rcases utinydrmFbDirty_cases hStep with
        rfl | ⟨ufb, _, _, code, hRun⟩
      · exact hInv
      · exact pipeInv_dirty hLed (hInv.of_fbs hInv.sizes) hRun
  | unknown =>
      cases hStep
      exact hInv

theorem pipeInv_run
    {w₀ w : World} {history : List (Event × Int)}
    (hLed : env.LedWritable) (hSmall : env.SmallFbs)
    (hProbed : w₀.Probed)
    (hRun : Transition.Run (EventStep env mipi)
      Transition.unguarded w₀ history w) :
    PipeInv mipi w := by
  apply hRun.invariant (PipeInv mipi)
  · constructor
    · intro hOn
      rw [hProbed.enabled] at hOn
      cases hOn
    · intro _
      rw [hProbed.led, hProbed.enabled]
    · simp [hProbed.fbs]
  · intro _ s label s' hInv _ hStep
    exact pipeInv_step hLed hSmall hInv hStep

/- An event that turns the backlight on, or writes it to be. -/
def TurnsOn (w w' : World) : Prop :=
  (w.level .led = false ∧ w'.level .led = true) ∨
    ∃ c ∈ w'.since w, SwitchesOn c

theorem not_turnsOn
    {w w' : World}
    (hLed : w.level .led = false → w'.level .led = false)
    (hNone : NoSwitchOn w w') :
    ¬ TurnsOn w w' := by
  rintro (⟨hOff, hOn⟩ | ⟨c, hMem, hSwitch⟩)
  · rw [hLed hOff] at hOn
    cases hOn
  · exact hNone.not_mem_since c hMem hSwitch

/- The events that are not dirty calls never turn it on. -/
theorem not_turnsOn_event
    {event : Event} {ret : Int} {w w' : World}
    (hEvent : ∀ dirty clips, event ≠ .fbDirty dirty clips)
    (hRun : utinydrmEvent env mipi event w = .ok ret w') :
    ¬ TurnsOn w w' := by
  cases event with
  | pipeEnable =>
      have hEnable := mi0283qtEnable_of_event hRun
      have hStep := (meets_mi0283qtEnable
        (enableContract_enableStep env) _ w).of_ok hEnable
      exact not_turnsOn (fun h => hStep.2.1.trans h)
        hStep.2.2.2.2
  | pipeDisable =>
      have hDisable := mipiDbiPipeDisable_of_event hRun
      have hStep := (meets_mipiDbiPipeDisable
        (disableContract_disableStep env) _ w).of_ok hDisable
      exact not_turnsOn hStep.2.1 hStep.2.2.2
  | fbCreate fbId =>
      rcases utinydrmFbCreate_cases env fbId w with
        ⟨code, s, ⟨calls, rfl, hCalls⟩, ⟨_, hEq⟩ |
          ⟨ufb, n, info, _, _, _, hEq⟩⟩
      all_goals
        cases hEq.symm.trans hRun
        refine not_turnsOn id ⟨calls, rfl, ?_⟩
        rintro c hc ⟨written, rfl⟩
        cases hCalls _ hc
  | fbDestroy fbId =>
      rcases utinydrmFbDestroy_cases env fbId w with
        hEq | ⟨prev, curr, _, _, _, hEq⟩
      · cases hEq.symm.trans hRun
        exact not_turnsOn id (NoSwitchOn.refl w)
      · cases hEq.symm.trans hRun
        exact not_turnsOn id
          (.of_call rfl (by simp [SwitchesOn]))
  | fbDirty dirty clips => exact absurd rfl (hEvent _ _)
  | unknown =>
      cases hRun
      exact not_turnsOn id (NoSwitchOn.refl w)

end Utinydrm

------------------------------------------------------------
-- The State Machine
------------------------------------------------------------

namespace Utinydrm

/- The clip is the rectangle from (0, 0) to the full size. -/
def FullScreen (clip : DrmClipRect) (fb : UtinydrmFb) : Prop :=
  clip.x1 = 0 ∧ clip.y1 = 0 ∧
    clip.x2.toNat = fb.width.toNat ∧
    clip.y2.toNat = fb.height.toNat

theorem fullScreen_fullClip
    {fb : UtinydrmFb}
    (hWidth : fb.width.toNat ≤ 65535)
    (hHeight : fb.height.toNat ≤ 65535) :
    FullScreen (fullClip fb.width fb.height) fb := by
  refine ⟨rfl, rfl, ?_, ?_⟩
  · simp only [fullClip, UInt32.toNat_toUInt16]
    omega
  · simp only [fullClip, UInt32.toNat_toUInt16]
    omega

variable {env : Env} {mipi : MipiDbi}

/- A dirty call of the framebuffer, whose flush succeeded. -/
def FlushedWhole
    (env : Env) (mipi : MipiDbi)
    (w : World) (dirty : DrmModeFbDirtyCmd) (w' : World) :
    Prop :=
  ∃ ufb ∈ w.fbs, ufb.id = dirty.fbId ∧
    ∃ clip s s', FullScreen clip ufb ∧
      BusStep { w with planeFb := some ufb } s ∧
      tinydrmRegmapFlushRgb565 env mipi.mspi
        MIPI_DCS_WRITE_MEMORY_START ufb (.mapped ufb.map) clip
        s = .ok 0 s' ∧
      s'.log <+: w'.log

/- A dirty event that turns the backlight on flushed it all. -/
theorem flushedWhole_of_turnsOn
    {dirty : DrmModeFbDirtyCmd} {clips : Nat → DrmClipRect}
    {ret : Int} {w w' : World}
    (hInv : PipeInv mipi w)
    (hRun : utinydrmFbDirty env mipi dirty clips w =
      .ok ret w')
    (hOn : TurnsOn w w') :
    FlushedWhole env mipi w dirty w' := by
  rcases utinydrmFbDirty_cases hRun with
    rfl | ⟨ufb, hMem, hId, code, hDirty⟩
  · exact absurd hOn (not_turnsOn id (NoSwitchOn.refl _))
  rcases mipiDbiFbDirty_cases hDirty with
    ⟨_, _, rfl⟩ | ⟨hPrepared, clip, s, s', hStep, hFlush, hEnd⟩
  · exact absurd hOn (not_turnsOn id (NoSwitchOn.refl _))
  have hSame : BusStep s s' :=
    (meets_tinydrmRegmapFlushRgb565 (busContract_busStep env)
      _ _ _ _ _ s).of_ok hFlush
  rcases hEnd with ⟨rfl, _⟩ | ⟨hRet, _, hClip, rfl⟩
  · -- the flush alone does not touch the backlight
    have hFlushed := hStep.trans hSame
    have hLed := hFlushed.level .led (by simp)
    have hNone := NoSwitchOn.of_busStep hFlushed
    exact absurd hOn
      (not_turnsOn (fun h => hLed.trans h) hNone)
  · have hSizes := hInv.sizes ufb hMem
    refine ⟨ufb, hMem, hId, clip, s, s', ?_, hStep, ?_, ?_⟩
    · rw [hClip]
      exact fullScreen_fullClip hSizes.1 hSizes.2
    · rw [hRet] at hFlush
      exact hFlush
    · unfold World.switchOn
      split
      · exact List.prefix_append _ _
      · exact List.prefix_refl _

/- A dirty event before the display is prepared does nothing. -/
theorem dirty_unprepared
    {dirty : DrmModeFbDirtyCmd} {clips : Nat → DrmClipRect}
    {ret : Int} {w w' : World}
    (hPrepared : w.prepared = false)
    (hRun : utinydrmFbDirty env mipi dirty clips w =
      .ok ret w') :
    w'.log = w.log ∧ w'.prepared = w.prepared ∧
      w'.enabled = w.enabled := by
  rcases utinydrmFbDirty_cases hRun with
    rfl | ⟨ufb, _, _, code, hDirty⟩
  · exact ⟨rfl, rfl, rfl⟩
  rcases mipiDbiFbDirty_cases hDirty with
    ⟨_, _, rfl⟩ | ⟨hOther, _⟩
  · exact ⟨rfl, rfl, rfl⟩
  · exact absurd (hPrepared.symm.trans hOther) (by simp)

/-
  From the probe on, the pipe is only enabled when the
  display is prepared, a backlight that is present is on
  exactly when the pipe is enabled, it is turned on only by
  a dirty call after a flush of the whole screen that
  returned 0, and a dirty call before the display is
  prepared sends nothing and changes neither flag.
-/
theorem pipe_state_machine
    (env : Env) (mipi : MipiDbi)
    (hLed : env.LedWritable) (hSmall : env.SmallFbs)
    {w₀ w : World} (history : List (Event × Int))
    (hProbed : w₀.Probed)
    (hRun : Transition.Run (EventStep env mipi)
      Transition.unguarded w₀ history w) :
    (w.enabled = true → w.prepared = true) ∧
    (mipi.backlight = true → w.level .led = w.enabled) ∧
    ∀ event ret w',
      utinydrmEvent env mipi event w = .ok ret w' →
      (TurnsOn w w' → ∃ dirty clips,
        event = .fbDirty dirty clips ∧
        FlushedWhole env mipi w dirty w') ∧
      (∀ dirty clips, event = .fbDirty dirty clips →
        w.prepared = false →
        w'.log = w.log ∧ w'.prepared = w.prepared ∧
          w'.enabled = w.enabled) := by
  have hInv := pipeInv_run hLed hSmall hProbed hRun
  refine ⟨hInv.prepared, hInv.backlight, ?_⟩
  intro event ret w' hEvent
  refine ⟨?_, ?_⟩
  · intro hOn
    by_cases hDirty : ∃ dirty clips,
        event = .fbDirty dirty clips
    · rcases hDirty with ⟨dirty, clips, rfl⟩
      exact ⟨dirty, clips, rfl,
        flushedWhole_of_turnsOn hInv hEvent hOn⟩
    · refine absurd hOn (not_turnsOn_event ?_ hEvent)
      intro dirty clips hEq
      exact hDirty ⟨dirty, clips, hEq⟩
  · rintro dirty clips rfl hPrepared
    exact dirty_unprepared hPrepared hEvent

/- A framebuffer is created, then the pipe is enabled. -/
theorem pipe_state_machine_enable :
    ∃ w₁ w₂,
      utinydrmEvent Env.displayOn
        (mi0283qtProbe mainSpi true true true false)
        (.fbCreate 1) (World.atProbe (-1)) = .ok 0 w₁ ∧
      utinydrmEvent Env.displayOn
        (mi0283qtProbe mainSpi true true true false)
        .pipeEnable w₁ = .ok 0 w₂ ∧
      w₂.prepared = true ∧ w₂.level .led = w₂.enabled ∧
      ∀ dirty clips ret w',
        utinydrmEvent Env.displayOn
          (mi0283qtProbe mainSpi true true true false)
          (.fbDirty dirty clips) w₂ = .ok ret w' →
        TurnsOn w₂ w' →
        ∃ dirty' clips',
          Event.fbDirty dirty clips = .fbDirty dirty' clips' ∧
          FlushedWhole Env.displayOn
            (mi0283qtProbe mainSpi true true true false)
            w₂ dirty' w' := by
  have hStates : ∃ w₁ w₂,
      utinydrmEvent Env.displayOn
        (mi0283qtProbe mainSpi true true true false)
        (.fbCreate 1) (World.atProbe (-1)) = .ok 0 w₁ ∧
      utinydrmEvent Env.displayOn
        (mi0283qtProbe mainSpi true true true false)
        .pipeEnable w₁ = .ok 0 w₂ ∧ w₂.prepared = true :=
    ⟨_, _, rfl, rfl, rfl⟩
  rcases hStates with ⟨w₁, w₂, hCreate, hEnable, hPrepared⟩
  have hSmall : Env.displayOn.SmallFbs := by
    intro n info hInfo
    cases hInfo
    decide
  have hMachine := pipe_state_machine Env.displayOn
    (mi0283qtProbe mainSpi true true true false)
    (fun _ => rfl) hSmall
    [(.fbCreate 1, 0), (.pipeEnable, 0)]
    (World.probed_atProbe (-1))
    (.snoc (.snoc .nil trivial hCreate) trivial hEnable)
  refine ⟨w₁, w₂, hCreate, hEnable, hPrepared,
    hMachine.2.1 rfl, ?_⟩
  intro dirty clips ret w' hDirty hOn
  exact (hMachine.2.2 _ _ _ hDirty).1 hOn

end Utinydrm
