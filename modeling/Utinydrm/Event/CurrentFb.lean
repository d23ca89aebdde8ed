import Utinydrm.Event.PipeState
import Utinydrm.Event.Registry

/-
  The framebuffer of the plane, `plane.state->fb`.

  A dirty event makes its framebuffer the current one. A
  destroy event does not look at it: when the current
  framebuffer is taken off the list it stays current, and
  enabling the pipe still finds it.

  Key definitions include:
    * `unmappedBy` and `UnmapStep`
    * `Unlinks` and `SparesCurrent`
    * `CurrentOk`

  Main declarations:
    * `fbOutcome_of_step`: what an event does to the list
    * `fbsOk_of_outcome`
    * `currentOk_iff_of_outcome` and `current_fb_iff`
-/

------------------------------------------------------------
-- The Current Framebuffer
------------------------------------------------------------

namespace Utinydrm

/- The framebuffer whose memory an event unmaps. -/
def unmappedBy (w : World) : Event → Option UtinydrmFb
| .fbDestroy fbId =>
    (findSlots fbId w.fbs 0 0).map fun found => found.2.2
| _ => none

/- An event with its result and the framebuffer it unmaps. -/
abbrev UnmapLabel : Type := Event × Int × Option UtinydrmFb

def UnmapStep
    (env : Env) (mipi : MipiDbi)
    (w : World) (label : UnmapLabel) (w' : World) : Prop :=
  EventStep env mipi w (label.1, label.2.1) w' ∧
    label.2.2 = unmappedBy w label.1

/- The framebuffers that were unmapped, oldest first. -/
def unmappedIn (history : List UnmapLabel) : List UtinydrmFb :=
  history.filterMap fun label => label.2.2

/-
  The event takes the framebuffer off the list: it destroys
  it, or the entry right behind it.
-/
def Unlinks
    (w : World) (event : Event) (fb : UtinydrmFb) : Prop :=
  ∃ before entry after, event = .fbDestroy entry.id ∧
    w.fbs = before ++ entry :: after ∧
    entry.id ∉ fbIds before ∧
    (fb = entry ∨ before.getLast? = some fb)

/- The event does not take the current framebuffer off. -/
def SparesCurrent (w : World) (event : Event) : Prop :=
  ∀ fb, w.planeFb = some fb → ¬ Unlinks w event fb

/-
  There is no current framebuffer, or it is a listed one that
  was not unmapped.
-/
structure CurrentOk
    (unmapped : List UtinydrmFb) (w : World) : Prop where
  listed : ∀ fb, w.planeFb = some fb → fb ∈ w.fbs
  mapped : ∀ fb, w.planeFb = some fb → fb ∉ unmapped

theorem unmappedIn_snoc
    (history : List UnmapLabel) (label : UnmapLabel) :
    unmappedIn (history ++ [label]) =
      unmappedIn history ++ label.2.2.toList := by
  rw [unmappedIn, List.filterMap_append]
  cases hLabel : label.2.2 <;>
    simp [unmappedIn, hLabel]

end Utinydrm

------------------------------------------------------------
-- What An Event Does
------------------------------------------------------------

namespace Utinydrm

variable {env : Env} {mipi : MipiDbi}

/-
  The four things an event with a framebuffer it unmaps can
  do to the list and the current framebuffer.
-/
inductive FbOutcome
    (w w' : World) : Event → Option UtinydrmFb → Prop
| kept {event : Event} :
    (∀ fb, ¬ Unlinks w event fb) →
    w'.fbs = w.fbs → w'.planeFb = w.planeFb →
    FbOutcome w w' event none
| shown {event : Event} (fb : UtinydrmFb) :
    (∀ fb, ¬ Unlinks w event fb) →
    w'.fbs = w.fbs → fb ∈ w.fbs → w'.planeFb = some fb →
    FbOutcome w w' event none
| created {event : Event} (fb : UtinydrmFb) :
    (∀ fb, ¬ Unlinks w event fb) →
    fb.AllocatedSince w w' →
    w'.fbs = fb :: w.fbs → w'.planeFb = w.planeFb →
    FbOutcome w w' event none
| destroyed (before after : List UtinydrmFb)
    (entry : UtinydrmFb) :
    w.fbs = before ++ entry :: after →
    entry.id ∉ fbIds before →
    w'.fbs = before.dropLast ++ after →
    w'.planeFb = w.planeFb →
    FbOutcome w w' (.fbDestroy entry.id) (some entry)

/- The list and the current framebuffer are left alone. -/
def planeStep : Effect.Contract Fault World where
  step := fun w w' => w'.fbs = w.fbs ∧
    w'.planeFb = w.planeFb ∧ w.now ≤ w'.now
  fault := fun _ _ => True
  refl := fun w => ⟨rfl, rfl, le_refl w.now⟩
  trans := by
    rintro w₁ w₂ w₃ ⟨hFbs₁, hPlane₁, hNow₁⟩
      ⟨hFbs₂, hPlane₂, hNow₂⟩
    exact ⟨hFbs₂.trans hFbs₁, hPlane₂.trans hPlane₁,
      hNow₁.trans hNow₂⟩

theorem now_le_record (w : World) (call : Call) :
    w.now ≤ (w.record call).now := by
  rw [World.now_record]
  exact Nat.le_succ w.now

theorem pipeContract_planeStep (env : Env) :
    PipeContract env planeStep where
  toBusContract := by
    refine busContract_of_busStep env ?_ fun _ _ => trivial
    intro w w' hStep
    rcases hStep.log with ⟨calls, hLog, _⟩
    refine ⟨hStep.fbs, hStep.planeFb, ?_⟩
    simp [World.now, hLog]
  ledOn := fun w => ⟨rfl, rfl, now_le_record w _⟩
  enabled := planeStep.refl
  ledOff := fun w => ⟨rfl, rfl, now_le_record w _⟩
  disabled := planeStep.refl
  regulatorDisable := fun w => ⟨rfl, rfl, now_le_record w _⟩
  unprepared := planeStep.refl
  reset := fun _ w => ⟨rfl, rfl, now_le_record w _⟩
  regulatorEnable := fun w => ⟨rfl, rfl, now_le_record w _⟩
  prepared := planeStep.refl

/- Only a destroy event unlinks. -/
theorem not_unlinks
    {event : Event} {w : World}
    (hOther : ∀ fbId, event = .fbDestroy fbId →
      fbId ∉ fbIds w.fbs)
    (fb : UtinydrmFb) :
    ¬ Unlinks w event fb := by
  rintro ⟨before, entry, after, hEvent, hSplit, _, _⟩
  apply hOther entry.id hEvent
  rw [hSplit]
  exact mem_fbIds.mpr ⟨entry, by simp, rfl⟩

/- Destroying leaves the current framebuffer as it is. -/
theorem planeFb_of_destroy
    {fbId : UInt32} {ret : Int} {w w' : World}
    (hRun : utinydrmFbDestroy env fbId w = .ok ret w') :
    w'.planeFb = w.planeFb ∧ w.now ≤ w'.now := by
  rcases utinydrmFbDestroy_cases env fbId w with
    hRefused | ⟨_, _, _, _, _, hUnlinked⟩
  · cases hRefused.symm.trans hRun
    exact ⟨rfl, le_refl _⟩
  · cases hUnlinked.symm.trans hRun
    exact ⟨rfl, by simp [World.now]⟩

/- Destroying, with what is unmapped. -/
theorem fbOutcome_destroy
    {fbId : UInt32} {ret : Int} {w w' : World}
    (hRun : utinydrmFbDestroy env fbId w = .ok ret w') :
    FbOutcome w w' (.fbDestroy fbId)
      (unmappedBy w (.fbDestroy fbId)) := by
  by_cases hListed : fbId ∈ fbIds w.fbs
  case neg =>
    cases (utinydrmFbDestroy_unlisted env hListed).symm.trans
      hRun
    have hNone : unmappedBy w (.fbDestroy fbId) = none := by
      simp [unmappedBy, findSlots_eq_none hListed]
    rw [hNone]
    apply FbOutcome.kept _ rfl rfl
    apply not_unlinks
    intro other hEq
    cases hEq
    exact hListed
  case pos =>
    rcases exists_split hListed with
      ⟨before, entry, after, hSplit, rfl, hBefore⟩
    have hEntry :
        unmappedBy w (.fbDestroy entry.id) = some entry := by
      simp [unmappedBy, hSplit, findSlots_split rfl hBefore]
    rcases utinydrmFbDestroy_split env hSplit rfl hBefore with
      ⟨s, hDone, hFbs⟩
    cases hDone.symm.trans hRun
    rw [hEntry]
    exact .destroyed before after entry hSplit hBefore hFbs
      (planeFb_of_destroy hRun).1

theorem fbOutcome_of_step
    {w w' : World} {label : UnmapLabel}
    (hStep : UnmapStep env mipi w label w') :
    FbOutcome w w' label.1 label.2.2 ∧ w.now ≤ w'.now := by
  rcases label with ⟨event, ret, unmapped⟩
  rcases hStep with ⟨hRun, hUnmapped⟩
  have hPlane := pipeContract_planeStep env
  rw [EventStep] at hRun
  dsimp only at hRun hUnmapped ⊢
  rw [hUnmapped]
  have hKept :
      (∀ fbId, event ≠ .fbDestroy fbId) →
      planeStep.step w w' →
      FbOutcome w w' event none ∧ w.now ≤ w'.now := by
    intro hOther hSame
    exact ⟨.kept (not_unlinks fun _ hEq =>
      absurd hEq (hOther _)) hSame.1 hSame.2.1, hSame.2.2⟩
  cases event with
  | pipeEnable =>
      apply hKept (by simp)
      exact (meets_mi0283qtEnable hPlane.toEnableContract _
        w).of_ok (mi0283qtEnable_of_event hRun)
  | pipeDisable =>
      apply hKept (by simp)
      exact (meets_mipiDbiPipeDisable hPlane.toDisableContract _
        w).of_ok (mipiDbiPipeDisable_of_event hRun)
  | unknown =>
      cases hRun
      exact hKept (by simp) (planeStep.refl w)
  | fbDirty dirty clips =>
      rcases utinydrmFbDirty_cases hRun with
        rfl | ⟨fb, hMem, _, code, hDirty⟩
      · exact hKept (by simp) (planeStep.refl w')
      · have hSame := (meets_mipiDbiFbDirty
          hPlane.toDirtyContract _ _ _ _ _ _).of_ok hDirty
        exact ⟨.shown fb (not_unlinks (by simp)) hSame.1 hMem
          hSame.2.1, hSame.2.2⟩
  | fbCreate fbId =>
      rcases utinydrmFbCreate_cases env fbId w with
        ⟨code, s, ⟨calls, rfl, _⟩, ⟨_, hFailed⟩ |
          ⟨fb, n, info, _, _, hNew, hDone⟩⟩
      · cases hFailed.symm.trans hRun
        apply hKept (by simp)
        exact ⟨rfl, rfl, by simp [World.now]⟩
      · cases hDone.symm.trans hRun
        exact ⟨.created fb (not_unlinks (by simp))
          ⟨hNew.addr, hNew.later⟩ rfl rfl, hNew.later.le⟩
  | fbDestroy fbId =>
      exact ⟨fbOutcome_destroy hRun, (planeFb_of_destroy hRun).2⟩

end Utinydrm

------------------------------------------------------------
-- The List
------------------------------------------------------------

namespace Utinydrm

/- Of distinct entries, two are taken off by a destroy. -/
theorem mem_dropLast_append_iff
    {before after : List UtinydrmFb} {entry fb : UtinydrmFb}
    (hDistinct : (before ++ entry :: after).Nodup)
    (hMem : fb ∈ before ++ entry :: after) :
    fb ∈ before.dropLast ++ after ↔
      ¬ (fb = entry ∨ before.getLast? = some fb) := by
  rcases List.eq_nil_or_concat before with
    rfl | ⟨front, last, rfl⟩
  · simp only [List.nil_append, List.nodup_cons, List.mem_cons]
      at hDistinct hMem
    simp only [List.dropLast_nil, List.nil_append,
      List.getLast?_nil, reduceCtorEq, or_false]
    grind
  · simp only [List.concat_eq_append, List.append_assoc,
      List.cons_append, List.nil_append, List.nodup_append,
      List.nodup_cons, List.mem_append, List.mem_cons]
      at hDistinct hMem
    simp only [List.concat_eq_append, List.dropLast_concat,
      List.getLast?_concat, Option.some.injEq,
      List.mem_append]
    grind

/-
  What holds of the list in every run: the entries and the
  unmapped framebuffers are different structures, allocated
  before.
-/
structure FbsOk
    (unmapped : List UtinydrmFb) (w : World) : Prop where
  allocated : ∀ fb ∈ w.fbs, fb.addr < w.now
  past : ∀ fb ∈ unmapped, fb.addr < w.now
  distinct : w.fbs.Nodup
  apart : ∀ fb ∈ unmapped, fb ∉ w.fbs

namespace FbsOk

variable {unmapped : List UtinydrmFb} {w w' : World}

/- The same list, later. -/
theorem of_same
    (hOk : FbsOk unmapped w)
    (hFbs : w'.fbs = w.fbs) (hNow : w.now ≤ w'.now) :
    FbsOk unmapped w' where
  allocated := fun fb hMem =>
    (hOk.allocated fb (hFbs ▸ hMem)).trans_le hNow
  past := fun fb hMem => (hOk.past fb hMem).trans_le hNow
  distinct := hFbs ▸ hOk.distinct
  apart := fun fb hMem => hFbs ▸ hOk.apart fb hMem

/- A new entry is a new structure. -/
theorem of_created
    {fb : UtinydrmFb}
    (hOk : FbsOk unmapped w)
    (hNew : fb.AllocatedSince w w')
    (hFbs : w'.fbs = fb :: w.fbs) :
    FbsOk unmapped w' := by
  have hOther : ∀ other : UtinydrmFb,
      other.addr < w.now → other ≠ fb := by
    rintro other hOld rfl
    rw [hNew.addr] at hOld
    exact absurd hOld (lt_irrefl _)
  constructor
  case allocated =>
    intro other hMem
    rw [hFbs, List.mem_cons] at hMem
    rcases hMem with rfl | hOld
    · rw [hNew.addr]
      exact hNew.later
    · exact (hOk.allocated other hOld).trans hNew.later
  case past =>
    intro other hMem
    exact (hOk.past other hMem).trans hNew.later
  case distinct =>
    rw [hFbs, List.nodup_cons]
    refine ⟨fun hMem => ?_, hOk.distinct⟩
    exact hOther fb (hOk.allocated fb hMem) rfl
  case apart =>
    intro other hMem
    rw [hFbs, List.mem_cons, not_or]
    exact ⟨hOther other (hOk.past other hMem),
      hOk.apart other hMem⟩

/- The entry that is unmapped is not left in the list. -/
theorem of_destroyed
    {before after : List UtinydrmFb} {entry : UtinydrmFb}
    (hOk : FbsOk unmapped w)
    (hSplit : w.fbs = before ++ entry :: after)
    (hFbs : w'.fbs = before.dropLast ++ after)
    (hNow : w.now ≤ w'.now) :
    FbsOk (unmapped ++ [entry]) w' := by
  have hFewer : w'.fbs.Sublist w.fbs := by
    rw [hFbs, hSplit]
    exact (List.dropLast_sublist before).append
      (List.sublist_cons_self entry after)
  have hEntry : entry ∈ w.fbs := by
    simp [hSplit]
  have hGone : entry ∉ w'.fbs := by
    rw [hFbs, mem_dropLast_append_iff (hSplit ▸ hOk.distinct)
      (hSplit ▸ hEntry)]
    exact fun hNot => hNot (Or.inl rfl)
  constructor
  case allocated =>
    intro fb hMem
    exact (hOk.allocated fb (hFewer.subset hMem)).trans_le hNow
  case past =>
    intro fb hMem
    rcases List.mem_append.mp hMem with hOld | hLast
    · exact (hOk.past fb hOld).trans_le hNow
    · rw [List.mem_singleton.mp hLast]
      exact (hOk.allocated entry hEntry).trans_le hNow
  case distinct => exact hOk.distinct.sublist hFewer
  case apart =>
    intro fb hMem hLeft
    rcases List.mem_append.mp hMem with hOld | hLast
    · exact hOk.apart fb hOld (hFewer.subset hLeft)
    · rw [List.mem_singleton.mp hLast] at hLeft
      exact hGone hLeft

end FbsOk

theorem fbsOk_of_outcome
    {unmapped : List UtinydrmFb} {w w' : World}
    {event : Event} {freed : Option UtinydrmFb}
    (hOk : FbsOk unmapped w)
    (hOutcome : FbOutcome w w' event freed)
    (hNow : w.now ≤ w'.now) :
    FbsOk (unmapped ++ freed.toList) w' := by
  cases hOutcome with
  | kept _ hFbs _ => simpa using hOk.of_same hFbs hNow
  | shown _ _ hFbs _ _ => simpa using hOk.of_same hFbs hNow
  | created fb _ hNew hFbs _ =>
      simpa using hOk.of_created hNew hFbs
  | destroyed before after entry hSplit _ hFbs _ =>
      exact hOk.of_destroyed hSplit hFbs hNow

end Utinydrm

------------------------------------------------------------
-- Keeping The Current Framebuffer
------------------------------------------------------------

namespace Utinydrm

/- A list has one first entry with an id. -/
theorem unlinks_iff
    {before after : List UtinydrmFb} {entry fb : UtinydrmFb}
    {w : World}
    (hSplit : w.fbs = before ++ entry :: after)
    (hBefore : entry.id ∉ fbIds before) :
    Unlinks w (.fbDestroy entry.id) fb ↔
      (fb = entry ∨ before.getLast? = some fb) := by
  constructor
  · rintro ⟨before', entry', after', hEvent, hSplit', hBefore',
      hWhich⟩
    have hId : entry.id = entry'.id := Event.fbDestroy.inj hEvent
    -- both splits are where the loop stops
    have hSlots :=
      (congrArg (findSlots entry.id · 0 0) hSplit).trans
        (findSlots_split rfl hBefore 0 0)
    have hSlots' :=
      (congrArg (findSlots entry.id · 0 0) hSplit').trans
        (findSlots_split hId.symm (hId ▸ hBefore') 0 0)
    have hSame := hSlots.symm.trans hSlots'
    simp only [Option.some.injEq, Prod.mk.injEq, Nat.zero_add]
      at hSame
    rw [hSplit] at hSplit'
    rcases List.append_inj hSplit' hSame.2.1 with
      ⟨rfl, hRest⟩
    rw [(List.cons.inj hRest).1]
    exact hWhich
  · intro hWhich
    exact ⟨before, entry, after, rfl, hSplit, hBefore, hWhich⟩

/- A listed framebuffer was not unmapped. -/
theorem currentOk_iff_listed
    {unmapped : List UtinydrmFb} {w : World}
    (hOk : FbsOk unmapped w) :
    CurrentOk unmapped w ↔
      ∀ fb, w.planeFb = some fb → fb ∈ w.fbs := by
  constructor
  · exact CurrentOk.listed
  · intro hListed
    refine ⟨hListed, ?_⟩
    intro fb hPlane hMem
    exact hOk.apart fb hMem (hListed fb hPlane)

theorem currentOk_iff_of_outcome
    {unmapped : List UtinydrmFb} {w w' : World}
    {event : Event} {freed : Option UtinydrmFb}
    (hOk : FbsOk unmapped w)
    (hCurrent : CurrentOk unmapped w)
    (hOutcome : FbOutcome w w' event freed)
    (hNow : w.now ≤ w'.now) :
    CurrentOk (unmapped ++ freed.toList) w' ↔
      SparesCurrent w event := by
  have hListed := hCurrent.listed
  rw [currentOk_iff_listed (fbsOk_of_outcome hOk hOutcome hNow)]
  cases hOutcome with
  | kept hNone hFbs hPlane =>
      rw [hFbs, hPlane]
      exact ⟨fun _ fb _ => hNone fb, fun _ => hListed⟩
  | shown fb hNone hFbs hMem hPlane =>
      rw [hFbs, hPlane]
      refine ⟨fun _ fb _ => hNone fb, ?_⟩
      rintro _ other ⟨⟩
      exact hMem
  | created fb hNone _ hFbs hPlane =>
      rw [hFbs, hPlane]
      refine ⟨fun _ fb _ => hNone fb, ?_⟩
      intro _ other hOther
      exact List.mem_cons_of_mem _ (hListed other hOther)
  | destroyed before after entry hSplit hBefore hFbs hPlane =>
      have hLeft : ∀ fb, w.planeFb = some fb →
          (fb ∈ w'.fbs ↔
            ¬ Unlinks w (.fbDestroy entry.id) fb) := by
        intro fb hFb
        have hMem := hListed fb hFb
        rw [unlinks_iff hSplit hBefore, hFbs]
        exact mem_dropLast_append_iff
          (hSplit ▸ hOk.distinct) (hSplit ▸ hMem)
      rw [hPlane]
      exact forall₂_congr hLeft

end Utinydrm

------------------------------------------------------------
-- Runs
------------------------------------------------------------

namespace Utinydrm

variable {env : Env} {mipi : MipiDbi}

theorem currentOk_of_run
    {w₀ w : World} {history : List UnmapLabel}
    (hProbed : w₀.Probed)
    (hRun : Transition.Run (UnmapStep env mipi)
      (fun _ w label => SparesCurrent w label.1) w₀ history w) :
    FbsOk (unmappedIn history) w ∧
      CurrentOk (unmappedIn history) w := by
  apply hRun.invariant_history fun history w =>
    FbsOk (unmappedIn history) w ∧
      CurrentOk (unmappedIn history) w
  · refine ⟨⟨?_, ?_, ?_, ?_⟩, ⟨?_, ?_⟩⟩ <;>
      simp [hProbed.fbs, hProbed.planeFb, unmappedIn]
  · rintro history s label s' ⟨hOk, hCurrent⟩ hSpares hStep
    rcases fbOutcome_of_step hStep with ⟨hOutcome, hNow⟩
    rw [unmappedIn_snoc]
    exact ⟨fbsOk_of_outcome hOk hOutcome hNow,
      (currentOk_iff_of_outcome hOk hCurrent hOutcome
        hNow).mpr hSpares⟩

/-
  As long as no event takes the current framebuffer off the
  list, there is none or it is listed and was not unmapped.
  The next event keeps this exactly when it is no such event
  either.
-/
theorem current_fb_iff
    (env : Env) (mipi : MipiDbi)
    {w₀ w : World} {history : List UnmapLabel}
    (hProbed : w₀.Probed)
    (hRun : Transition.Run (UnmapStep env mipi)
      (fun _ w label => SparesCurrent w label.1) w₀ history w) :
    CurrentOk (unmappedIn history) w ∧
    ∀ label w', UnmapStep env mipi w label w' →
      (CurrentOk (unmappedIn (history ++ [label])) w' ↔
        SparesCurrent w label.1) := by
  rcases currentOk_of_run hProbed hRun with ⟨hOk, hCurrent⟩
  refine ⟨hCurrent, ?_⟩
  intro label w' hStep
  rcases fbOutcome_of_step hStep with ⟨hOutcome, hNow⟩
  rw [unmappedIn_snoc]
  exact currentOk_iff_of_outcome hOk hCurrent hOutcome hNow

/-
  A framebuffer is shown, and a newer one is created and
  destroyed.
-/
theorem exists_run_spared :
    ∃ history w fb, Transition.Run
        (UnmapStep Env.granting option1Panel)
        (fun _ w label => SparesCurrent w label.1)
        (World.atProbe (-1)) history w ∧
      w.planeFb = some fb := by
  have hOther : ∀ w event, (∀ fbId, event ≠ .fbDestroy fbId) →
      SparesCurrent w event := by
    intro w event hNot fb _
    exact not_unlinks (fun fbId hEq => absurd hEq (hNot fbId))
      fb
  have hShown : ∃ w older newer, Transition.Run
        (UnmapStep Env.granting option1Panel)
        (fun _ w label => SparesCurrent w label.1)
        (World.atProbe (-1))
        [(.fbCreate 1, 0, none),
          (.fbDirty ⟨1, 0, 0, 0⟩ fun _ => ⟨0, 0, 0, 0⟩, 0, none),
          (.fbCreate 2, 0, none)] w ∧
      w.fbs = [newer, older] ∧ w.planeFb = some older ∧
      older ≠ newer ∧ newer.id = 2 :=
    ⟨_, _, _, .snoc (.snoc (.snoc .nil
      (hOther _ _ (by simp)) ⟨rfl, rfl⟩)
      (hOther _ _ (by simp)) ⟨rfl, rfl⟩)
      (hOther _ _ (by simp)) ⟨rfl, rfl⟩,
      rfl, rfl, by simp, rfl⟩
  rcases hShown with
    ⟨w, older, newer, hRun, hFbs, hPlane, hNe, hId⟩
  have hBefore : newer.id ∉ fbIds [] := by simp [fbIds]
  rcases utinydrmFbDestroy_split Env.granting hFbs rfl
    hBefore with ⟨w', hDestroy, _⟩
  have hStep : UnmapStep Env.granting option1Panel w
      (.fbDestroy newer.id, 0,
        unmappedBy w (.fbDestroy newer.id)) w' :=
    ⟨hDestroy, rfl⟩
  refine ⟨_, w', older, .snoc hRun ?_ hStep, ?_⟩
  · intro fb hFb
    rw [unlinks_iff hFbs hBefore]
    cases hPlane.symm.trans hFb
    simpa using hNe
  · rw [(planeFb_of_destroy hDestroy).1]
    exact hPlane

theorem current_fb_iff_spared :
    ∃ history w fb, w.planeFb = some fb ∧
      CurrentOk (unmappedIn history) w := by
  rcases exists_run_spared with ⟨history, w, fb, hRun, hFb⟩
  have hCurrent := current_fb_iff Env.granting option1Panel
    (World.probed_atProbe (-1)) hRun
  exact ⟨history, w, fb, hFb, hCurrent.1⟩

/- The framebuffer that is shown is destroyed. -/
theorem current_fb_dangling :
    ¬ ∀ (env : Env) (mipi : MipiDbi) (w₀ w : World)
      (history : List (Event × Int)), w₀.Probed →
      Transition.Run (EventStep env mipi)
        Transition.unguarded w₀ history w →
      ∀ fb, w.planeFb = some fb → fb ∈ w.fbs := by
  intro hClaim
  have hEnds : Effect.endsIn
      (fun w => w.fbs.isEmpty && w.planeFb.isSome)
      (handleEvents Env.granting option1Panel
        [.fbCreate 1,
          .fbDirty ⟨1, 0, 0, 0⟩ fun _ => ⟨0, 0, 0, 0⟩,
          .fbDestroy 1])
      (World.atProbe (-1)) = true := by
    decide +kernel
  rcases Effect.exists_of_endsIn hEnds with
    ⟨_, w, hHandled, hDangling⟩
  rcases run_of_handleEvents .nil hHandled with ⟨history, hRun⟩
  rw [Bool.and_eq_true, List.isEmpty_iff,
    Option.isSome_iff_exists] at hDangling
  rcases hDangling with ⟨hEmpty, fb, hFb⟩
  have hListed := hClaim _ _ _ w history
    (World.probed_atProbe (-1)) hRun fb hFb
  rw [hEmpty] at hListed
  cases hListed

end Utinydrm
