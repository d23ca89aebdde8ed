import Utinydrm.Event.Handlers
import Utinydrm.Lib.Transition

/-
  The list of framebuffers as a registry of ids.

  Destroying the newest framebuffer removes exactly its
  entry. Destroying an older one also removes the entry in
  front of it, since the slot that is overwritten is the one
  before the slot of the entry.

  Key definitions include:
    * `liveIds`: the ids that ought to be listed
    * `AtHead`: the id is that of the newest framebuffer

  Main declarations:
    * `utinydrmFbDestroy_split`
    * `utinydrmFbDestroy_exact_iff`
    * `registry_exact_at_head`
-/

------------------------------------------------------------
-- The Registry
------------------------------------------------------------

namespace Utinydrm

/- The ids of the list, newest first. -/
def fbIds (fbs : List UtinydrmFb) : List UInt32 :=
  fbs.map UtinydrmFb.id

/- What an event with its result does to the ids. -/
def liveStep (live : List UInt32) :
    Event × Int → List UInt32
| (.fbCreate fbId, ret) =>
    if ret = 0 then fbId :: live else live
| (.fbDestroy fbId, _) => live.filter (· ≠ fbId)
| _ => live

/-
  The ids that were created and not destroyed since, newest
  first.
-/
def liveIds (history : List (Event × Int)) : List UInt32 :=
  history.foldl liveStep []

/- The id is that of the first entry of the list. -/
def AtHead (fbs : List UtinydrmFb) (fbId : UInt32) : Prop :=
  ∃ ufb rest, fbs = ufb :: rest ∧ ufb.id = fbId

/- No live id is created again. -/
def FreshCreate
    (history : List (Event × Int))
    (_ : World) (label : Event × Int) : Prop :=
  ∀ fbId, label.1 = .fbCreate fbId → fbId ∉ liveIds history

/- Only the newest framebuffer is destroyed. -/
def DestroysAtHead
    (w : World) (label : Event × Int) : Prop :=
  ∀ fbId, label.1 = .fbDestroy fbId → fbId ∈ fbIds w.fbs →
    AtHead w.fbs fbId

theorem liveIds_snoc
    (history : List (Event × Int)) (label : Event × Int) :
    liveIds (history ++ [label]) =
      liveStep (liveIds history) label := by
  simp [liveIds]

theorem mem_fbIds
    {fbs : List UtinydrmFb} {fbId : UInt32} :
    fbId ∈ fbIds fbs ↔ ∃ ufb ∈ fbs, ufb.id = fbId := by
  simp [fbIds]

end Utinydrm

------------------------------------------------------------
-- Unlinking
------------------------------------------------------------

namespace Utinydrm

/- The loop stops at no slot when the id is not listed. -/
theorem findSlots_eq_none
    {fbId : UInt32} {fbs : List UtinydrmFb}
    (hUnlisted : fbId ∉ fbIds fbs)
    (prev curr : Nat) :
    findSlots fbId fbs prev curr = none := by
  induction fbs generalizing prev curr with
  | nil => rfl
  | cons ufb rest ih =>
      simp only [fbIds, List.map_cons, List.mem_cons, not_or]
        at hUnlisted
      have hId : ufb.id ≠ fbId := fun h => hUnlisted.1 h.symm
      rw [findSlots, if_neg hId]
      exact ih hUnlisted.2 _ _

/-
  It stops at the first entry with the id. `prev` is then
  the slot before, unless no slot was passed.
-/
theorem findSlots_split
    {fbId : UInt32}
    {before after : List UtinydrmFb} {ufb : UtinydrmFb}
    (hId : ufb.id = fbId)
    (hBefore : fbId ∉ fbIds before)
    (prev curr : Nat) :
    findSlots fbId (before ++ ufb :: after) prev curr =
      some
        (if before = [] then prev
          else curr + (before.length - 1),
          curr + before.length, ufb) := by
  induction before generalizing prev curr with
  | nil => simp [findSlots, hId]
  | cons first rest ih =>
      simp only [fbIds, List.map_cons, List.mem_cons, not_or]
        at hBefore
      have hFirst : first.id ≠ fbId := fun h =>
        hBefore.1 h.symm
      rw [List.cons_append, findSlots, if_neg hFirst,
        ih hBefore.2]
      cases rest with
      | nil => simp
      | cons second rest =>
          simp
          omega

/- What unlinking leaves: the entry before is cut off too. -/
theorem unlinkSlot_split
    (before after : List UtinydrmFb) (ufb : UtinydrmFb) :
    unlinkSlot (before ++ ufb :: after)
        (if before = [] then 0 else before.length - 1)
        before.length =
      before.dropLast ++ after := by
  have hDrop :
      (before ++ ufb :: after).drop (before.length + 1) =
        after := by
    rw [List.drop_append]
    simp
  have hTake :
      (before ++ ufb :: after).take
          (if before = [] then 0 else before.length - 1) =
        before.dropLast := by
    cases before with
    | nil => rfl
    | cons first rest =>
        rw [if_neg (by simp), List.dropLast_eq_take,
          List.take_append_of_le_length (by simp)]
  rw [unlinkSlot, hDrop, hTake]

/- The entry with a listed id, first in the list. -/
theorem exists_split
    {fbId : UInt32} {fbs : List UtinydrmFb}
    (hListed : fbId ∈ fbIds fbs) :
    ∃ before ufb after, fbs = before ++ ufb :: after ∧
      ufb.id = fbId ∧ fbId ∉ fbIds before := by
  induction fbs with
  | nil => simp [fbIds] at hListed
  | cons first rest ih =>
      by_cases hFirst : first.id = fbId
      · exact ⟨[], first, rest, rfl, hFirst, by simp [fbIds]⟩
      · have hRest : fbId ∈ fbIds rest := by
          simp only [fbIds, List.map_cons, List.mem_cons]
            at hListed
          rcases hListed with hHere | hThere
          · exact absurd hHere.symm hFirst
          · exact hThere
        rcases ih hRest with
          ⟨before, ufb, after, hSplit, hId, hBefore⟩
        refine ⟨first :: before, ufb, after, by simp [hSplit],
          hId, ?_⟩
        simp only [fbIds, List.map_cons, List.mem_cons, not_or]
        exact ⟨fun h => hFirst h.symm, hBefore⟩

/- With distinct ids, only the entry itself has its id. -/
theorem filter_split
    {fbId : UInt32}
    {before after : List UtinydrmFb} {ufb : UtinydrmFb}
    (hDistinct : (fbIds (before ++ ufb :: after)).Nodup)
    (hId : ufb.id = fbId) :
    (before ++ ufb :: after).filter (·.id ≠ fbId) =
      before ++ after := by
  subst hId
  simp only [fbIds, List.map_append, List.map_cons,
    List.nodup_append, List.nodup_cons, List.mem_cons]
    at hDistinct
  rcases hDistinct with ⟨_, ⟨hAfter, _⟩, hApart⟩
  have hKeep : ∀ l : List UtinydrmFb,
      (∀ x ∈ l, x.id ≠ ufb.id) →
      l.filter (·.id ≠ ufb.id) = l := by
    intro l hl
    rw [List.filter_eq_self]
    intro x hx
    simpa using hl x hx
  rw [List.filter_append, List.filter_cons_of_neg (by simp),
    hKeep before, hKeep after]
  · intro x hx hEq
    exact hAfter (hEq ▸ List.mem_map_of_mem hx)
  · intro x hx hEq
    exact hApart x.id (List.mem_map_of_mem hx) ufb.id
      (Or.inl rfl) hEq

end Utinydrm

------------------------------------------------------------
-- One Destroy
------------------------------------------------------------

namespace Utinydrm

variable (env : Env)

/- An id that is not listed is refused. -/
theorem utinydrmFbDestroy_unlisted
    {fbId : UInt32} {w : World}
    (hUnlisted : fbId ∉ fbIds w.fbs) :
    utinydrmFbDestroy env fbId w = .ok (-EINVAL) w := by
  unfold utinydrmFbDestroy
  rw [Effect.bind_of_ok (Effect.get_apply w)]
  simp only [findSlots_eq_none hUnlisted]
  rfl

/- What destroying a listed id does to the list. -/
theorem utinydrmFbDestroy_split
    {fbId : UInt32} {w : World}
    {before after : List UtinydrmFb} {ufb : UtinydrmFb}
    (hSplit : w.fbs = before ++ ufb :: after)
    (hId : ufb.id = fbId)
    (hBefore : fbId ∉ fbIds before) :
    ∃ w', utinydrmFbDestroy env fbId w = .ok 0 w' ∧
      w'.fbs = before.dropLast ++ after := by
  unfold utinydrmFbDestroy
  rw [Effect.bind_of_ok (Effect.get_apply w), hSplit]
  simp only [findSlots_split hId hBefore, Nat.zero_add]
  refine ⟨_, rfl, ?_⟩
  rw [← unlinkSlot_split before after ufb, ← hSplit]
  rfl

/- An older entry takes the one in front of it along. -/
theorem dropLast_append_eq_iff
    (before after : List UtinydrmFb) :
    before.dropLast ++ after = before ++ after ↔
      before = [] := by
  constructor
  · intro hEq
    have hLength := congrArg List.length hEq
    simp only [List.length_append, List.length_dropLast]
      at hLength
    apply List.length_eq_zero_iff.mp
    omega
  · intro hNil
    rw [hNil]
    rfl

/-
  Destroying a listed id removes exactly its entry if and
  only if that is the first entry.
-/
theorem utinydrmFbDestroy_exact_iff
    {fbId : UInt32} {w : World}
    (hDistinct : (fbIds w.fbs).Nodup)
    (hListed : fbId ∈ fbIds w.fbs) :
    ∃ w', utinydrmFbDestroy env fbId w = .ok 0 w' ∧
      (w'.fbs = w.fbs.filter (·.id ≠ fbId) ↔
        AtHead w.fbs fbId) := by
  rcases exists_split hListed with
    ⟨before, ufb, after, hSplit, hId, hBefore⟩
  rcases utinydrmFbDestroy_split env hSplit hId hBefore with
    ⟨w', hRun, hFbs⟩
  refine ⟨w', hRun, ?_⟩
  rw [hSplit] at hDistinct
  rw [hFbs, hSplit, filter_split hDistinct hId,
    dropLast_append_eq_iff]
  constructor
  · intro hNil
    exact ⟨ufb, after, by rw [hNil]; rfl, hId⟩
  · rintro ⟨first, rest, hHead, hFirst⟩
    cases before with
    | nil => rfl
    | cons other before =>
        rw [List.cons_append, List.cons.injEq] at hHead
        rw [← hHead.1] at hFirst
        simp [fbIds, hFirst] at hBefore

end Utinydrm

------------------------------------------------------------
-- Runs
------------------------------------------------------------

namespace Utinydrm

variable {env : Env} {mipi : MipiDbi}

/- The list of framebuffers is left alone. -/
def sameFbs : Effect.Contract Fault World where
  step := fun w w' => w'.fbs = w.fbs
  fault := fun _ _ => True
  refl := fun _ => rfl
  trans := fun h₁ h₂ => h₂.trans h₁

theorem pipeContract_sameFbs (env : Env) :
    PipeContract env sameFbs where
  toBusContract := busContract_of_busStep env
    (fun _ _ hStep => hStep.fbs) (fun _ _ => trivial)
  ledOn := fun _ => rfl
  enabled := fun _ => rfl
  ledOff := fun _ => rfl
  disabled := fun _ => rfl
  regulatorDisable := fun _ => rfl
  unprepared := fun _ => rfl
  reset := fun _ _ => rfl
  regulatorEnable := fun _ => rfl
  prepared := fun _ => rfl

/- The pipe and dirty events do not touch the list. -/
theorem fbs_of_pipe_event
    {event : Event} {ret : Int} {w w' : World}
    (hEvent : (∀ fbId, event ≠ .fbCreate fbId) ∧
      ∀ fbId, event ≠ .fbDestroy fbId)
    (hRun : utinydrmEvent env mipi event w = .ok ret w') :
    w'.fbs = w.fbs := by
  have hMeets :
      Effect.Meets sameFbs (utinydrmEvent env mipi event) w :=
    meets_utinydrmEvent (pipeContract_sameFbs env)
      (fun _ _ => rfl) mipi event w
      (fun fbId hEq => absurd hEq (hEvent.1 fbId))
      (fun fbId hEq => absurd hEq (hEvent.2 fbId))
  exact hMeets.of_ok hRun

/- A listed framebuffer was listed before, or is a new one. -/
theorem mem_fbs_of_step
    {w w' : World} {label : Event × Int}
    (hStep : EventStep env mipi w label w')
    {fb : UtinydrmFb} (hMem : fb ∈ w'.fbs) :
    fb ∈ w.fbs ∨ ∃ fbId info, fb.MadeOf fbId info := by
  rcases label with ⟨event, ret⟩
  rw [EventStep] at hStep
  cases event with
  | pipeEnable =>
      rw [fbs_of_pipe_event (by simp) hStep] at hMem
      exact Or.inl hMem
  | pipeDisable =>
      rw [fbs_of_pipe_event (by simp) hStep] at hMem
      exact Or.inl hMem
  | fbDirty dirty clips =>
      rw [fbs_of_pipe_event (by simp) hStep] at hMem
      exact Or.inl hMem
  | unknown =>
      rw [fbs_of_pipe_event (by simp) hStep] at hMem
      exact Or.inl hMem
  | fbCreate fbId =>
      rcases utinydrmFbCreate_cases env fbId w with
        ⟨code, s, ⟨calls, rfl, _⟩, ⟨_, hFailed⟩ |
          ⟨ufb, n, info, _, hMade, _, hDone⟩⟩
      · cases hFailed.symm.trans hStep
        exact Or.inl hMem
      · cases hDone.symm.trans hStep
        rcases List.mem_cons.mp hMem with hNew | hOld
        · rw [hNew]
          exact Or.inr ⟨fbId, info, hMade⟩
        · exact Or.inl hOld
  | fbDestroy fbId =>
      rcases utinydrmFbDestroy_cases env fbId w with
        hRefused | ⟨prev, curr, _, _, _, hDone⟩
      · cases hRefused.symm.trans hStep
        exact Or.inl hMem
      · cases hDone.symm.trans hStep
        exact Or.inl (mem_of_mem_unlinkSlot hMem)

/- Every listed framebuffer was made of what the kernel gave. -/
theorem madeOf_of_run
    {guard : List (Event × Int) → World → Event × Int → Prop}
    {w₀ w : World} {history : List (Event × Int)}
    (hProbed : w₀.Probed)
    (hRun : Transition.Run (EventStep env mipi) guard w₀
      history w) :
    ∀ fb ∈ w.fbs, ∃ fbId info, fb.MadeOf fbId info := by
  apply hRun.invariant fun w =>
    ∀ fb ∈ w.fbs, ∃ fbId info, fb.MadeOf fbId info
  · simp [hProbed.fbs]
  · intro _ s label s' hInv _ hStep fb hMem
    rcases mem_fbs_of_step hStep hMem with hOld | hNew
    · exact hInv fb hOld
    · exact hNew

end Utinydrm

------------------------------------------------------------
-- The Registry Over Runs
------------------------------------------------------------

namespace Utinydrm

variable {env : Env} {mipi : MipiDbi}

/- The list holds the live ids, each of them once. -/
structure Registered
    (history : List (Event × Int)) (w : World) : Prop where
  listed : fbIds w.fbs = liveIds history
  distinct : (liveIds history).Nodup

/- The first entry with a live id is found by `find?`. -/
theorem find?_of_mem
    {fbs : List UtinydrmFb} {fbId : UInt32}
    (hListed : fbId ∈ fbIds fbs) :
    ∃ ufb, fbs.find? (fun ufb => ufb.id = fbId) = some ufb ∧
      ufb.id = fbId := by
  cases hFind : fbs.find? (fun ufb => ufb.id = fbId) with
  | none =>
      rcases mem_fbIds.mp hListed with ⟨ufb, hMem, hId⟩
      rw [List.find?_eq_none] at hFind
      exact absurd hId (by simpa using hFind ufb hMem)
  | some ufb =>
      exact ⟨ufb, rfl, by simpa using List.find?_some hFind⟩

theorem fbIds_filter
    (fbs : List UtinydrmFb) (fbId : UInt32) :
    fbIds (fbs.filter (·.id ≠ fbId)) =
      (fbIds fbs).filter (· ≠ fbId) := by
  simp only [fbIds, List.filter_map]
  rfl

/- The events that leave the list alone. -/
theorem registered_other
    {history : List (Event × Int)} {w w' : World}
    {event : Event} {ret : Int}
    (hRegistered : Registered history w)
    (hCreate : ∀ fbId, event ≠ .fbCreate fbId)
    (hDestroy : ∀ fbId, event ≠ .fbDestroy fbId)
    (hRun : utinydrmEvent env mipi event w = .ok ret w') :
    Registered (history ++ [(event, ret)]) w' := by
  rcases hRegistered with ⟨hListed, hDistinct⟩
  have hLive : liveStep (liveIds history) (event, ret) =
      liveIds history := by
    cases event
    case fbCreate fbId => exact absurd rfl (hCreate fbId)
    case fbDestroy fbId => exact absurd rfl (hDestroy fbId)
    all_goals rfl
  constructor
  · rw [liveIds_snoc, hLive,
      fbs_of_pipe_event ⟨hCreate, hDestroy⟩ hRun, hListed]
  · rwa [liveIds_snoc, hLive]

/- Creating a framebuffer with an id that is not live. -/
theorem registered_create
    {history : List (Event × Int)} {w w' : World}
    {fbId : UInt32} {ret : Int}
    (hRegistered : Registered history w)
    (hNew : fbId ∉ liveIds history)
    (hRun : utinydrmFbCreate env fbId w = .ok ret w') :
    Registered (history ++ [(.fbCreate fbId, ret)]) w' := by
  rcases hRegistered with ⟨hListed, hDistinct⟩
  rcases utinydrmFbCreate_cases env fbId w with
    ⟨code, s, ⟨calls, rfl, _⟩, ⟨hCode, hFailed⟩ |
      ⟨ufb, n, info, _, hMade, _, hDone⟩⟩
  · cases hFailed.symm.trans hRun
    constructor
    · simpa [liveIds_snoc, liveStep, hCode] using hListed
    · simpa [liveIds_snoc, liveStep, hCode] using hDistinct
  · cases hDone.symm.trans hRun
    constructor
    · simpa [liveIds_snoc, liveStep, fbIds, hMade.id]
        using hListed
    · simpa [liveIds_snoc, liveStep] using ⟨hNew, hDistinct⟩

/- Destroying the newest one, or an id that is not listed. -/
theorem registered_destroy
    {history : List (Event × Int)} {w w' : World}
    {fbId : UInt32} {ret : Int}
    (hRegistered : Registered history w)
    (hHead : fbId ∈ fbIds w.fbs → AtHead w.fbs fbId)
    (hRun : utinydrmFbDestroy env fbId w = .ok ret w') :
    Registered (history ++ [(.fbDestroy fbId, ret)]) w' := by
  rcases hRegistered with ⟨hListed, hDistinct⟩
  by_cases hMem : fbId ∈ fbIds w.fbs
  · rcases utinydrmFbDestroy_exact_iff env
      (hListed ▸ hDistinct) hMem with ⟨s, hDone, hExact⟩
    cases hDone.symm.trans hRun
    have hFbs := hExact.mpr (hHead hMem)
    constructor
    · rw [hFbs, fbIds_filter, hListed, liveIds_snoc]
      rfl
    · rw [liveIds_snoc]
      exact hDistinct.filter _
  · cases (utinydrmFbDestroy_unlisted env hMem).symm.trans hRun
    have hLive : (liveIds history).filter (· ≠ fbId) =
        liveIds history := by
      rw [List.filter_eq_self]
      intro other hOther
      have hNe : other ≠ fbId := by
        intro hSame
        rw [← hSame, hListed] at hMem
        exact hMem hOther
      simpa using hNe
    constructor
    · rw [liveIds_snoc, liveStep, hLive, hListed]
    · rwa [liveIds_snoc, liveStep, hLive]

/-
  Creating ids that are not live and destroying the newest
  framebuffer or an unknown one keeps the registry.
-/
theorem registered_step
    {history : List (Event × Int)} {w w' : World}
    {label : Event × Int}
    (hRegistered : Registered history w)
    (hFresh : FreshCreate history w label)
    (hHead : DestroysAtHead w label)
    (hStep : EventStep env mipi w label w') :
    Registered (history ++ [label]) w' := by
  rcases label with ⟨event, ret⟩
  rw [EventStep] at hStep
  cases event with
  | pipeEnable =>
      exact registered_other hRegistered (by simp) (by simp)
        hStep
  | pipeDisable =>
      exact registered_other hRegistered (by simp) (by simp)
        hStep
  | fbDirty dirty clips =>
      exact registered_other hRegistered (by simp) (by simp)
        hStep
  | unknown =>
      exact registered_other hRegistered (by simp) (by simp)
        hStep
  | fbCreate fbId =>
      exact registered_create hRegistered (hFresh fbId rfl)
        hStep
  | fbDestroy fbId =>
      exact registered_destroy hRegistered (hHead fbId rfl)
        hStep

theorem registered_run
    {w₀ w : World} {history : List (Event × Int)}
    (hProbed : w₀.Probed)
    (hRun : Transition.Run (EventStep env mipi)
      (fun history w label =>
        FreshCreate history w label ∧ DestroysAtHead w label)
      w₀ history w) :
    Registered history w := by
  apply hRun.invariant_history Registered
  · exact ⟨by simp [fbIds, hProbed.fbs, liveIds], by
      simp [liveIds]⟩
  · intro history w label w' hInv hGuard hStep
    exact registered_step hInv hGuard.1 hGuard.2 hStep

/-
  Destroying a listed framebuffer removes exactly its entry
  if and only if it is the newest one, and an unknown id is
  refused. When only the newest framebuffer is ever
  destroyed, the listed ids are the live ones and each of
  them is found.
-/
theorem registry_exact_at_head
    (env : Env) (mipi : MipiDbi) :
    (∀ (w : World) (fbId : UInt32), (fbIds w.fbs).Nodup →
      (fbId ∉ fbIds w.fbs →
        utinydrmFbDestroy env fbId w = .ok (-EINVAL) w) ∧
      (fbId ∈ fbIds w.fbs → ∃ w',
        utinydrmFbDestroy env fbId w = .ok 0 w' ∧
        (w'.fbs = w.fbs.filter (·.id ≠ fbId) ↔
          AtHead w.fbs fbId))) ∧
    (∀ (w₀ w : World) (history : List (Event × Int)),
      w₀.Probed →
      Transition.Run (EventStep env mipi)
        (fun history w label =>
          FreshCreate history w label ∧ DestroysAtHead w label)
        w₀ history w →
      fbIds w.fbs = liveIds history ∧
      (liveIds history).Nodup ∧
      ∀ fbId ∈ liveIds history, ∃ ufb,
        w.fbs.find? (fun ufb => ufb.id = fbId) = some ufb ∧
        ufb.id = fbId) := by
  refine ⟨?_, ?_⟩
  · intro w fbId hDistinct
    exact ⟨utinydrmFbDestroy_unlisted env,
      utinydrmFbDestroy_exact_iff env hDistinct⟩
  · intro w₀ w history hProbed hRun
    rcases registered_run hProbed hRun with
      ⟨hListed, hDistinct⟩
    refine ⟨hListed, hDistinct, ?_⟩
    intro fbId hLive
    exact find?_of_mem (hListed ▸ hLive)

/- Two framebuffers created after the probe. -/
theorem run_two_creates :
    ∃ w, Transition.Run
        (EventStep Env.granting
          (mi0283qtProbe mainSpi true true true false))
        (fun history w label =>
          FreshCreate history w label ∧ DestroysAtHead w label)
        (World.atProbe (-1))
        [(.fbCreate 1, 0), (.fbCreate 2, 0)] w ∧
      fbIds w.fbs = [2, 1] := by
  refine ⟨_, .snoc (.snoc .nil ⟨?_, ?_⟩ rfl) ⟨?_, ?_⟩ rfl, rfl⟩
  · intro fbId hEq
    cases hEq
    decide
  · intro fbId hEq
    cases hEq
  · intro fbId hEq
    cases hEq
    decide
  · intro fbId hEq
    cases hEq

/- There, the newer one is destroyed exactly. -/
theorem registry_exact_at_head_two :
    ∃ w, fbIds w.fbs = [2, 1] ∧
      (∃ w', utinydrmFbDestroy Env.granting 2 w = .ok 0 w' ∧
        (w'.fbs = w.fbs.filter (·.id ≠ 2) ↔
          AtHead w.fbs 2)) ∧
      ∃ ufb, w.fbs.find? (fun ufb => ufb.id = 1) = some ufb ∧
        ufb.id = 1 := by
  have hExact := registry_exact_at_head Env.granting
    (mi0283qtProbe mainSpi true true true false)
  rcases run_two_creates with ⟨w, hRun, hIds⟩
  have hDestroy := (hExact.1 w 2 (by rw [hIds]; decide)).2
    (by rw [hIds]; decide)
  have hFound := (hExact.2 _ w _
    (World.probed_atProbe (-1)) hRun).2.2 1 (by decide)
  exact ⟨w, hIds, hDestroy, hFound⟩

/- Destroying the older one also drops the newer one. -/
theorem registry_older_not_exact :
    ¬ ∀ (env : Env) (mipi : MipiDbi) (w₀ w : World)
      (history : List (Event × Int)),
      w₀.Probed →
      Transition.Run (EventStep env mipi) FreshCreate
        w₀ history w →
      ∀ fbId ∈ fbIds w.fbs, ∃ w',
        utinydrmFbDestroy env fbId w = .ok 0 w' ∧
        w'.fbs = w.fbs.filter (·.id ≠ fbId) := by
  intro hClaim
  rcases run_two_creates with ⟨w, hRun, hIds⟩
  have hFresh := hRun.weaken (g := FreshCreate)
    fun _ _ _ hGuard => hGuard.1
  rcases hClaim _ _ _ w _ (World.probed_atProbe (-1)) hFresh 1
    (by rw [hIds]; decide) with ⟨w', hDestroy, hFbs⟩
  rcases utinydrmFbDestroy_exact_iff Env.granting
    (by rw [hIds]; decide : (fbIds w.fbs).Nodup)
    (by rw [hIds]; decide : 1 ∈ fbIds w.fbs) with
    ⟨w'', hRun', hExact⟩
  have hEq := hRun'.symm.trans hDestroy
  cases hEq
  rcases hExact.mp hFbs with ⟨ufb, rest, hHead, hId⟩
  rw [hHead, fbIds, List.map_cons, hId] at hIds
  simp at hIds

end Utinydrm
