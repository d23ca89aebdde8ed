import Utinydrm.Event.Registry
import Mathlib.Data.Multiset.AddSub

/-
  The dma-buf descriptors and mappings behind the list of
  framebuffers.

  Creating a framebuffer gives the descriptor up without
  closing it when the mapping fails, and destroying one never
  closes the descriptor.

  Key definitions include:
    * `Resources`, `held` and `listed`
    * `Accounted`
    * `DescriptorLost`

  Main declarations:
    * `accounted_step_iff`
    * `fb_resources_iff`
-/

------------------------------------------------------------
-- Accounting
------------------------------------------------------------

namespace Utinydrm

/- Open descriptors, and mappings with their sizes. -/
@[ext] structure Resources where
  fds : Multiset Int
  maps : Multiset (Nat × Nat)

namespace Resources

def none : Resources := ⟨0, 0⟩

/- No call closes a descriptor. -/
def after (r : Resources) : Call → Resources
| .primeHandleToFd (.ok fd) => { r with fds := fd ::ₘ r.fds }
| .mmap size (.ok addr) =>
    { r with maps := (addr, size) ::ₘ r.maps }
| .munmap map size .none =>
    { r with maps := r.maps.erase (map, size) }
| _ => r

/- Those of a framebuffer are added. -/
def add (r : Resources) (ufb : UtinydrmFb) : Resources where
  fds := ufb.bufFd ::ₘ r.fds
  maps := (ufb.map, ufb.mapSize.toNat) ::ₘ r.maps

end Resources

/- What a process holds after the calls. -/
def held (calls : List Call) : Resources :=
  calls.foldl Resources.after .none

/- What belongs to the framebuffers of a list. -/
def listed (fbs : List UtinydrmFb) : Resources :=
  fbs.foldr (fun ufb r => r.add ufb) .none

/-
  What was obtained since an earlier state and is still held
  is what belongs to the framebuffers in the list.
-/
def Accounted (w₀ w : World) : Prop :=
  held (w.since w₀) = listed w.fbs

theorem held_append (calls calls' : List Call) :
    held (calls ++ calls') =
      calls'.foldl Resources.after (held calls) := by
  simp [held]

theorem card_fds_listed (fbs : List UtinydrmFb) :
    (listed fbs).fds.card = fbs.length := by
  induction fbs with
  | nil => rfl
  | cons ufb rest ih =>
      rw [List.length_cons, ← ih]
      exact Multiset.card_cons _ _

/- The calls a step of a run adds to those before it. -/
theorem held_since
    {w₀ w w' : World} {calls : List Call}
    (hPrefix : w₀.log <+: w.log)
    (hLog : w'.log = w.log ++ calls) :
    held (w'.since w₀) =
      calls.foldl Resources.after (held (w.since w₀)) := by
  rw [World.since, World.since, hLog,
    List.drop_append_of_le_length hPrefix.length_le,
    held_append]

end Utinydrm

------------------------------------------------------------
-- Creating
------------------------------------------------------------

namespace Utinydrm

/-
  Creating a framebuffer from the state gets a descriptor,
  and then no mapping of it.
-/
structure DescriptorLost (env : Env) (w : World) : Prop where
  alloc : env.kmalloc w.now = true
  info : ∃ info, env.getFb (w.now + 1) = .ok info
  prime : ∃ fd, env.primeHandleToFd (w.now + 2) = .ok fd
  map : ∃ e, env.mmap (w.now + 3) = .error e

/- What creating a framebuffer does to list and resources. -/
inductive CreateOutcome
    (env : Env) (w : World) (calls : List Call)
    (fbs : List UtinydrmFb) : Prop
| refused :
    ¬ DescriptorLost env w → fbs = w.fbs →
    (∀ r, calls.foldl Resources.after r = r) →
    CreateOutcome env w calls fbs
| lost (fd : Int) :
    DescriptorLost env w → fbs = w.fbs →
    (∀ r, calls.foldl Resources.after r =
      { r with fds := fd ::ₘ r.fds }) →
    CreateOutcome env w calls fbs
| added (ufb : UtinydrmFb) :
    ¬ DescriptorLost env w → fbs = ufb :: w.fbs →
    (∀ r, calls.foldl Resources.after r = r.add ufb) →
    CreateOutcome env w calls fbs

theorem utinydrmFbCreate_outcome
    (env : Env) (fbId : UInt32) (w : World) :
    ∃ ret w' calls,
      utinydrmFbCreate env fbId w = .ok ret w' ∧
      w'.log = w.log ++ calls ∧
      CreateOutcome env w calls w'.fbs := by
  rcases utinydrmFbCreate_run env fbId w with
    ⟨calls, ret, fbs, hCreate, hRun⟩
  refine ⟨ret, _, calls, hRun, rfl, ?_⟩
  cases hCreate with
  | noMemory hAlloc =>
      refine .refused ?_ rfl fun _ => rfl
      intro hLost
      cases hAlloc.symm.trans hLost.alloc
  | noInfo e _ hInfo =>
      refine .refused ?_ rfl fun _ => rfl
      intro hLost
      rcases hLost.info with ⟨info, hOk⟩
      cases hInfo.symm.trans hOk
  | noPrime info e _ _ hPrime =>
      refine .refused ?_ rfl fun _ => rfl
      intro hLost
      rcases hLost.prime with ⟨fd, hOk⟩
      cases hPrime.symm.trans hOk
  | noMap info fd e hAlloc hInfo hPrime hMap =>
      exact .lost fd
        ⟨hAlloc, ⟨info, hInfo⟩, ⟨fd, hPrime⟩, ⟨e, hMap⟩⟩
        rfl fun _ => rfl
  | created info fd addr _ _ _ hMap =>
      refine .added _ ?_ rfl fun _ => rfl
      intro hLost
      rcases hLost.map with ⟨e, hError⟩
      cases hMap.symm.trans hError

end Utinydrm

------------------------------------------------------------
-- Destroying
------------------------------------------------------------

namespace Utinydrm

/-
  Destroying a listed framebuffer takes entries off the list
  and makes one call, which unmaps.
-/
theorem utinydrmFbDestroy_outcome
    (env : Env) {fbId : UInt32} {w : World}
    (hListed : fbId ∈ fbIds w.fbs) :
    ∃ w' map size result,
      utinydrmFbDestroy env fbId w = .ok 0 w' ∧
      w'.log = w.log ++ [.munmap map size result] ∧
      w'.fbs.length < w.fbs.length := by
  rcases exists_split hListed with
    ⟨before, ufb, after, hSplit, hId, hBefore⟩
  rcases utinydrmFbDestroy_split env hSplit hId hBefore with
    ⟨w', hRun, hFbs⟩
  rcases utinydrmFbDestroy_cases env fbId w with
    hRefused | ⟨prev, curr, map, size, result, hDone⟩
  · cases hRefused.symm.trans hRun
  · cases hDone.symm.trans hRun
    refine ⟨_, map, size, result, hDone, rfl, ?_⟩
    rw [hFbs, hSplit, List.length_append, List.length_append,
      List.length_dropLast, List.length_cons]
    omega

/- Unmapping leaves the descriptors open. -/
theorem fds_after_munmap
    (r : Resources) (map size : Nat)
    (result : Option Errno) :
    (r.after (.munmap map size result)).fds = r.fds := by
  cases result <;> rfl

end Utinydrm

------------------------------------------------------------
-- Steps
------------------------------------------------------------

namespace Utinydrm

variable {env : Env} {mipi : MipiDbi}

/- The event creates or destroys a framebuffer. -/
def Event.OfFb : Event → Prop
| .fbCreate _ => True
| .fbDestroy _ => True
| _ => False

/-
  No descriptor is lost by the event: a creation does not
  fail at its mapping, and a destruction is refused.
-/
def KeepsDescriptors (env : Env) (w : World) : Event → Prop
| .fbCreate _ => ¬ DescriptorLost env w
| .fbDestroy fbId => fbId ∉ fbIds w.fbs
| _ => True

/- The events only add to the calls. -/
theorem prefix_log_fbEvent
    {w w' : World} {label : Event × Int}
    (hFb : label.1.OfFb)
    (hStep : EventStep env mipi w label w') :
    w.log <+: w'.log := by
  rcases label with ⟨event, ret⟩
  cases event with
  | fbCreate fbId =>
      rcases utinydrmFbCreate_outcome env fbId w with
        ⟨_, s, calls, hRun, hLog, _⟩
      cases hRun.symm.trans hStep
      exact ⟨calls, hLog.symm⟩
  | fbDestroy fbId =>
      rcases utinydrmFbDestroy_cases env fbId w with
        hRun | ⟨_, _, _, _, _, hRun⟩
      · cases hRun.symm.trans hStep
        exact List.prefix_refl _
      · cases hRun.symm.trans hStep
        exact List.prefix_append _ _
  | _ => exact hFb.elim

/-
  An event keeps the account exactly when it loses no
  descriptor.
-/
theorem accounted_step_iff
    {w₀ w w' : World} {label : Event × Int}
    (hPrefix : w₀.log <+: w.log)
    (hAccounted : Accounted w₀ w)
    (hFb : label.1.OfFb)
    (hStep : EventStep env mipi w label w') :
    Accounted w₀ w' ↔ KeepsDescriptors env w label.1 := by
  rcases label with ⟨event, ret⟩
  cases event with
  | fbCreate fbId =>
      rcases utinydrmFbCreate_outcome env fbId w with
        ⟨_, s, calls, hRun, hLog, hOutcome⟩
      cases hRun.symm.trans hStep
      rw [Accounted, held_since hPrefix hLog, hAccounted]
      cases hOutcome with
      | refused hKept hFbs hSame =>
          rw [hSame, hFbs]
          exact ⟨fun _ => hKept, fun _ => rfl⟩
      | lost fd hLost hFbs hLoses =>
          rw [hLoses, hFbs]
          -- one descriptor more than framebuffers
          refine ⟨fun hSame => ?_, fun hKept => ?_⟩
          · have hCard := congrArg
              (fun r => Multiset.card r.fds) hSame
            simp at hCard
          · exact absurd hLost hKept
      | added ufb hKept hFbs hAdds =>
          rw [hAdds, hFbs]
          exact ⟨fun _ => hKept, fun _ => rfl⟩
  | fbDestroy fbId =>
      by_cases hListed : fbId ∈ fbIds w.fbs
      · rcases utinydrmFbDestroy_outcome env hListed with
          ⟨s, map, size, result, hRun, hLog, hShorter⟩
        cases hRun.symm.trans hStep
        rw [Accounted, held_since hPrefix hLog, hAccounted]
        -- the descriptor of the entry stays open
        refine ⟨fun hSame => ?_, fun hRefused => ?_⟩
        · have hCard := congrArg
            (fun r => Multiset.card r.fds) hSame
          simp only [List.foldl_cons, List.foldl_nil,
            fds_after_munmap, card_fds_listed] at hCard
          omega
        · exact absurd hListed hRefused
      · have hRun := utinydrmFbDestroy_unlisted env hListed
        cases hRun.symm.trans hStep
        exact ⟨fun _ => hListed, fun _ => hAccounted⟩
  | _ => exact hFb.elim

end Utinydrm

------------------------------------------------------------
-- Runs
------------------------------------------------------------

namespace Utinydrm

variable {env : Env} {mipi : MipiDbi}

/-
  Framebuffers are created and destroyed, from states in
  which the account is kept.
-/
def FromAccounted
    (w₀ : World) (_ : List (Event × Int))
    (w : World) (label : Event × Int) : Prop :=
  label.1.OfFb ∧ Accounted w₀ w

/- They are, and no descriptor is lost. -/
def Losslessly
    (env : Env) (_ : List (Event × Int))
    (w : World) (label : Event × Int) : Prop :=
  label.1.OfFb ∧ KeepsDescriptors env w label.1

theorem prefix_log_fbRun
    {guard : List (Event × Int) → World →
      Event × Int → Prop}
    {w₀ w : World} {history : List (Event × Int)}
    (hFb : ∀ history w label, guard history w label →
      label.1.OfFb)
    (hRun : Transition.Run (EventStep env mipi) guard w₀
      history w) :
    w₀.log <+: w.log := by
  apply hRun.invariant (fun s => w₀.log <+: s.log)
  · exact List.prefix_refl _
  · intro history s label s' hPrefix hGuard hStep
    exact hPrefix.trans
      (prefix_log_fbEvent (hFb _ _ _ hGuard) hStep)

theorem accounted_refl
    {w₀ : World}
    (hEmpty : w₀.fbs = []) :
    Accounted w₀ w₀ := by
  rw [Accounted, World.since, List.drop_length, hEmpty]
  rfl

/-
  From the probe on, in every state of a run that creates and
  destroys framebuffers the open descriptors and the mappings
  are those of the listed framebuffers, if and only if none
  of its events loses a descriptor.
-/
theorem fb_resources_iff
    (env : Env) (mipi : MipiDbi)
    {w₀ w : World} (history : List (Event × Int))
    (hProbed : w₀.Probed) :
    Transition.Run (EventStep env mipi) (FromAccounted w₀)
        w₀ history w ∧
      Accounted w₀ w ↔
      Transition.Run (EventStep env mipi) (Losslessly env)
        w₀ history w := by
  constructor
  · rintro ⟨hRun, hEnd⟩
    -- the state after each step is accounted for
    induction hRun with
    | nil => exact .nil
    | snoc hBefore hGuard hStep ih =>
        have hPrefix := prefix_log_fbRun
          (fun _ _ _ h => h.1) hBefore
        have hKept := (accounted_step_iff hPrefix hGuard.2
          hGuard.1 hStep).mp hEnd
        exact .snoc (ih hGuard.2) ⟨hGuard.1, hKept⟩ hStep
  · intro hRun
    induction hRun with
    | nil => exact ⟨.nil, accounted_refl hProbed.fbs⟩
    | snoc hBefore hGuard hStep ih =>
        rcases ih with ⟨hSame, hAccounted⟩
        have hPrefix := prefix_log_fbRun
          (fun _ _ _ h => h.1) hBefore
        exact ⟨.snoc hSame ⟨hGuard.1, hAccounted⟩ hStep,
          (accounted_step_iff hPrefix hAccounted hGuard.1
            hStep).mpr hGuard.2⟩

/- A framebuffer is created, and another one refused. -/
theorem fb_resources_create :
    ∃ w, Transition.Run
        (EventStep Env.granting
          (mi0283qtProbe mainSpi true true true false))
        (Losslessly Env.granting) (World.atProbe (-1))
        [(.fbCreate 1, 0), (.fbDestroy 2, -EINVAL)] w ∧
      Accounted (World.atProbe (-1)) w := by
  let mipi := mi0283qtProbe mainSpi true true true false
  have hCreate : ∃ w,
      EventStep Env.granting mipi (World.atProbe (-1))
        (.fbCreate 1, 0) w ∧ fbIds w.fbs = [1] :=
    ⟨_, rfl, rfl⟩
  rcases hCreate with ⟨w, hCreate, hIds⟩
  have hUnlisted : (2 : UInt32) ∉ fbIds w.fbs := by
    rw [hIds]
    decide
  have hKept : ¬ DescriptorLost Env.granting
      (World.atProbe (-1)) := by
    intro hLost
    rcases hLost.map with ⟨e, hError⟩
    cases hError
  have hRun : Transition.Run (EventStep Env.granting mipi)
      (Losslessly Env.granting) (World.atProbe (-1))
      [(.fbCreate 1, 0), (.fbDestroy 2, -EINVAL)] w :=
    .snoc (.snoc .nil ⟨trivial, hKept⟩ hCreate)
      ⟨trivial, hUnlisted⟩
      (utinydrmFbDestroy_unlisted _ hUnlisted)
  exact ⟨w, hRun, ((fb_resources_iff Env.granting mipi _
    (World.probed_atProbe (-1))).mpr hRun).2⟩

/-
  A framebuffer is created and destroyed again: every call
  succeeds, and its descriptor stays open.
-/
theorem fb_resources_leaked :
    ∃ w, Transition.Run
        (EventStep Env.granting
          (mi0283qtProbe mainSpi true true true false))
        (fun _ _ label => label.1.OfFb) (World.atProbe (-1))
        [(.fbCreate 1, 0), (.fbDestroy 1, 0)] w ∧
      ¬ Accounted (World.atProbe (-1)) w := by
  let mipi := mi0283qtProbe mainSpi true true true false
  have hCreate : ∃ w,
      EventStep Env.granting mipi (World.atProbe (-1))
        (.fbCreate 1, 0) w ∧ fbIds w.fbs = [1] ∧
      Accounted (World.atProbe (-1)) w :=
    ⟨_, rfl, rfl, rfl⟩
  rcases hCreate with ⟨w, hCreate, hIds, hAccounted⟩
  have hListed : (1 : UInt32) ∈ fbIds w.fbs := by
    rw [hIds]
    decide
  rcases utinydrmFbDestroy_outcome Env.granting hListed with
    ⟨w', _, _, _, hReturns, _, _⟩
  have hDestroy : EventStep Env.granting mipi w
      (.fbDestroy 1, 0) w' := hReturns
  have hRun : Transition.Run (EventStep Env.granting mipi)
      (fun _ _ label => label.1.OfFb) (World.atProbe (-1))
      [(.fbCreate 1, 0)] w :=
    .snoc .nil trivial hCreate
  refine ⟨w', .snoc hRun trivial hDestroy, ?_⟩
  have hPrefix := prefix_log_fbRun (fun _ _ _ h => h) hRun
  intro hKept
  have hFb : (Event.fbDestroy 1).OfFb := trivial
  exact (accounted_step_iff hPrefix hAccounted hFb
    hDestroy).mp hKept hListed

end Utinydrm
