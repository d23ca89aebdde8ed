import Utinydrm.MipiDbi.Pipe
import Utinydrm.Lib.Transition

/-
  `utinydrm.c`: the handlers of the events the kernel sends,
  and the list of framebuffers they keep.

  Key definitions include:
    * `utinydrmFbCreate`
    * `utinydrmFbDestroy`
    * `utinydrmFbDirty`
    * `utinydrmEvent`
    * `EventStep`: an event as a step of the process
    * `handleEvents`: one event after another
-/

------------------------------------------------------------
-- Creating A Framebuffer
------------------------------------------------------------

namespace Utinydrm

variable (env : Env)

/- `DRM_IOCTL_MODE_GETFB`. -/
def getFb (id : UInt32) :
    Driver (Except Errno DrmModeFbCmd) := fun w =>
  .ok (env.getFb w.now) (w.record (.getFb id (env.getFb w.now)))

/- `munmap`. -/
def munmap (map size : Nat) : Driver (Option Errno) := fun w =>
  .ok (env.munmap w.now)
    (w.record (.munmap map size (env.munmap w.now)))

/- `drm_mode_legacy_fb_format`. -/
def drmModeLegacyFbFormat (bpp depth : UInt32) : PixelFormat :=
  if bpp = 8 then
    .c8
  else if bpp = 16 then
    if depth = 15 then .xrgb1555 else .rgb565
  else if bpp = 24 then
    .rgb888
  else if bpp = 32 then
    if depth = 24 then .xrgb8888
    else if depth = 30 then .xrgb2101010
    else .argb8888
  else
    .xrgb8888

/-
  `utinydrm_fb_create`. The address of the new structure is
  that of its `calloc`, which no other call has.
-/
def utinydrmFbCreate (fbId : UInt32) : Driver Int := do
  let w ← get
  let granted ← kmalloc env
  if granted then do
    let fb ← getFb env fbId
    match fb with
    | .error e => pure e.ret
    | .ok info => do
        let prime ← primeHandleToFd env
        match prime with
        | .error e => pure e.ret
        | .ok fd => do
            let mapSize := info.height * info.pitch
            let map ← mmap env mapSize.toNat
            match map with
            | .error e => pure e.ret
            | .ok addr => do
                modify fun s =>
                  { s with
                    fbs :=
                      { addr := w.now
                        id := fbId
                        handle := info.handle
                        bufFd := fd
                        map := addr
                        mapSize := mapSize
                        width := info.width
                        height := info.height
                        pitch := info.pitch
                        pixelFormat :=
                          drmModeLegacyFbFormat info.bpp
                            info.depth } :: s.fbs }
                pure 0
  else
    pure (-ENOMEM)

end Utinydrm

------------------------------------------------------------
-- Destroying A Framebuffer
------------------------------------------------------------

namespace Utinydrm

variable (env : Env)

/-
  `for (prev = &udev->fbs, curr = prev; *curr != NULL;
  prev = curr, curr = &(*curr)->next)` up to the entry with
  the id. The pointers point at slots: slot 0 is `udev->fbs`
  and slot `k + 1` is `next` of the `k`th entry.
-/
def findSlots
    (id : UInt32) :
    List UtinydrmFb → Nat → Nat → Option (Nat × Nat × UtinydrmFb)
| [], _, _ => none
| ufb :: rest, prev, curr =>
    if ufb.id = id then
      some (prev, curr, ufb)
    else
      findSlots id rest curr (curr + 1)

/-
  `*prev = (*curr)->next`: the list read from slot `prev` on
  is what followed the entry in slot `curr`.
-/
def unlinkSlot
    (fbs : List UtinydrmFb) (prev curr : Nat) :
    List UtinydrmFb :=
  fbs.take prev ++ fbs.drop (curr + 1)

/- `utinydrm_fb_destroy`. A failed `munmap` is only reported. -/
def utinydrmFbDestroy (fbId : UInt32) : Driver Int := do
  let w ← get
  match findSlots fbId w.fbs 0 0 with
  | none => pure (-EINVAL)
  | some (prev, curr, ufb) => do
      modify fun s =>
        { s with fbs := unlinkSlot s.fbs prev curr }
      let _ ← munmap env ufb.map ufb.mapSize.toNat
      pure 0

end Utinydrm

------------------------------------------------------------
-- Events
------------------------------------------------------------

namespace Utinydrm

variable (env : Env)

/- `struct drm_mode_fb_dirty_cmd`, less its user pointer. -/
structure DrmModeFbDirtyCmd where
  fbId : UInt32
  flags : UInt32
  color : UInt32
  numClips : UInt32
deriving DecidableEq, Repr

/- `utinydrm_fb_dirty`. The result of the flush is not used. -/
def utinydrmFbDirty
    (mipi : MipiDbi) (dirty : DrmModeFbDirtyCmd)
    (clips : Nat → DrmClipRect) : Driver Int := do
  let w ← get
  match w.fbs.find? (fun ufb => ufb.id = dirty.fbId) with
  | none => pure 0
  | some ufb => do
      modify fun s => { s with planeFb := some ufb }
      let _ ← mipiDbiFbDirty env mipi ufb dirty.flags
        (some clips) dirty.numClips
      pure 0

/- `utinydrm_pipe_enable`. -/
def utinydrmPipeEnable (mipi : MipiDbi) : Driver Int := do
  mi0283qtEnable env mipi
  pure 0

/- `utinydrm_pipe_disable`. -/
def utinydrmPipeDisable (mipi : MipiDbi) : Driver Int := do
  mipiDbiPipeDisable env mipi
  pure 0

/- The events, with what their handlers read. -/
inductive Event where
| pipeEnable
| pipeDisable
| fbCreate (fbId : UInt32)
| fbDestroy (fbId : UInt32)
| fbDirty (dirty : DrmModeFbDirtyCmd) (clips : Nat → DrmClipRect)
| unknown

/- `utinydrm_event`, on an event that has been read. -/
def utinydrmEvent (mipi : MipiDbi) : Event → Driver Int
| .pipeEnable => utinydrmPipeEnable env mipi
| .pipeDisable => utinydrmPipeDisable env mipi
| .fbCreate fbId => utinydrmFbCreate env fbId
| .fbDestroy fbId => utinydrmFbDestroy env fbId
| .fbDirty dirty clips => utinydrmFbDirty env mipi dirty clips
| .unknown => pure 0

/-
  Handling an event with a result is a step of the process.
  A handler that faults ends the process.
-/
def EventStep
    (mipi : MipiDbi)
    (w : World) (label : Event × Int) (w' : World) : Prop :=
  utinydrmEvent env mipi label.1 w = .ok label.2 w'

/- Handle events one after another, whatever they return. -/
def handleEvents (mipi : MipiDbi) : List Event → Driver Unit
| [] => pure ()
| event :: rest => do
    let _ ← utinydrmEvent env mipi event
    handleEvents mipi rest

/- This takes the process along a run. -/
theorem run_of_handleEvents
    {env : Env} {mipi : MipiDbi}
    {w₀ w w' : World} {history : List (Event × Int)}
    (hRun : Transition.Run (EventStep env mipi)
      Transition.unguarded w₀ history w)
    {events : List Event}
    (hHandled : handleEvents env mipi events w = .ok () w') :
    ∃ history', Transition.Run (EventStep env mipi)
      Transition.unguarded w₀ history' w' := by
  induction events generalizing history w with
  | nil =>
      cases hHandled
      exact ⟨history, hRun⟩
  | cons event rest ih =>
      rcases Effect.exists_of_bind_ok hHandled with
        ⟨ret, s, hEvent, hRest⟩
      have hStep : EventStep env mipi w (event, ret) s := hEvent
      exact ih (.snoc hRun trivial hStep) hRest

section Pipe

variable {env : Env} {mipi : MipiDbi}
variable {w w' : World} {ret : Int}

/- An enable event runs the callback of the driver. -/
theorem mi0283qtEnable_of_event
    (hRun : utinydrmEvent env mipi .pipeEnable w =
      .ok ret w') :
    mi0283qtEnable env mipi w = .ok () w' := by
  rcases Effect.exists_of_bind_ok hRun with
    ⟨_, s, hEnable, hEnd⟩
  cases hEnd
  exact hEnable

/- A disable event runs that of `mipi-dbi.c`. -/
theorem mipiDbiPipeDisable_of_event
    (hRun : utinydrmEvent env mipi .pipeDisable w =
      .ok ret w') :
    mipiDbiPipeDisable env mipi w = .ok () w' := by
  rcases Effect.exists_of_bind_ok hRun with
    ⟨_, s, hDisable, hEnd⟩
  cases hEnd
  exact hDisable

end Pipe

end Utinydrm

------------------------------------------------------------
-- Probing
------------------------------------------------------------

namespace Utinydrm

/-
  `mi0283qt_probe`, with the optional devices it found. The
  properties are not set, and nothing sets the minimum size
  in `drm->mode_config`.
-/
def mi0283qtProbe
    (spi : SpiDevice)
    (dc reset backlight regulator : Bool) : MipiDbi where
  mspi := mipiDbiSpiInit spi dc false
  rotation := 0
  minWidth := 0
  minHeight := 0
  reset := reset
  backlight := backlight
  regulator := regulator

/- The device of `main` without a line for the D/C bit. -/
abbrev option1Panel : MipiDbi :=
  mi0283qtProbe mainSpi false false true false

/- The state after a successful probe. -/
structure World.Probed (w : World) : Prop where
  fbs : w.fbs = []
  planeFb : w.planeFb = none
  txBuf : w.txBuf = .null
  mspiTxBuf : w.mspiTxBuf = none
  prepared : w.prepared = false
  enabled : w.enabled = false
  led : w.level .led = false

theorem World.probed_atProbe (bufFd : Int) :
    (World.atProbe bufFd).Probed :=
  ⟨rfl, rfl, rfl, rfl, rfl, rfl, rfl⟩

end Utinydrm

------------------------------------------------------------
-- Outcomes Of Creating And Destroying
------------------------------------------------------------

namespace Utinydrm

/- The calls `utinydrm_fb_create` makes. -/
def Call.ofFbCreate : Call → Bool
| .kmalloc _ => true
| .getFb _ _ => true
| .primeHandleToFd _ => true
| .mmap _ _ => true
| _ => false

theorem getFb_bind
    {env : Env} {α : Type}
    (id : UInt32)
    (next : Except Errno DrmModeFbCmd → Driver α)
    (w : World) :
    (getFb env id >>= next) w =
      next (env.getFb w.now)
        (w.record (.getFb id (env.getFb w.now))) := rfl

/-
  The entry a creation makes of the size the kernel gave: the
  lines are mapped as a whole.
-/
structure UtinydrmFb.MadeOf
    (ufb : UtinydrmFb) (fbId : UInt32)
    (info : DrmModeFbCmd) : Prop where
  id : ufb.id = fbId
  width : ufb.width = info.width
  height : ufb.height = info.height
  pitch : ufb.pitch = info.pitch
  mapSize : ufb.mapSize = info.height * info.pitch

/- Its structure was allocated by the first call since. -/
structure UtinydrmFb.AllocatedSince
    (ufb : UtinydrmFb) (w w' : World) : Prop where
  addr : ufb.addr = w.now
  later : w.now < w'.now

/- The entry a creation makes of its answers. -/
def madeFb
    (w : World) (fbId : UInt32) (info : DrmModeFbCmd)
    (fd : Int) (addr : Nat) : UtinydrmFb where
  addr := w.now
  id := fbId
  handle := info.handle
  bufFd := fd
  map := addr
  mapSize := info.height * info.pitch
  width := info.width
  height := info.height
  pitch := info.pitch
  pixelFormat := drmModeLegacyFbFormat info.bpp info.depth

/-
  The ways a creation can go: the calls it makes until one is
  refused, its result, and the list it leaves.
-/
inductive CreateRun
    (env : Env) (fbId : UInt32) (w : World) :
    List Call → Int → List UtinydrmFb → Prop
| noMemory :
    env.kmalloc w.now = false →
    CreateRun env fbId w [.kmalloc false] (-ENOMEM) w.fbs
| noInfo (e : Errno) :
    env.kmalloc w.now = true →
    env.getFb (w.now + 1) = .error e →
    CreateRun env fbId w
      [.kmalloc true, .getFb fbId (.error e)] e.ret w.fbs
| noPrime (info : DrmModeFbCmd) (e : Errno) :
    env.kmalloc w.now = true →
    env.getFb (w.now + 1) = .ok info →
    env.primeHandleToFd (w.now + 2) = .error e →
    CreateRun env fbId w
      [.kmalloc true, .getFb fbId (.ok info),
        .primeHandleToFd (.error e)] e.ret w.fbs
| noMap (info : DrmModeFbCmd) (fd : Int) (e : Errno) :
    env.kmalloc w.now = true →
    env.getFb (w.now + 1) = .ok info →
    env.primeHandleToFd (w.now + 2) = .ok fd →
    env.mmap (w.now + 3) = .error e →
    CreateRun env fbId w
      [.kmalloc true, .getFb fbId (.ok info),
        .primeHandleToFd (.ok fd),
        .mmap (info.height * info.pitch).toNat (.error e)]
      e.ret w.fbs
| created (info : DrmModeFbCmd) (fd : Int) (addr : Nat) :
    env.kmalloc w.now = true →
    env.getFb (w.now + 1) = .ok info →
    env.primeHandleToFd (w.now + 2) = .ok fd →
    env.mmap (w.now + 3) = .ok addr →
    CreateRun env fbId w
      [.kmalloc true, .getFb fbId (.ok info),
        .primeHandleToFd (.ok fd),
        .mmap (info.height * info.pitch).toNat (.ok addr)]
      0 (madeFb w fbId info fd addr :: w.fbs)

theorem utinydrmFbCreate_run
    (env : Env) (fbId : UInt32) (w : World) :
    ∃ calls ret fbs, CreateRun env fbId w calls ret fbs ∧
      utinydrmFbCreate env fbId w =
        .ok ret { w with log := w.log ++ calls, fbs := fbs } := by
  unfold utinydrmFbCreate
  rw [Effect.bind_of_ok (Effect.get_apply w), kmalloc_bind]
  -- the calls in their order, each with its two answers
  cases hAlloc : env.kmalloc w.now with
  | false => exact ⟨_, _, _, .noMemory hAlloc, rfl⟩
  | true =>
  simp only [if_true, getFb_bind, World.now_record]
  cases hInfo : env.getFb (w.now + 1) with
  | error e =>
      refine ⟨_, _, _, .noInfo e hAlloc hInfo, ?_⟩
      simp [World.record]
  | ok info =>
  simp only [primeHandleToFd_bind, World.now_record]
  cases hPrime : env.primeHandleToFd (w.now + 2) with
  | error e =>
      refine ⟨_, _, _, .noPrime info e hAlloc hInfo hPrime, ?_⟩
      simp [World.record]
  | ok fd =>
  simp only [mmap_bind, World.now_record]
  cases hMap : env.mmap (w.now + 3) with
  | error e =>
      refine ⟨_, _, _,
        .noMap info fd e hAlloc hInfo hPrime hMap, ?_⟩
      simp [World.record]
  | ok addr =>
      refine ⟨_, _, _,
        .created info fd addr hAlloc hInfo hPrime hMap, ?_⟩
      simp [World.record, madeFb]
      rfl

/-
  A creation returns. When it fails only calls were made;
  else a framebuffer with the id, of the size the kernel
  gave, was put in front of the list.
-/
theorem utinydrmFbCreate_cases
    (env : Env) (fbId : UInt32) (w : World) :
    ∃ ret w', w.AfterCalls Call.ofFbCreate w' ∧
      ((ret ≠ 0 ∧ utinydrmFbCreate env fbId w = .ok ret w') ∨
        ∃ ufb n info, env.getFb n = .ok info ∧
          ufb.MadeOf fbId info ∧ ufb.AllocatedSince w w' ∧
          utinydrmFbCreate env fbId w =
            .ok 0 { w' with fbs := ufb :: w'.fbs }) := by
  rcases utinydrmFbCreate_run env fbId w with
    ⟨calls, ret, fbs, hCreate, hRun⟩
  have hCalls : ∀ c ∈ calls, c.ofFbCreate = true := by
    cases hCreate <;> simp [Call.ofFbCreate]
  refine ⟨ret, { w with log := w.log ++ calls },
    ⟨calls, rfl, hCalls⟩, ?_⟩
  rw [hRun]
  cases hCreate with
  | noMemory => exact Or.inl ⟨by decide, rfl⟩
  | noInfo e => exact Or.inl ⟨e.ret_ne_zero, rfl⟩
  | noPrime info e => exact Or.inl ⟨e.ret_ne_zero, rfl⟩
  | noMap info fd e => exact Or.inl ⟨e.ret_ne_zero, rfl⟩
  | created info fd addr hAlloc hInfo =>
      refine Or.inr ⟨madeFb w fbId info fd addr, _, info, hInfo,
        ⟨rfl, rfl, rfl, rfl, rfl⟩, ⟨rfl, ?_⟩, rfl⟩
      simp [World.now]

/- Unlinking only removes entries. -/
theorem mem_of_mem_unlinkSlot
    {fbs : List UtinydrmFb} {prev curr : Nat}
    {ufb : UtinydrmFb}
    (hMem : ufb ∈ unlinkSlot fbs prev curr) :
    ufb ∈ fbs := by
  rcases List.mem_append.mp hMem with hTake | hDrop
  · exact List.mem_of_mem_take hTake
  · exact List.mem_of_mem_drop hDrop

/- Destroying refuses, or unlinks and unmaps an entry. -/
theorem utinydrmFbDestroy_cases
    (env : Env) (fbId : UInt32) (w : World) :
    utinydrmFbDestroy env fbId w = .ok (-EINVAL) w ∨
    ∃ prev curr map size result,
      utinydrmFbDestroy env fbId w =
        .ok 0
          { w with
            fbs := unlinkSlot w.fbs prev curr
            log := w.log ++ [.munmap map size result] } := by
  unfold utinydrmFbDestroy
  rw [Effect.bind_of_ok (Effect.get_apply w)]
  cases hFound : findSlots fbId w.fbs 0 0 with
  | none => exact Or.inl rfl
  | some found => exact Or.inr ⟨_, _, _, _, _, rfl⟩

end Utinydrm

------------------------------------------------------------
-- Contracts
------------------------------------------------------------

namespace Utinydrm

variable {env : Env}
variable {C : Effect.Contract Fault World}

theorem meets_utinydrmFbDirty
    (hDirty : DirtyContract env C)
    (hPlane : ∀ w fb, C.step w { w with planeFb := fb })
    (mipi : MipiDbi) (dirty : DrmModeFbDirtyCmd)
    (clips : Nat → DrmClipRect) (w : World) :
    Effect.Meets C
      (utinydrmFbDirty env mipi dirty clips) w := by
  apply Effect.meets_get_bind
  cases w.fbs.find? (fun ufb => ufb.id = dirty.fbId) with
  | none => exact Effect.meets_pure _ w
  | some ufb =>
      refine Effect.meets_bind
        (Effect.meets_modify (hPlane w _)) fun _ s _ => ?_
      exact Effect.meets_bind
        (meets_mipiDbiFbDirty hDirty _ _ _ _ _ s)
        fun _ s _ => Effect.meets_pure _ s

/-
  An event keeps a contract of the pipe, provided that
  creating and destroying framebuffers does.
-/
theorem meets_utinydrmEvent
    (hPipe : PipeContract env C)
    (hPlane : ∀ w fb, C.step w { w with planeFb := fb })
    (mipi : MipiDbi) (event : Event) (w : World)
    (hCreate : ∀ fbId, event = .fbCreate fbId →
      Effect.Meets C (utinydrmFbCreate env fbId) w)
    (hDestroy : ∀ fbId, event = .fbDestroy fbId →
      Effect.Meets C (utinydrmFbDestroy env fbId) w) :
    Effect.Meets C (utinydrmEvent env mipi event) w := by
  cases event with
  | pipeEnable =>
      exact Effect.meets_bind
        (meets_mi0283qtEnable hPipe.toEnableContract _ w)
        fun _ s _ => Effect.meets_pure _ s
  | pipeDisable =>
      exact Effect.meets_bind
        (meets_mipiDbiPipeDisable hPipe.toDisableContract _ w)
        fun _ s _ => Effect.meets_pure _ s
  | fbCreate fbId => exact hCreate fbId rfl
  | fbDestroy fbId => exact hDestroy fbId rfl
  | fbDirty dirty clips =>
      exact meets_utinydrmFbDirty hPipe.toDirtyContract hPlane
        _ _ _ w
  | unknown => exact Effect.meets_pure _ w

end Utinydrm
