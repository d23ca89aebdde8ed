import Utinydrm.Device.World

/-
  The transmit buffer of `utinydrm.c`: a dma-buf created on
  the first register write and kept in a global.

  Key definitions include:
    * `utinydrmCreateDmabuf`
    * `utinydrmGetTxBuf`
    * `DmabufGranted`

  What asking for the buffer does is given by:
    * `utinydrmGetTxBuf_cases`
-/

------------------------------------------------------------
-- Calls
------------------------------------------------------------

namespace Utinydrm

variable (env : Env)

/- `DRM_IOCTL_MODE_CREATE_DUMB`: the size of the buffer. -/
def createDumb : Driver (Except Errno Nat) := fun w =>
  .ok (env.createDumb w.now)
    (w.record (.createDumb (env.createDumb w.now)))

/- `DRM_IOCTL_UDRM_PRIME_HANDLE_TO_FD`. -/
def primeHandleToFd : Driver (Except Errno Int) := fun w =>
  .ok (env.primeHandleToFd w.now)
    (w.record (.primeHandleToFd (env.primeHandleToFd w.now)))

/- `mmap` of a dma-buf. -/
def mmap (size : Nat) : Driver (Except Errno Nat) := fun w =>
  .ok (env.mmap w.now) (w.record (.mmap size (env.mmap w.now)))

end Utinydrm

------------------------------------------------------------
-- Creating The Buffer
------------------------------------------------------------

namespace Utinydrm

variable (env : Env)

/- `bo_create_dumb`: of the buffer object, its size. -/
def boCreateDumb : Driver (Option Nat) := do
  let granted ← kmalloc env
  if granted then do
    let bo ← createDumb env
    match bo with
    | .ok size => pure (some size)
    | .error _ => pure none
  else
    pure none

/- `utinydrm_create_dmabuf`: a buffer or an error pointer. -/
def utinydrmCreateDmabuf : Driver (Except Int UdmaBuf) := do
  modify fun w => w.record .createDmabuf
  let granted ← kmalloc env
  if granted then do
    let bo ← boCreateDumb env
    match bo with
    | none => pure (.error (-ENOMEM))
    | some size => do
        let prime ← primeHandleToFd env
        match prime with
        | .error e => pure (.error e.ret)
        | .ok fd => do
            let map ← mmap env size
            match map with
            | .error e => pure (.error e.ret)
            | .ok addr => pure (.ok ⟨fd, addr, size⟩)
  else
    pure (.error (-ENOMEM))

/-
  `utinydrm_get_tx_buf`. The result of the creation is stored
  in the global before it is checked. `dev->utinydrm` is set
  when the device is registered, before any event.
-/
def utinydrmGetTxBuf (len : Nat) : Driver (Option Nat) :=
  let width := 320
  let height := 240
  let bpp := 16
  if len > width * height * bpp / 8 then
    pure none
  else do
    let created ← utinydrmCreateDmabuf env
    match created with
    | .error e => do
        modify fun w => { w with txBuf := .err e }
        pure none
    | .ok buf => do
        modify fun w => { w with txBuf := .valid buf }
        pure (some buf.map)

end Utinydrm

------------------------------------------------------------
-- Outcomes
------------------------------------------------------------

namespace Utinydrm

variable {env : Env}

/-
  The kernel grants what a creation that starts with the
  `n`th call asks for: two allocations, the dumb buffer, its
  descriptor and its mapping.
-/
def DmabufGranted (env : Env) (n : Nat) : Prop :=
  env.kmalloc (n + 1) = true ∧ env.kmalloc (n + 2) = true ∧
    (env.createDumb (n + 3)).isOk = true ∧
    (env.primeHandleToFd (n + 4)).isOk = true ∧
    (env.mmap (n + 5)).isOk = true

/- The calls a creation makes after its message. -/
def Call.asksForDmabuf : Call → Bool
| .kmalloc _ => true
| .createDumb _ => true
| .primeHandleToFd _ => true
| .mmap _ _ => true
| _ => false

/- The state after the message and some of these calls. -/
def World.AfterCreation (w : World) : World → Prop :=
  (w.record .createDmabuf).AfterCalls Call.asksForDmabuf

section Sequences

variable {α : Type} (w : World)

theorem createDumb_bind
    (next : Except Errno Nat → Driver α) :
    (createDumb env >>= next) w =
      next (env.createDumb w.now)
        (w.record (.createDumb (env.createDumb w.now))) :=
  rfl

theorem primeHandleToFd_bind
    (next : Except Errno Int → Driver α) :
    (primeHandleToFd env >>= next) w =
      next (env.primeHandleToFd w.now)
        (w.record
          (.primeHandleToFd (env.primeHandleToFd w.now))) :=
  rfl

theorem mmap_bind
    (size : Nat) (next : Except Errno Nat → Driver α) :
    (mmap env size >>= next) w =
      next (env.mmap w.now)
        (w.record (.mmap size (env.mmap w.now))) := rfl

theorem record_bind
    (call : Call) (next : PUnit → Driver α) :
    ((modify fun w => w.record call) >>= next) w =
      next ⟨⟩ (w.record call) := rfl

end Sequences

/-
  A creation returns. It returns a buffer exactly when the
  kernel grants everything.
-/
theorem utinydrmCreateDmabuf_cases
    (env : Env) (w : World) :
    ∃ created w', utinydrmCreateDmabuf env w =
        .ok created w' ∧
      w.AfterCreation w' ∧
      ((∃ buf, created = .ok buf) ↔
        DmabufGranted env w.now) := by
  unfold DmabufGranted utinydrmCreateDmabuf boCreateDumb
  have hStart : w.AfterCreation (w.record .createDmabuf) :=
    World.AfterCalls.refl _ _
  simp only [bind_assoc, record_bind, kmalloc_bind,
    World.now_record]
  -- the calls in their order, each with its two answers
  cases hUdma : env.kmalloc (w.now + 1) with
  | false => exact ⟨_, _, rfl, hStart.record rfl, by simp⟩
  | true =>
  simp only [if_true, kmalloc_bind, World.now_record]
  cases hBo : env.kmalloc (w.now + 2) with
  | false =>
      exact ⟨_, _, rfl, (hStart.record rfl).record rfl,
        by simp⟩
  | true =>
  have hAfter : w.AfterCreation
      (((w.record .createDmabuf).record
        (.kmalloc true)).record (.kmalloc true)) :=
    (hStart.record rfl).record rfl
  simp only [if_true, bind_assoc, createDumb_bind,
    World.now_record]
  cases hDumb : env.createDumb (w.now + 3) with
  | error e =>
      exact ⟨_, _, rfl, hAfter.record rfl,
        by simp [Except.isOk, Except.toBool]⟩
  | ok size =>
  simp only [pure_bind, primeHandleToFd_bind,
    World.now_record]
  cases hPrime : env.primeHandleToFd (w.now + 4) with
  | error e =>
      exact ⟨_, _, rfl, (hAfter.record rfl).record rfl,
        by simp [Except.isOk, Except.toBool]⟩
  | ok fd =>
  simp only [mmap_bind, World.now_record]
  cases hMap : env.mmap (w.now + 5) with
  | error e =>
      exact ⟨_, _, rfl,
        ((hAfter.record rfl).record rfl).record rfl,
        by simp [Except.isOk, Except.toBool]⟩
  | ok addr =>
      exact ⟨_, _, rfl,
        ((hAfter.record rfl).record rfl).record rfl,
        by simp [Except.isOk, Except.toBool]⟩

/-
  Asking for the buffer returns. When the wanted length is
  too long nothing happens; else a creation is tried and its
  result is in the global.
-/
theorem utinydrmGetTxBuf_cases
    (env : Env) (len : Nat) (w : World) :
    (320 * 240 * 16 / 8 < len ∧
      utinydrmGetTxBuf env len w = .ok none w) ∨
    (len ≤ 320 * 240 * 16 / 8 ∧ ∃ w',
      w.AfterCreation w' ∧
      ((∃ e, ¬ DmabufGranted env w.now ∧
          utinydrmGetTxBuf env len w =
            .ok none { w' with txBuf := .err e }) ∨
        (∃ buf, DmabufGranted env w.now ∧
          utinydrmGetTxBuf env len w =
            .ok (some buf.map)
              { w' with txBuf := .valid buf }))) := by
  unfold utinydrmGetTxBuf
  by_cases hLen : 320 * 240 * 16 / 8 < len
  · exact Or.inl ⟨hLen, by simp [hLen]⟩
  · refine Or.inr ⟨by omega, ?_⟩
    rcases utinydrmCreateDmabuf_cases env w with
      ⟨created, w', hRun, hAfter, hGranted⟩
    refine ⟨w', hAfter, ?_⟩
    simp only [hLen, if_false, Effect.bind_of_ok hRun]
    cases created with
    | error e =>
        have hNot : ¬ DmabufGranted env w.now := by
          simp [← hGranted]
        exact Or.inl ⟨e, hNot, rfl⟩
    | ok buf =>
        exact Or.inr ⟨buf, hGranted.mp ⟨buf, rfl⟩, rfl⟩

/- A buffer object has a size the kernel gave. -/
theorem returns_boCreateDumb (env : Env) :
    Effect.Returns
      (fun bo => ∀ size, bo = some size →
        ∃ n, env.createDumb n = .ok size)
      (boCreateDumb env) := by
  intro w bo w' hRun size hSize
  unfold boCreateDumb at hRun
  rw [kmalloc_bind] at hRun
  split at hRun
  case isFalse =>
    cases hRun
    cases hSize
  case isTrue =>
    rw [createDumb_bind] at hRun
    cases hCreated : env.createDumb (w.now + 1) with
    | error e =>
        simp only [World.now_record, hCreated] at hRun
        cases hRun
        cases hSize
    | ok created =>
        simp only [World.now_record, hCreated] at hRun
        cases hRun
        cases hSize
        exact ⟨_, hCreated⟩

/- A buffer has the size of its buffer object. -/
theorem returns_utinydrmCreateDmabuf (env : Env) :
    Effect.Returns
      (fun created => ∀ buf, created = .ok buf →
        ∃ n, env.createDumb n = .ok buf.mapSize)
      (utinydrmCreateDmabuf env) := by
  intro w created w' hRun buf hBuf
  rw [hBuf] at hRun
  unfold utinydrmCreateDmabuf at hRun
  rw [record_bind, kmalloc_bind] at hRun
  split at hRun
  case isFalse => cases hRun
  case isTrue =>
    rcases Effect.exists_of_bind_ok hRun with
      ⟨bo, s, hBo, hRest⟩
    have hSize := returns_boCreateDumb env _ bo s hBo
    cases bo with
    | none => cases hRest
    | some size =>
        simp only [primeHandleToFd_bind] at hRest
        cases hPrime : env.primeHandleToFd s.now with
        | error e =>
            rw [hPrime] at hRest
            cases hRest
        | ok fd =>
            simp only [hPrime, mmap_bind] at hRest
            cases hMap : env.mmap
                (s.record (.primeHandleToFd (.ok fd))).now with
            | error e =>
                rw [hMap] at hRest
                cases hRest
            | ok addr =>
                rw [hMap] at hRest
                cases hRest
                exact hSize size rfl

/- One that is granted has room, and is the one in the global. -/
theorem utinydrmGetTxBuf_some
    {len addr : Nat} {w w' : World}
    (hRun : utinydrmGetTxBuf env len w = .ok (some addr) w') :
    len ≤ 320 * 240 * 16 / 8 ∧
      ∃ buf, w'.txBuf = .valid buf ∧ buf.map = addr ∧
        ∃ n, env.createDumb n = .ok buf.mapSize := by
  unfold utinydrmGetTxBuf at hRun
  split at hRun
  case isTrue => cases hRun
  case isFalse hRoom =>
    rcases Effect.exists_of_bind_ok hRun with
      ⟨created, s, hCreated, hRest⟩
    have hSize := returns_utinydrmCreateDmabuf env w created s
      hCreated
    cases created with
    | error e => cases hRest
    | ok buf =>
        cases hRest
        exact ⟨by omega, buf, rfl, rfl, hSize buf rfl⟩

end Utinydrm
