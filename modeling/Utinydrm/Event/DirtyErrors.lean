import Utinydrm.Event.PipeState
import Utinydrm.MipiDbi.Results
import Utinydrm.MipiDbi.CommandFailure

/-
  What becomes of the error of a register write that a dirty
  event makes.

  `mipi_dbi_fb_dirty` drops those of the two address writes,
  and `utinydrm_fb_dirty` drops what it returns.

  Key definitions include:
    * `FlushFails`, `DirtyFails` and `EventFails`
    * `DirtyReports` and `LossReported`

  Main declarations:
    * `dirtyReports_iff`
    * `dirty_loss_reported_iff`
-/

------------------------------------------------------------
-- Failing Writes
------------------------------------------------------------

namespace Utinydrm

/-
  One of the three writes returns an error, in the state the
  writes before it left.
-/
inductive FlushFails
    (env : Env) (mipi : MipiDbi) (fb : UtinydrmFb)
    (clip : DrmClipRect) (w : World) : Prop
| column {column s₁} :
    mipiDbiWriteBuf env mipi.mspi MIPI_DCS_SET_COLUMN_ADDRESS
      (columnAddress clip) w = .ok column s₁ →
    column ≠ 0 →
    FlushFails env mipi fb clip w
| page {column s₁ page s₂} :
    mipiDbiWriteBuf env mipi.mspi MIPI_DCS_SET_COLUMN_ADDRESS
      (columnAddress clip) w = .ok column s₁ →
    mipiDbiWriteBuf env mipi.mspi MIPI_DCS_SET_PAGE_ADDRESS
      (pageAddress clip) s₁ = .ok page s₂ →
    page ≠ 0 →
    FlushFails env mipi fb clip w
| memory {column s₁ page s₂ memory s₃} :
    mipiDbiWriteBuf env mipi.mspi MIPI_DCS_SET_COLUMN_ADDRESS
      (columnAddress clip) w = .ok column s₁ →
    mipiDbiWriteBuf env mipi.mspi MIPI_DCS_SET_PAGE_ADDRESS
      (pageAddress clip) s₁ = .ok page s₂ →
    tinydrmRegmapFlushRgb565 env mipi.mspi
      MIPI_DCS_WRITE_MEMORY_START fb (.mapped fb.map) clip
      s₂ = .ok memory s₃ →
    memory ≠ 0 →
    FlushFails env mipi fb clip w

/- The last of them does. -/
def MemoryFails
    (env : Env) (mipi : MipiDbi) (fb : UtinydrmFb)
    (clip : DrmClipRect) (w : World) : Prop :=
  ∃ memory s, mipiDbiFbFlush env mipi fb clip w =
    .ok memory s ∧ memory ≠ 0

theorem MemoryFails.flushFails
    {env : Env} {mipi : MipiDbi} {fb : UtinydrmFb}
    {clip : DrmClipRect} {w : World}
    (hFails : MemoryFails env mipi fb clip w) :
    FlushFails env mipi fb clip w := by
  rcases hFails with ⟨memory, s₃, hRun, hMemory⟩
  rcases Effect.exists_of_bind_ok hRun with
    ⟨column, s₁, hColumn, hRest⟩
  rcases Effect.exists_of_bind_ok hRest with
    ⟨page, s₂, hPage, hFlush⟩
  exact .memory hColumn hPage hFlush hMemory

/-
  A call of `mipi_dbi_fb_dirty` writes the clip, and the
  writes of the clip have the property.
-/
def DirtyWrites
    (writes : DrmClipRect → World → Prop)
    (fb : UtinydrmFb) (flags : UInt32)
    (clips : Option (Nat → DrmClipRect)) (numClips : UInt32)
    (w : World) : Prop :=
  ∃ checked, tinydrmCheckDirty w clips numClips =
    some checked ∧
    writes (tinydrmMergeClips checked.1 checked.2 flags
      fb.width fb.height) w

/- One of the writes `mipi_dbi_fb_dirty` makes fails. -/
def DirtyFails
    (env : Env) (mipi : MipiDbi) (fb : UtinydrmFb) :
    UInt32 → Option (Nat → DrmClipRect) → UInt32 →
      World → Prop :=
  DirtyWrites (FlushFails env mipi fb) fb

/- The write of the pixels fails. -/
def DirtyMemoryFails
    (env : Env) (mipi : MipiDbi) (fb : UtinydrmFb) :
    UInt32 → Option (Nat → DrmClipRect) → UInt32 →
      World → Prop :=
  DirtyWrites (MemoryFails env mipi fb) fb

/- One of the writes behind a dirty event fails. -/
def EventFails
    (env : Env) (mipi : MipiDbi)
    (dirty : DrmModeFbDirtyCmd) (clips : Nat → DrmClipRect)
    (w : World) : Prop :=
  ∃ fb, w.fbs.find? (fun ufb => ufb.id = dirty.fbId) =
      some fb ∧
    DirtyFails env mipi fb dirty.flags (some clips)
      dirty.numClips { w with planeFb := some fb }

end Utinydrm

------------------------------------------------------------
-- Reports
------------------------------------------------------------

namespace Utinydrm

/- What was off has not gone on. -/
def StaysOff (w w' : World) : Prop :=
  (w.enabled = false → w'.enabled = false) ∧
    (w.level .led = false → w'.level .led = false)

theorem StaysOff.of_busStep
    {w w' : World}
    (hStep : BusStep w w') :
    StaysOff w w' :=
  ⟨fun h => hStep.enabled.trans h,
    fun h => (hStep.level .led (by simp)).trans h⟩

/- The call returns the error, and switches nothing on. -/
def DirtyReturns
    (env : Env) (mipi : MipiDbi) (fb : UtinydrmFb)
    (flags : UInt32)
    (clips : Option (Nat → DrmClipRect)) (numClips : UInt32)
    (w : World) (code : Int) (w' : World) : Prop :=
  mipiDbiFbDirty env mipi fb flags clips numClips w =
      .ok code w' ∧
    code < 0 ∧ StaysOff w w'

/- A failing write makes `mipi_dbi_fb_dirty` fail. -/
def DirtyReports
    (env : Env) (mipi : MipiDbi) (fb : UtinydrmFb)
    (flags : UInt32)
    (clips : Option (Nat → DrmClipRect)) (numClips : UInt32)
    (w : World) : Prop :=
  DirtyFails env mipi fb flags clips numClips w →
    ∃ code w',
      DirtyReturns env mipi fb flags clips numClips w code w'

/-
  A failing write behind a dirty event makes
  `mipi_dbi_fb_dirty` fail, and `utinydrm_event` gives back
  its error.
-/
def LossReported
    (env : Env) (mipi : MipiDbi)
    (dirty : DrmModeFbDirtyCmd) (clips : Nat → DrmClipRect)
    (w : World) : Prop :=
  EventFails env mipi dirty clips w →
    ∃ fb code w',
      w.fbs.find? (fun ufb => ufb.id = dirty.fbId) =
        some fb ∧
      DirtyReturns env mipi fb dirty.flags (some clips)
        dirty.numClips { w with planeFb := some fb } code w' ∧
      utinydrmEvent env mipi (.fbDirty dirty clips) w =
        .ok code w'

end Utinydrm

------------------------------------------------------------
-- What The Call Returns
------------------------------------------------------------

namespace Utinydrm

variable {env : Env} {mipi : MipiDbi} {fb : UtinydrmFb}
variable {flags : UInt32}
variable {clips : Option (Nat → DrmClipRect)}
variable {numClips : UInt32}

/- The writes of a flush only send. -/
theorem busStep_mipiDbiFbFlush
    {clip : DrmClipRect} {ret : Int} {w w' : World}
    (hRun : mipiDbiFbFlush env mipi fb clip w = .ok ret w') :
    BusStep w w' := by
  rcases exists_flush hRun with ⟨s, hStep, hFlush⟩
  have hLast :=
    (meets_tinydrmRegmapFlushRgb565 (busContract_busStep env)
      _ _ _ _ _ s).of_ok hFlush
  exact hStep.trans hLast

theorem mipiDbiFbFlush_code
    {clip : DrmClipRect} {ret : Int} {w w' : World}
    (hRun : mipiDbiFbFlush env mipi fb clip w = .ok ret w') :
    IsErrorCode ret := by
  rcases exists_flush hRun with ⟨s, _, hFlush⟩
  exact returns_tinydrmRegmapFlushRgb565
    (errorCodes_isErrorCode env) _ _ _ _ _ s _ _ hFlush

/- A call whose flush fails returns what the flush returned. -/
theorem dirtyReturns_of_memoryFails
    {w : World}
    (hFails : DirtyMemoryFails env mipi fb flags clips numClips
      w) :
    ∃ code w',
      DirtyReturns env mipi fb flags clips numClips w code
        w' := by
  rcases hFails with ⟨⟨clips', numClips'⟩, hChecked, hMemory⟩
  rcases hMemory with ⟨memory, s, hFlush, hNonzero⟩
  have hCode := mipiDbiFbFlush_code hFlush
  refine ⟨memory, s, ?_, lt_of_le_of_ne hCode hNonzero,
    .of_busStep (busStep_mipiDbiFbFlush hFlush)⟩
  unfold mipiDbiFbDirty
  rw [Effect.bind_of_ok (Effect.get_apply w), hChecked]
  exact (Effect.bind_of_ok hFlush).trans (by
    rw [if_pos hNonzero]
    rfl)

/-
  A call that returns an error has had a flush that failed:
  neither the check nor the backlight returns one.
-/
theorem memoryFails_of_dirtyReturns
    {w : World} {code : Int} {w' : World}
    (hReturns : DirtyReturns env mipi fb flags clips numClips w
      code w') :
    DirtyMemoryFails env mipi fb flags clips numClips w := by
  rcases hReturns with ⟨hRun, hNegative, _⟩
  unfold mipiDbiFbDirty at hRun
  rw [Effect.bind_of_ok (Effect.get_apply w)] at hRun
  cases hChecked : tinydrmCheckDirty w clips numClips with
  | none =>
      rw [hChecked] at hRun
      cases hRun
      exact absurd hNegative (lt_irrefl 0)
  | some checked =>
      rw [hChecked] at hRun
      rcases Effect.exists_of_bind_ok hRun with
        ⟨memory, s, hFlush, hEnd⟩
      refine ⟨checked, hChecked, memory, s, hFlush, ?_⟩
      rintro rfl
      rw [if_neg (by simp), mipiDbiFbEnable_eq] at hEnd
      cases hEnd
      exact absurd hNegative (lt_irrefl 0)

/-
  The call reports a failing write unless it is one of the
  two address writes only.
-/
theorem dirtyReports_iff
    {w : World} :
    DirtyReports env mipi fb flags clips numClips w ↔
      ¬ DirtyFails env mipi fb flags clips numClips w ∨
        DirtyMemoryFails env mipi fb flags clips numClips
          w := by
  constructor
  · intro hReports
    by_cases hFails :
        DirtyFails env mipi fb flags clips numClips w
    · rcases hReports hFails with ⟨code, w', hReturns⟩
      exact Or.inr (memoryFails_of_dirtyReturns hReturns)
    · exact Or.inl hFails
  · rintro (hNone | hMemory) hFails
    · exact absurd hFails hNone
    · exact dirtyReturns_of_memoryFails hMemory

/- Whatever becomes of the flush, the event gives back 0. -/
theorem returns_utinydrmFbDirty
    (dirty : DrmModeFbDirtyCmd)
    (clips : Nat → DrmClipRect) :
    Effect.Returns (· = 0)
      (utinydrmFbDirty env mipi dirty clips) := by
  apply Effect.returns_bind
  intro w
  cases w.fbs.find? (fun ufb => ufb.id = dirty.fbId) with
  | none => exact Effect.returns_pure rfl
  | some ufb =>
      exact Effect.returns_bind fun _ =>
        Effect.returns_bind fun _ => Effect.returns_pure rfl

/- So an error that was returned is lost. -/
theorem not_lossReported
    {dirty : DrmModeFbDirtyCmd} {clips : Nat → DrmClipRect}
    {w : World}
    (hFails : EventFails env mipi dirty clips w) :
    ¬ LossReported env mipi dirty clips w := by
  intro hReported
  rcases hReported hFails with
    ⟨_, code, w', _, ⟨_, hNegative, _⟩, hEvent⟩
  have hZero : code = 0 :=
    returns_utinydrmFbDirty dirty clips w code w' hEvent
  rw [hZero] at hNegative
  exact absurd hNegative (lt_irrefl 0)

end Utinydrm

------------------------------------------------------------
-- Lost Errors
------------------------------------------------------------

namespace Utinydrm

/-
  A call of `mipi_dbi_fb_dirty` reports a failing write, and
  leaves off what was off, unless only address writes fail.
  A dirty event reports none: it does what it should exactly
  when no write fails.
-/
theorem dirty_loss_reported_iff
    (env : Env) (mipi : MipiDbi) :
    (∀ fb flags clips numClips w,
      DirtyReports env mipi fb flags clips numClips w ↔
        ¬ DirtyFails env mipi fb flags clips numClips w ∨
          DirtyMemoryFails env mipi fb flags clips numClips
            w) ∧
    ∀ dirty clips w,
      LossReported env mipi dirty clips w ↔
        ¬ EventFails env mipi dirty clips w := by
  constructor
  · intro fb flags clips numClips w
    exact dirtyReports_iff
  · intro dirty clips w
    constructor
    · intro hReported hFails
      exact not_lossReported hFails hReported
    · intro hNone hFails
      exact absurd hFails hNone

/- On a bus where every message fails the errors are lost. -/
theorem dirty_loss_silent :
    ¬ ∀ (env : Env) (mipi : MipiDbi)
      (dirty : DrmModeFbDirtyCmd) (clips : Nat → DrmClipRect)
      (w : World), LossReported env mipi dirty clips w := by
  intro hClaim
  let w : World :=
    { World.atProbe (-1) with
      fbs := [UtinydrmFb.display], prepared := true }
  let dirty : DrmModeFbDirtyCmd := ⟨1, 0, 0, 0⟩
  have hTx : World.TxOk
      { w with planeFb := some UtinydrmFb.display } :=
    World.txOk_of_null rfl
  have hColumn := mipiDbiWriteBuf_command
    (emulatedBus_failing fun _ => true)
    MIPI_DCS_SET_COLUMN_ADDRESS
    (columnAddress (fullClip UtinydrmFb.display.width
      UtinydrmFb.display.height)) hTx
    (Or.inr (by simp [Env.failing]))
  rcases hColumn with ⟨s₁, hRun, _, _⟩
  have hFails : EventFails (Env.failing fun _ => true)
      option1Panel dirty (fun _ => ⟨0, 0, 0, 0⟩) w :=
    ⟨UtinydrmFb.display, rfl, (none, 0), rfl,
      .column hRun (by decide)⟩
  exact not_lossReported hFails (hClaim _ _ _ _ w)

end Utinydrm
