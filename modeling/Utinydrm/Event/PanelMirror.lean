import Utinydrm.Event.PanelFlush
import Mathlib.Data.Set.Basic

/-
  A panel that mirrors a framebuffer.

  A client draws into a framebuffer that is mapped and
  reports what it drew with dirty events. Every pixel that is
  not waiting to be reported is shown as it is in memory, in
  every order of drawing and reporting, as long as what is
  reported comes down to clips a flush can show.

  Key definitions include:
    * `MirrorStep`
    * `flushedClip`
    * `ReportsShowable`

  Main declarations:
    * `utinydrmFbDirty_shows`
    * `panel_mirrors_framebuffer`
-/

------------------------------------------------------------
-- Drawing And Reporting
------------------------------------------------------------

namespace Utinydrm

/- A client draws into an area, or reports clips. -/
inductive Stroke where
| draw (area : Set (Nat × Nat)) (mem : Nat → UInt8)
| dirty (dirty : DrmModeFbDirtyCmd) (clips : Nat → DrmClipRect)

/- The clip that is flushed: at first it is the whole screen. -/
def flushedClip
    (w : World) (fb : UtinydrmFb)
    (dirty : DrmModeFbDirtyCmd)
    (clips : Nat → DrmClipRect) : DrmClipRect :=
  tinydrmMergeClips (if w.enabled then some clips else none)
    (if w.enabled then dirty.numClips else 0) dirty.flags
    fb.width fb.height

/-
  A step of the client and the process, with the pixels that
  were drawn and not reported. Drawing changes no other pixel
  of the framebuffer.
-/
def MirrorStep
    (env : Env) (mipi : MipiDbi) (fb : UtinydrmFb)
    (s : World × Set (Nat × Nat)) (stroke : Stroke)
    (s' : World × Set (Nat × Nat)) : Prop :=
  match stroke with
  | .draw area mem =>
      s' = ({ s.1 with mem := mem }, s.2 ∪ area) ∧
      ∀ x y, (x, y) ∉ area →
        fb.pixelAt { s.1 with mem := mem } (fb.storedAt x y) =
          fb.pixelAt s.1 (fb.storedAt x y)
  | .dirty dirty clips =>
      (∃ ret, utinydrmFbDirty env mipi dirty clips s.1 =
        .ok ret s'.1) ∧
      s'.2 = s.2 \ { pixel |
        (flushedClip s.1 fb dirty clips).Holds pixel.1
          pixel.2 }

/- A flush of the clip shows it, whatever the memory holds. -/
structure DrmClipRect.Showable
    (clip : DrmClipRect) (fb : UtinydrmFb) : Prop where
  left : clip.x1.toNat = 0
  whole : clip.x2.toNat * fb.cpp = fb.pitch.toNat ∨
    clip.y2.toNat = 1
  fit : clip.LinesFit

/- Whatever was read, as it arrives. -/
theorem ClipInside.shown
    {fb : UtinydrmFb} {clip : DrmClipRect}
    (hInside : ClipInside fb clip)
    (hShowable : clip.Showable fb)
    (arrives : UInt16 → UInt16) (w : World) (panel : Panel) :
    ClipShown fb arrives clip w panel.picture
      (panel.run (clipFrames clip
        ((fb.flushPixels clip w).map arrives))).picture :=
  clipShown_of_fit arrives w hInside.nonempty
    ((readAt_eq_storedAt_iff hInside).mpr
      ⟨hShowable.left, hShowable.whole⟩) hShowable.fit panel

/- What is reported is of this framebuffer, and showable. -/
def ReportsShowable
    (fb : UtinydrmFb) (_ : List Stroke)
    (s : World × Set (Nat × Nat)) : Stroke → Prop
| .draw _ _ => True
| .dirty dirty clips =>
    dirty.fbId = fb.id ∧
      (flushedClip s.1 fb dirty clips).Showable fb

end Utinydrm

------------------------------------------------------------
-- One Report
------------------------------------------------------------

namespace Utinydrm

variable {env : Env}

/-
  A framebuffer of one of the two formats, of a size of 16
  bits, that is mapped as a whole.
-/
structure UtinydrmFb.WellSized (fb : UtinydrmFb) : Prop where
  format :
    fb.pixelFormat = .rgb565 ∨ fb.pixelFormat = .xrgb8888
  width : 0 < fb.width.toNat ∧ fb.width.toNat ≤ 65535
  height : 0 < fb.height.toNat ∧ fb.height.toNat ≤ 65535
  pitch : fb.width.toNat * fb.cpp ≤ fb.pitch.toNat
  bytes : fb.height.toNat * fb.pitch.toNat < 2 ^ 32
  size : fb.mapSize.toNat = fb.height.toNat * fb.pitch.toNat

namespace UtinydrmFb.WellSized

variable {fb : UtinydrmFb}

/- Whatever is reported, the clip lies on the screen. -/
theorem clipInside
    (hSized : fb.WellSized) (w : World)
    (dirty : DrmModeFbDirtyCmd) (clips : Nat → DrmClipRect) :
    ClipInside fb (flushedClip w fb dirty clips) := by
  rcases merged_clip_good
      (if w.enabled then some clips else none)
      (if w.enabled then dirty.numClips else 0) dirty.flags
      hSized.width hSized.height with ⟨hNonempty, hOnScreen⟩
  exact ⟨hSized.format, hSized.pitch, hSized.bytes, hNonempty,
    hOnScreen⟩

/- A pixel on the screen lies in the mapping. -/
theorem stored_inside
    (hSized : fb.WellSized) {x y : Nat}
    (hX : x < fb.width.toNat) (hY : y < fb.height.toNat) :
    fb.storedAt x y + fb.cpp ≤ fb.mapSize.toNat := by
  have hColumn : (x + 1) * fb.cpp ≤
      fb.width.toNat * fb.cpp :=
    Nat.mul_le_mul_right _ hX
  have hLine : (y + 1) * fb.pitch.toNat ≤
      fb.height.toNat * fb.pitch.toNat :=
    Nat.mul_le_mul_right _ hY
  have hPitch := hSized.pitch
  rw [hSized.size, UtinydrmFb.storedAt]
  rw [Nat.add_mul, Nat.one_mul] at hColumn hLine
  omega

end UtinydrmFb.WellSized

/- The end of a dirty event sends nothing and keeps buffers. -/
theorem mipiDbiFbEnable_quiet
    (env : Env) (mipi : MipiDbi) (w : World) :
    ∃ ret w', mipiDbiFbEnable env mipi 0 w = .ok ret w' ∧
      w.Quiet w' ∧ w'.mem = w.mem ∧ w'.fbs = w.fbs ∧
      w'.bufFd = w.bufFd ∧ w'.txBuf = w.txBuf ∧
      w'.mspiTxBuf = w.mspiTxBuf ∧
      w'.prepared = w.prepared := by
  have hLed : w.Quiet (w.afterGpio env .led true) :=
    w.quiet_afterGpio .led true
  unfold mipiDbiFbEnable tinydrmEnableBacklight
  rw [Effect.bind_of_ok (Effect.get_apply w)]
  cases w.enabled with
  | true =>
      exact ⟨_, w, rfl, .of_log_eq rfl, rfl, rfl, rfl, rfl, rfl,
        rfl⟩
  | false =>
      cases mipi.backlight with
      | false =>
          exact ⟨_, _, rfl, .of_log_eq rfl, rfl, rfl, rfl, rfl,
            rfl, rfl⟩
      | true =>
          exact ⟨_, _, rfl, hLed.trans (.of_log_eq rfl), rfl,
            rfl, rfl, rfl, rfl, rfl⟩

/- What a dirty event of a prepared display does. -/
theorem utinydrmFbDirty_eq
    (mipi : MipiDbi) {fb : UtinydrmFb} {w : World}
    {dirty : DrmModeFbDirtyCmd} (clips : Nat → DrmClipRect)
    (hFind : w.fbs.find? (fun ufb => ufb.id = dirty.fbId) =
      some fb)
    (hPrepared : w.prepared = true) :
    utinydrmFbDirty env mipi dirty clips w =
      (mipiDbiFbFlush env mipi fb
          (flushedClip w fb dirty clips) >>= fun ret =>
        (if ret ≠ 0 then pure ret
          else mipiDbiFbEnable env mipi ret) >>= fun _ =>
        pure 0) { w with planeFb := some fb } := by
  have hCheck : tinydrmCheckDirty
      { w with planeFb := some fb } (some clips)
      dirty.numClips =
      some (if w.enabled then some clips else none,
        if w.enabled then dirty.numClips else 0) :=
    tinydrmCheckDirty_prepared
      (w := { w with planeFb := some fb }) hPrepared _ _
  unfold utinydrmFbDirty
  rw [Effect.bind_of_ok (Effect.get_apply w)]
  simp only [hFind]
  rw [Effect.bind_of_ok (Effect.modify_apply _ w),
    mipiDbiFbDirty, bind_assoc,
    Effect.bind_of_ok (Effect.get_apply _)]
  simp only [hCheck, bind_assoc]
  rfl

section Report

variable (hEnv : env.Delivers)
variable {spi : SpiDevice} {writeOnly : Bool}
variable {mipi : MipiDbi}
variable (hMspi : mipi.mspi = mipiDbiSpiInit spi true writeOnly)
variable {w : World} {buf : UdmaBuf}
variable (hReady :
  BuffersReady (mipiDbiSpiInit spi true writeOnly) w buf)
variable {fb : UtinydrmFb} (hSized : fb.WellSized)

include hEnv hMspi hReady hSized

/-
  A report of a showable clip makes the panel show the clip,
  and keeps the buffers and all pixels of the framebuffer.
-/
theorem utinydrmFbDirty_shows
    (hPrepared : w.prepared = true)
    {dirty : DrmModeFbDirtyCmd} (clips : Nat → DrmClipRect)
    (hFind : w.fbs.find? (fun ufb => ufb.id = dirty.fbId) =
      some fb)
    (hShowable : (flushedClip w fb dirty clips).Showable fb) :
    ∃ ret w' sent, utinydrmFbDirty env mipi dirty clips w =
        .ok ret w' ∧
      w'.wire = w.wire ++ sent ∧ w'.prepared = true ∧
      w'.fbs = w.fbs ∧
      BuffersReady (mipiDbiSpiInit spi true writeOnly) w'
        buf ∧
      (∀ x y, x < fb.width.toNat → y < fb.height.toNat →
        fb.pixelAt w' (fb.storedAt x y) =
          fb.pixelAt w (fb.storedAt x y)) ∧
      ∀ panel : Panel, ClipShown fb (sentPixel spi)
        (flushedClip w fb dirty clips) w panel.picture
        (panel.run sent).picture := by
  let clip := flushedClip w fb dirty clips
  let w₁ : World := { w with planeFb := some fb }
  have hReady₁ : BuffersReady
      (mipiDbiSpiInit spi true writeOnly) w₁ buf :=
    hReady.of_same rfl rfl rfl rfl
  have hMem : fb ∈ w₁.fbs := List.mem_of_find?_eq_some hFind
  have hInside := hSized.clipInside w dirty clips
  rcases mipiDbiFbFlush_wire hEnv spi writeOnly hReady₁ hMem
      hSized.size hInside mipi hMspi with
    ⟨w₂, hRun, hWire, hBus, hStays⟩
  rcases mipiDbiFbEnable_quiet env mipi w₂ with
    ⟨ret, w', hEnd, hQuiet', hMem', hFbs', hBufFd', hTxBuf',
      hAsked', hPrepared'⟩
  have hReady₂ := hReady₁.of_stays hBus hStays
  refine ⟨0, w', _, ?_, hQuiet'.wire.trans hWire, ?_, ?_, ?_,
    ?_, fun panel => ?_⟩
  · rw [utinydrmFbDirty_eq mipi clips hFind hPrepared,
      Effect.bind_of_ok hRun]
    exact Effect.bind_of_ok hEnd
  · rw [hPrepared', hBus.prepared]
    exact hPrepared
  · rw [hFbs', hBus.fbs]
  · exact hReady₂.of_same hFbs' hBufFd' hTxBuf' hAsked'
  · intro x y hX hY
    have hPixel := hReady₁.pixelAt_of_stays hMem hStays
      (hSized.stored_inside hX hY)
    rw [← UtinydrmFb.pixelAt_congr (fun i _ => by rw [hMem'])]
      at hPixel
    exact hPixel
  · have hShown := hInside.shown hShowable (sentPixel spi) w₁
      panel
    exact ⟨hShown.inside, hShown.rest⟩

end Report

end Utinydrm

------------------------------------------------------------
-- Runs
------------------------------------------------------------

namespace Utinydrm

variable {env : Env}

/-
  The display is prepared, the framebuffer is the one found
  by its id, and the panel shows every pixel that does not
  wait to be reported.
-/
structure Mirrors
    (mspi : MipiDbiSpi) (buf : UdmaBuf) (fb : UtinydrmFb)
    (panel : Panel) (s : World × Set (Nat × Nat)) : Prop where
  prepared : s.1.prepared = true
  found : s.1.fbs.find? (fun ufb => ufb.id = fb.id) = some fb
  ready : BuffersReady mspi s.1 buf
  shown : ∀ x y, x < fb.width.toNat → y < fb.height.toNat →
    (x, y) ∉ s.2 →
    (panel.run s.1.wire).picture x y =
      sentPixel mspi.spi
        (fb.pixelAt s.1 (fb.storedAt x y))

section Step

variable {spi : SpiDevice} {writeOnly : Bool}
variable {mipi : MipiDbi} {buf : UdmaBuf} {fb : UtinydrmFb}
variable {panel : Panel} {s s' : World × Set (Nat × Nat)}
variable (hMirrors :
  Mirrors (mipiDbiSpiInit spi true writeOnly) buf fb panel s)

include hMirrors

/- What is drawn waits to be reported. -/
theorem Mirrors.draw
    {area : Set (Nat × Nat)} {mem : Nat → UInt8}
    (hStep : MirrorStep env mipi fb s (.draw area mem) s') :
    Mirrors (mipiDbiSpiInit spi true writeOnly) buf fb panel
      s' := by
  rcases hStep with ⟨rfl, hElsewhere⟩
  refine ⟨hMirrors.prepared, hMirrors.found,
    hMirrors.ready.of_same rfl rfl rfl rfl, ?_⟩
  intro x y hX hY hClean
  have hNotArea : (x, y) ∉ area :=
    fun h => hClean (Or.inr h)
  have hNotBefore : (x, y) ∉ s.2 :=
    fun h => hClean (Or.inl h)
  rw [hElsewhere x y hNotArea]
  exact hMirrors.shown x y hX hY hNotBefore

/- What is reported is shown, and the rest stays shown. -/
theorem Mirrors.dirty
    (hEnv : env.Delivers)
    (hMspi : mipi.mspi = mipiDbiSpiInit spi true writeOnly)
    (hSized : fb.WellSized)
    {history : List Stroke} {dirty : DrmModeFbDirtyCmd}
    {clips : Nat → DrmClipRect}
    (hReports : ReportsShowable fb history s
      (.dirty dirty clips))
    (hStep : MirrorStep env mipi fb s (.dirty dirty clips)
      s') :
    Mirrors (mipiDbiSpiInit spi true writeOnly) buf fb panel
      s' := by
  rcases hReports with ⟨hId, hShowable⟩
  rcases hStep with ⟨⟨ret, hRun⟩, hDamage⟩
  have hFind : s.1.fbs.find? (fun ufb => ufb.id = dirty.fbId) =
      some fb := by
    rw [hId]
    exact hMirrors.found
  rcases utinydrmFbDirty_shows hEnv hMspi hMirrors.ready hSized
      hMirrors.prepared clips hFind hShowable with
    ⟨ret', w', sent, hRun', hWire, hPrepared, hFbs, hReady,
      hPixels, hShows⟩
  cases hRun.symm.trans hRun'
  refine ⟨hPrepared, by rw [hFbs]; exact hMirrors.found, hReady,
    ?_⟩
  intro x y hX hY hClean
  rcases hShows (panel.run s.1.wire) with ⟨hClip, hRest⟩
  rw [hWire, Panel.run_append, hPixels x y hX hY]
  by_cases hHolds :
      (flushedClip s.1 fb dirty clips).Holds x y
  · exact hClip x y hHolds
  · rw [hRest x y hHolds]
    refine hMirrors.shown x y hX hY fun hWaiting => ?_
    rw [hDamage] at hClean
    exact hClean ⟨hWaiting, hHolds⟩

end Step

end Utinydrm
