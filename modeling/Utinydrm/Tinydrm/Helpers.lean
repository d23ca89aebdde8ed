import Utinydrm.Device.World

/-
  `tinydrm-helpers.c` and `tinydrm_check_dirty`: merging clip
  rectangles, converting pixels, and the backlight.

  Key definitions include:
    * `tinydrmMergeClips`
    * `tinydrmXrgb8888ToRgb565`
    * `tinydrmCheckDirty`
    * `tinydrmEnableBacklight`, `tinydrmDisableBacklight`
-/

------------------------------------------------------------
-- Clip Rectangles
------------------------------------------------------------

namespace Utinydrm

namespace DrmClipRect

/- The pixel lies in the rectangle. -/
def Holds (clip : DrmClipRect) (x y : Nat) : Prop :=
  (clip.x1.toNat ≤ x ∧ x < clip.x2.toNat) ∧
    clip.y1.toNat ≤ y ∧ y < clip.y2.toNat

/- The rectangle holds some pixel. -/
def Nonempty (clip : DrmClipRect) : Prop :=
  clip.x1.toNat < clip.x2.toNat ∧
    clip.y1.toNat < clip.y2.toNat

/- It does not reach beyond the screen. -/
def Inside
    (clip : DrmClipRect) (maxWidth maxHeight : UInt32) : Prop :=
  clip.x2.toNat ≤ maxWidth.toNat ∧
    clip.y2.toNat ≤ maxHeight.toNat

instance (clip : DrmClipRect) : Decidable clip.Nonempty :=
  inferInstanceAs (Decidable (_ ∧ _))

instance
    (clip : DrmClipRect) (maxWidth maxHeight : UInt32) :
    Decidable (clip.Inside maxWidth maxHeight) :=
  inferInstanceAs (Decidable (_ ∧ _))

end DrmClipRect

/- `DRM_MODE_FB_DIRTY_ANNOTATE_COPY`. -/
def drmModeFbDirtyAnnotateCopy : UInt32 := 0x01

def annotateCopy (flags : UInt32) : Bool :=
  flags &&& drmModeFbDirtyAnnotateCopy ≠ 0

/-
  The indices of `src` the loop of `tinydrm_merge_clips`
  reads: all of them, or with copy annotations every second
  one, the last of which is `numClips` when that is odd. An
  array whose indices would wrap around does not fit into
  memory.
-/
def clipIndices (flags : UInt32) (numClips : Nat) : List Nat :=
  if annotateCopy flags then
    (List.range ((numClips + 1) / 2)).map fun k => 2 * k + 1
  else
    List.range numClips

/- One round of the loop. -/
def mergeClip (dst src : DrmClipRect) : DrmClipRect where
  x1 := min dst.x1 src.x1
  x2 := max dst.x2 src.x2
  y1 := min dst.y1 src.y1
  y2 := max dst.y2 src.y2

/- The rectangle for the whole of the screen. -/
def fullClip (maxWidth maxHeight : UInt32) : DrmClipRect where
  x1 := 0
  y1 := 0
  x2 := maxWidth.toUInt16
  y2 := maxHeight.toUInt16

/- The rectangle the loop starts with. -/
def emptyClip : DrmClipRect where
  x1 := 0xffff
  y1 := 0xffff
  x2 := 0
  y2 := 0

/- `tinydrm_merge_clips`. -/
def tinydrmMergeClips
    (src : Option (Nat → DrmClipRect)) (numClips flags : UInt32)
    (maxWidth maxHeight : UInt32) : DrmClipRect :=
  match src with
  | none => fullClip maxWidth maxHeight
  | some clips =>
      if numClips = 0 then
        fullClip maxWidth maxHeight
      else
        let dst :=
          (clipIndices flags numClips.toNat).foldl
            (fun dst i => mergeClip dst (clips i)) emptyClip
        if dst.x2.toUInt32 > maxWidth ∨
            dst.y2.toUInt32 > maxHeight ∨
            dst.x1 ≥ dst.x2 ∨ dst.y1 ≥ dst.y2 then
          fullClip maxWidth maxHeight
        else
          dst

end Utinydrm

------------------------------------------------------------
-- Pixels
------------------------------------------------------------

namespace Utinydrm

/- One pixel of `tinydrm_xrgb8888_to_rgb565`. -/
def xrgb8888ToRgb565 (src : UInt32) : UInt16 :=
  (((src &&& 0x00F80000) >>> 8) |||
    ((src &&& 0x0000FC00) >>> 5) |||
    ((src &&& 0x000000F8) >>> 3)).toUInt16

/- The `u32` stored as four bytes on a little-endian host. -/
def le32 (b₀ b₁ b₂ b₃ : UInt8) : UInt32 :=
  b₀.toUInt32 ||| (b₁.toUInt32 <<< 8) |||
    (b₂.toUInt32 <<< 16) ||| (b₃.toUInt32 <<< 24)

/- `((u32 *)p)[i]`. -/
def World.loadU32 (w : World) (p : Ptr) (i : Nat) : UInt32 :=
  le32 (w.byte p (4 * i)) (w.byte p (4 * i + 1))
    (w.byte p (4 * i + 2)) (w.byte p (4 * i + 3))

/- `tinydrm_xrgb8888_to_rgb565`: the bytes of `dst`. -/
def tinydrmXrgb8888ToRgb565
    (w : World) (src : Ptr) (numPixels : Nat) : List UInt8 :=
  (List.range numPixels).flatMap fun i =>
    let pixel := xrgb8888ToRgb565 (w.loadU32 src i)
    [pixel.toUInt8, (pixel >>> 8).toUInt8]

end Utinydrm

------------------------------------------------------------
-- The Device
------------------------------------------------------------

namespace Utinydrm

variable (env : Env)

/-
  `tinydrm_check_dirty`: nothing when the display is not
  prepared, else the clips to flush. The first flush is one
  of everything.
-/
def tinydrmCheckDirty
    (w : World)
    (clips : Option (Nat → DrmClipRect)) (numClips : UInt32) :
    Option (Option (Nat → DrmClipRect) × UInt32) :=
  if w.prepared = false then
    none
  else if w.enabled = false then
    some (none, 0)
  else
    some (clips, numClips)

theorem tinydrmCheckDirty_prepared
    {w : World}
    (hPrepared : w.prepared = true)
    (clips : Option (Nat → DrmClipRect)) (numClips : UInt32) :
    tinydrmCheckDirty w clips numClips =
      some (if w.enabled then clips else none,
        if w.enabled then numClips else 0) := by
  unfold tinydrmCheckDirty
  cases w.enabled <;> simp [hPrepared]

/- `tinydrm_enable_backlight`. -/
def tinydrmEnableBacklight (backlight : Bool) : Driver Int :=
  if backlight then do
    gpiodSetValueCansleep env .led true
    pure 0
  else
    pure 0

/- `tinydrm_disable_backlight`. -/
def tinydrmDisableBacklight
    (backlight : Bool) : Driver Unit :=
  if backlight then
    gpiodSetValueCansleep env .led false
  else
    pure ()

/- `regulator_enable`. -/
def regulatorEnable : Driver Int := fun w =>
  .ok (env.regulatorEnable w.now)
    (w.record (.regulatorEnable (env.regulatorEnable w.now)))

/- `regulator_disable`; its result is not used. -/
def regulatorDisable : Driver Unit :=
  modify fun w => w.record .regulatorDisable

end Utinydrm
