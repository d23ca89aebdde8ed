import Utinydrm.MipiDbi.Regmap
import Utinydrm.Tinydrm.Helpers

/-
  `tinydrm_regmap_flush_rgb565`: writing the part of a
  framebuffer inside a clip to a register.
-/

------------------------------------------------------------
-- Flushing
------------------------------------------------------------

namespace Utinydrm

variable (env : Env)

/- The `unsigned` width and height of a clip. -/
def clipWidth (clip : DrmClipRect) : UInt32 :=
  clip.x2.toUInt32 - clip.x1.toUInt32

def clipHeight (clip : DrmClipRect) : UInt32 :=
  clip.y2.toUInt32 - clip.y1.toUInt32

/-
  `tinydrm_regmap_flush_rgb565`. Sizes and offsets are 32-bit
  products.
-/
def tinydrmRegmapFlushRgb565
    (mspi : MipiDbiSpi) (regnr : Nat)
    (fb : UtinydrmFb) (vmem : Ptr)
    (clip : DrmClipRect) : Driver Int := do
  let w ← get
  let width := clipWidth clip
  let height := clipHeight clip
  let numPixels := width * height
  match fb.pixelFormat with
  | .rgb565 =>
      regmapRawWrite env mspi regnr
        (vmem.add (clip.y1.toUInt32 * width * 2).toNat)
        (numPixels * 2).toNat
  | .xrgb8888 => do
      let granted ← kmalloc env
      if granted then
        regmapRawWrite env mspi regnr
          (.ofBytes
            (tinydrmXrgb8888ToRgb565 w
              (vmem.add (clip.y1.toUInt32 * width * 4).toNat)
              numPixels.toNat)
            (env.garbage w.now))
          (numPixels * 2).toNat
      else
        pure (-ENOMEM)
  | _ => pure (-EINVAL)

end Utinydrm

------------------------------------------------------------
-- Contracts
------------------------------------------------------------

namespace Utinydrm

variable {env : Env}
variable {C : Effect.Contract Fault World}

theorem meets_tinydrmRegmapFlushRgb565
    (hBus : BusContract env C)
    (mspi : MipiDbiSpi) (regnr : Nat)
    (fb : UtinydrmFb) (vmem : Ptr)
    (clip : DrmClipRect) (w : World) :
    Effect.Meets C
      (tinydrmRegmapFlushRgb565 env mspi regnr fb vmem clip)
      w := by
  apply Effect.meets_get_bind
  dsimp only
  cases fb.pixelFormat
  case rgb565 => exact meets_regmapRawWrite hBus _ _ _ _ w
  case xrgb8888 =>
    refine Effect.meets_bind (hBus.meets_kmalloc w)
      fun granted s _ => ?_
    exact Effect.meets_ite
      (fun _ => meets_regmapRawWrite hBus _ _ _ _ s)
      (fun _ => Effect.meets_pure _ s)
  all_goals exact Effect.meets_pure _ w

end Utinydrm
