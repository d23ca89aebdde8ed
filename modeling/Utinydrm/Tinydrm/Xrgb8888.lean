import Utinydrm.Tinydrm.FlushPayload

/-
  Pixels of XRGB8888 on a panel of RGB565.

  A framebuffer of either format is flushed from an offset
  that counts its own bytes, and only one of them through a
  buffer. The bytes handed over are the same when the pixels
  of one are those of the other, reduced.

  Key definitions include:
    * `reducedPixel`
    * `Reduces`

  Main declarations:
    * `xrgb8888ToRgb565_le32`
    * `flushPayload_of_reduces`
    * `xrgb8888_transparent`
-/

------------------------------------------------------------
-- Pixels
------------------------------------------------------------

namespace Utinydrm

/-
  The 5, 6 and 5 most significant bits of red, green and
  blue.
-/
def reducedPixel (red green blue : UInt8) : UInt16 :=
  ((red >>> 3).toUInt16 <<< 11) |||
    ((green >>> 2).toUInt16 <<< 5) |||
    (blue >>> 3).toUInt16

/- The conversion keeps these, and ignores the top byte. -/
theorem xrgb8888ToRgb565_le32 (blue green red top : UInt8) :
    xrgb8888ToRgb565 (le32 blue green red top) =
      reducedPixel red green blue := by
  apply UInt16.toBitVec_inj.mp
  ext i hi
  simp [xrgb8888ToRgb565, le32, reducedPixel]
  interval_cases i <;> simp

/-
  The first pixels of an RGB565 framebuffer are those of an
  XRGB8888 framebuffer, reduced.
-/
def Reduces
    (n : Nat)
    (fbS : UtinydrmFb) (wS : World)
    (fbT : UtinydrmFb) (wT : World) : Prop :=
  ∀ k < n, wT.loadU16 (.mapped fbT.map) k =
    reducedPixel (wS.mem (fbS.map + 4 * k + 2))
      (wS.mem (fbS.map + 4 * k + 1)) (wS.mem (fbS.map + 4 * k))

instance
    (n : Nat)
    (fbS : UtinydrmFb) (wS : World)
    (fbT : UtinydrmFb) (wT : World) :
    Decidable (Reduces n fbS wS fbT wT) :=
  inferInstanceAs (Decidable (∀ k < n, _ = _))

variable {fbS fbT : UtinydrmFb} {wS wT : World}

/- The top bytes do not matter. -/
theorem Reduces.of_agree
    {n : Nat} {mem : Nat → UInt8}
    (hReduces : Reduces n fbS wS fbT wT)
    (hAgree : ∀ k < n, ∀ j < 3,
      mem (fbS.map + 4 * k + j) =
        wS.mem (fbS.map + 4 * k + j)) :
    Reduces n fbS { wS with mem := mem } fbT wT := by
  intro k hk
  have hBlue := hAgree k hk 0 (by decide)
  have hGreen := hAgree k hk 1 (by decide)
  have hRed := hAgree k hk 2 (by decide)
  rw [Nat.add_zero] at hBlue
  dsimp only
  rw [hBlue, hGreen, hRed]
  exact hReduces k hk

end Utinydrm

------------------------------------------------------------
-- Payloads
------------------------------------------------------------

namespace Utinydrm

/- The bytes of pixels in memory, pixel by pixel. -/
theorem World.bytes_eq_pixels
    (w : World) (p : Ptr) (n : Nat) :
    w.bytes p (2 * n) = (List.range n).flatMap fun k =>
      [(w.loadU16 p k).toUInt8,
        (w.loadU16 p k >>> 8).toUInt8] := by
  induction n with
  | zero => rfl
  | succ n ih =>
      have hTwo : 2 * (n + 1) = 2 * n + 1 + 1 := by omega
      unfold World.bytes at ih ⊢
      rw [hTwo, List.range_succ, List.range_succ,
        List.map_append, List.map_append, ih, List.range_succ,
        List.flatMap_append, List.append_assoc]
      simp [World.loadU16, le16_lo, le16_hi]

variable {fbS fbT : UtinydrmFb} {wS wT : World}
variable {clip : DrmClipRect}

/- What is written of the one is what is written of the other. -/
theorem flushPayload_of_reduces
    (hS : fbS.pixelFormat = .xrgb8888)
    (hT : fbT.pixelFormat = .rgb565)
    {n : Nat} (hReduces : Reduces n fbS wS fbT wT)
    (hRange : clip.y1.toNat * clip.width +
      clip.width * clip.height ≤ n) :
    fbS.flushPayload clip wS = fbT.flushPayload clip wT := by
  have hStartS : fbS.flushStart clip =
      4 * (clip.y1.toNat * clip.width) := by
    rw [UtinydrmFb.flushStart, UtinydrmFb.cpp, hS, Nat.mul_comm]
    rfl
  have hStartT : fbT.flushStart clip =
      2 * (clip.y1.toNat * clip.width) := by
    rw [UtinydrmFb.flushStart, UtinydrmFb.cpp, hT, Nat.mul_comm]
    rfl
  unfold UtinydrmFb.flushPayload
  simp only [hS, hT, World.bytes_eq_pixels,
    tinydrmXrgb8888ToRgb565, hStartS, hStartT]
  apply List.flatMap_congr
  intro k hk
  have hLess := List.mem_range.mp hk
  generalize clip.y1.toNat * clip.width = first at hRange ⊢
  have hPixel := hReduces (first + k) (by omega)
  have hNarrow :
      wT.loadU16 (.mapped (fbT.map + 2 * first)) k =
        wT.loadU16 (.mapped fbT.map) (first + k) := by
    simp only [World.loadU16, World.byte, Nat.mul_add,
      Nat.add_assoc]
  have hWide :
      xrgb8888ToRgb565
          (wS.loadU32 (.mapped (fbS.map + 4 * first)) k) =
        reducedPixel (wS.mem (fbS.map + 4 * (first + k) + 2))
          (wS.mem (fbS.map + 4 * (first + k) + 1))
          (wS.mem (fbS.map + 4 * (first + k))) := by
    rw [World.loadU32, xrgb8888ToRgb565_le32]
    simp only [World.byte, Nat.mul_add, Nat.add_assoc]
  rw [hWide, hNarrow, hPixel]

end Utinydrm

------------------------------------------------------------
-- Flushes
------------------------------------------------------------

namespace Utinydrm

/- The pixels of RGB565 take less of the 32 bits. -/
theorem NoWrap.of_cpp_le
    {fbS fbT : UtinydrmFb} {clip : DrmClipRect}
    (hFits : NoWrap fbS clip)
    (hCpp : fbT.cpp ≤ fbS.cpp) :
    NoWrap fbT clip where
  ordered := hFits.ordered
  start := (Nat.mul_le_mul_left _ hCpp).trans_lt hFits.start
  bytes := hFits.bytes

/-
  When RGB565 pixels are those of an XRGB8888 memory,
  reduced, both framebuffers hand the same bytes to the
  register write for every clip that is flushed from within
  the memory and does not wrap around. Without the buffer it
  is converted in, the XRGB8888 framebuffer hands over
  nothing. The top bytes of its pixels never matter.
-/
theorem xrgb8888_transparent
    (env : Env) (fbS fbT : UtinydrmFb) (clip : DrmClipRect)
    (hS : fbS.pixelFormat = .xrgb8888)
    (hT : fbT.pixelFormat = .rgb565)
    (n : Nat) (wS wT : World)
    (hReduces : Reduces n fbS wS fbT wT)
    (hFits : NoWrap fbS clip)
    (hRange : clip.y1.toNat * clip.width +
      clip.width * clip.height ≤ n) :
    (∀ mspi regnr, tinydrmRegmapFlushRgb565 env mspi regnr =
      flushWith env (regmapRawWrite env mspi regnr)) ∧
    ∃ payload, HandsPayload env fbT clip wT payload ∧
      (env.kmalloc wS.now = true →
        HandsPayload env fbS clip wS payload ∧
        ∀ mem : Nat → UInt8,
          (∀ k < n, ∀ j < 3, mem (fbS.map + 4 * k + j) =
            wS.mem (fbS.map + 4 * k + j)) →
          HandsPayload env fbS clip { wS with mem := mem }
            payload) ∧
      (env.kmalloc wS.now = false → ∀ write,
        flushWith env write fbS (.mapped fbS.map) clip wS =
          .ok (-ENOMEM) (wS.record (.kmalloc false))) := by
  have hCpp : fbT.cpp ≤ fbS.cpp := by
    rw [UtinydrmFb.cpp, UtinydrmFb.cpp, hS, hT]
    decide
  have hSame := flushPayload_of_reduces hS hT hReduces hRange
  refine ⟨fun _ _ => rfl, fbT.flushPayload clip wT, ?_, ?_, ?_⟩
  · apply handsPayload_flushPayload (hFits.of_cpp_le hCpp)
      (Or.inl hT)
    intro hConverted
    rw [hT] at hConverted
    cases hConverted
  · intro hGranted
    constructor
    · rw [← hSame]
      exact handsPayload_flushPayload hFits (Or.inr hS)
        fun _ => hGranted
    · intro mem hAgree
      rw [← flushPayload_of_reduces hS hT
        (hReduces.of_agree hAgree) hRange]
      exact handsPayload_flushPayload hFits (Or.inr hS)
        fun _ => hGranted
  · intro hRefused write
    exact flushWith_refused hS hRefused write _

/- Two red pixels, the second of which is flushed. -/
theorem xrgb8888_transparent_red :
    let fbS : UtinydrmFb :=
      { UtinydrmFb.display with pixelFormat := .xrgb8888 }
    let wS : World :=
      { World.atProbe (-1) with
        mem := fun i => if i % 4 = 2 then 0xFF else 0x12 }
    let wT : World :=
      { World.atProbe (-1) with
        mem := fun i => if i % 2 = 1 then 0xF8 else 0x82 }
    ∃ payload,
      HandsPayload Env.granting .display ⟨0, 1, 1, 2⟩ wT
        payload ∧
      HandsPayload Env.granting fbS ⟨0, 1, 1, 2⟩ wS
        payload := by
  intro fbS wS wT
  rcases (xrgb8888_transparent Env.granting fbS .display
      ⟨0, 1, 1, 2⟩ rfl rfl 2 wS wT (by decide)
      ⟨by decide, by decide, by decide⟩ (by decide)).2 with
    ⟨payload, hNarrow, hWide, _⟩
  exact ⟨payload, hNarrow, (hWide rfl).1⟩

end Utinydrm
