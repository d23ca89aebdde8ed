import Utinydrm.Event.Registry
import Utinydrm.Tinydrm.FlushPayload
import Utinydrm.Tinydrm.MergeClips

/-
  The memory of a flush.

  A framebuffer is mapped with as many bytes as its lines
  have. A merged clip lies on the screen, so the pixels its
  flush reads lie in the mapping, and no size or offset is
  too large for 32 bits.

  Key definitions include:
    * `conversionWrites`
    * `InMapping`

  Main declarations:
    * `merged_clip_good`
    * `inMapping_of_inside`
    * `flush_in_mapping`
-/

------------------------------------------------------------
-- Accesses
------------------------------------------------------------

namespace Utinydrm

/-
  The loop of `tinydrm_xrgb8888_to_rgb565`, with its counter
  at `i`: the entries it writes. There are none to speak of
  when it does not end within the rounds, or when `i++`
  overflows the `int`.
-/
def conversionWrites
    (numPixels : UInt32) : Nat → Nat → Option (List Nat)
| 0, _ => none
| rounds + 1, i =>
    if i < numPixels.toNat then
      if i = 2 ^ 31 - 1 then
        none
      else
        (conversionWrites numPixels rounds (i + 1)).map (i :: ·)
    else
      some []

/-
  The flush of a clip reads inside the mapping only, converts
  each pixel once, and sends two bytes for each.
-/
structure InMapping
    (env : Env) (fb : UtinydrmFb) (clip : DrmClipRect) :
    Prop where
  size : fb.mapSize.toNat =
    fb.height.toNat * fb.pitch.toNat
  within : fb.flushStart clip +
    clip.width * clip.height * fb.cpp ≤ fb.mapSize.toNat
  converts : fb.pixelFormat = .xrgb8888 →
    conversionWrites (clipWidth clip * clipHeight clip)
        (clip.width * clip.height + 1) 0 =
      some (List.range (clip.width * clip.height))
  sends : ∀ w : World,
    (fb.pixelFormat = .xrgb8888 →
      env.kmalloc w.now = true) →
    ∃ payload, HandsPayload env fb clip w payload ∧
      payload.length = 2 * (clip.width * clip.height)
  reads : ∀ (w : World) (mem : Nat → UInt8),
    (∀ i < clip.width * clip.height * fb.cpp,
      mem (fb.map + fb.flushStart clip + i) =
        w.mem (fb.map + fb.flushStart clip + i)) →
    ∀ payload, HandsPayload env fb clip w payload →
      HandsPayload env fb clip { w with mem := mem } payload

end Utinydrm

------------------------------------------------------------
-- The Conversion
------------------------------------------------------------

namespace Utinydrm

/- From some pixel on, the loop writes those that are left. -/
theorem conversionWrites_eq
    {numPixels : UInt32}
    (hFits : numPixels.toNat < 2 ^ 31)
    (left i : Nat)
    (hLeft : i + left = numPixels.toNat) :
    conversionWrites numPixels (left + 1) i =
      some ((List.range left).map (i + ·)) := by
  induction left generalizing i with
  | zero =>
      rw [conversionWrites, if_neg (by omega)]
      rfl
  | succ left ih =>
      rw [conversionWrites, if_pos (by omega),
        if_neg (by omega), ih (i + 1) (by omega),
        List.range_succ_eq_map]
      simp only [Option.map_some, List.map_cons, List.map_map,
        Nat.add_zero, Option.some.injEq, List.cons.injEq,
        true_and]
      apply List.map_congr_left
      intro k _
      simp only [Function.comp_apply]
      omega

/- The bytes a flush hands over depend on those it reads. -/
theorem UtinydrmFb.flushPayload_congr
    {fb : UtinydrmFb} {clip : DrmClipRect} {w : World}
    {mem : Nat → UInt8}
    (hSame : ∀ i < clip.width * clip.height * fb.cpp,
      mem (fb.map + fb.flushStart clip + i) =
        w.mem (fb.map + fb.flushStart clip + i)) :
    fb.flushPayload clip { w with mem := mem } =
      fb.flushPayload clip w := by
  unfold cpp at hSame
  unfold flushPayload
  cases hFormat : fb.pixelFormat
  case xrgb8888 =>
    rw [hFormat] at hSame
    unfold tinydrmXrgb8888ToRgb565
    apply List.flatMap_congr
    intro k hk
    have hLess := List.mem_range.mp hk
    have hBytes : ∀ j < 4,
        mem (fb.map + fb.flushStart clip + (4 * k + j)) =
          w.mem (fb.map + fb.flushStart clip + (4 * k + j)) := by
      intro j hj
      apply hSame
      change 4 * k + j < clip.width * clip.height * 4
      omega
    have hFirst := hBytes 0 (by decide)
    have hSecond := hBytes 1 (by decide)
    have hThird := hBytes 2 (by decide)
    have hFourth := hBytes 3 (by decide)
    simp only [World.loadU32, World.byte, Nat.add_zero]
      at hFirst hSecond hThird hFourth ⊢
    rw [hFirst, hSecond, hThird, hFourth]
  all_goals
    rw [hFormat] at hSame
    unfold World.bytes
    apply List.map_congr_left
    intro k hk
    have hLess := List.mem_range.mp hk
    apply hSame
    change k < clip.width * clip.height * 2
    omega

end Utinydrm

------------------------------------------------------------
-- A Clip Inside
------------------------------------------------------------

namespace Utinydrm

/- Whatever is merged, the clip lies on the screen. -/
theorem merged_clip_good
    (src : Option (Nat → DrmClipRect))
    (numClips flags : UInt32) {maxWidth maxHeight : UInt32}
    (hWidth : 0 < maxWidth.toNat ∧ maxWidth.toNat ≤ 65535)
    (hHeight :
      0 < maxHeight.toNat ∧ maxHeight.toNat ≤ 65535) :
    let clip := tinydrmMergeClips src numClips flags maxWidth
      maxHeight
    clip.Nonempty ∧ clip.Inside maxWidth maxHeight := by
  have hScreen := fullClip_good hWidth hHeight
  unfold tinydrmMergeClips
  cases src with
  | none => exact hScreen
  | some clips =>
      dsimp only
      split
      case isTrue => exact hScreen
      case isFalse =>
        split
        case isTrue => exact hScreen
        case isFalse hGood =>
          simp only [gt_iff_lt, ge_iff_le,
            UInt32.lt_iff_toNat_lt, UInt16.le_iff_toNat_le,
            UInt16.toNat_toUInt32] at hGood
          unfold DrmClipRect.Nonempty DrmClipRect.Inside
          omega

variable {env : Env}
variable {fb : UtinydrmFb} {clip : DrmClipRect}

/- The pixels read are those of lines on the screen. -/
theorem ClipInside.flush_within
    (hInside : ClipInside fb clip) :
    fb.flushStart clip + clip.width * clip.height * fb.cpp ≤
      fb.height.toNat * fb.pitch.toNat := by
  have hBottom := hInside.inside.2
  have hTop := hInside.nonempty.2
  have hLines : clip.y1.toNat + clip.height = clip.y2.toNat := by
    unfold DrmClipRect.height
    omega
  calc fb.flushStart clip + clip.width * clip.height * fb.cpp
      = (clip.y1.toNat + clip.height) * clip.width * fb.cpp := by
        rw [UtinydrmFb.flushStart, Nat.add_mul, Nat.add_mul,
          Nat.mul_comm clip.height]
    _ = clip.y2.toNat * clip.width * fb.cpp := by rw [hLines]
    _ ≤ fb.height.toNat * fb.pitch.toNat :=
        hInside.lines_le hBottom

/- So a flush of a clip inside stays in the mapping. -/
theorem inMapping_of_inside
    (hInside : ClipInside fb clip)
    (hSize : fb.mapSize.toNat =
      fb.height.toNat * fb.pitch.toNat) :
    InMapping env fb clip := by
  have hFits := hInside.noWrap
  have hSizes := hFits.exactSizes
  have hBytes := hFits.bytes
  constructor
  case size => exact hSize
  case within =>
    rw [hSize]
    exact hInside.flush_within
  case converts =>
    intro _
    rw [conversionWrites_eq (by rw [hSizes.pixels]; omega) _ 0
      (by rw [hSizes.pixels, Nat.zero_add])]
    simp
  case sends =>
    intro w hGranted
    exact ⟨_, handsPayload_flushPayload hFits hInside.format
      hGranted, UtinydrmFb.length_flushPayload⟩
  case reads =>
    intro w mem hSame payload hHands
    have hGranted : fb.pixelFormat = .xrgb8888 →
        env.kmalloc w.now = true := by
      intro hFormat
      by_contra hRefused
      exact hHands.not_refused hFormat
        (Bool.eq_false_of_not_eq_true hRefused)
    have hPayload := handsPayload_flushPayload hFits
      hInside.format hGranted
    rw [hHands.unique hPayload,
      ← UtinydrmFb.flushPayload_congr hSame]
    exact handsPayload_flushPayload hFits hInside.format
      hGranted

end Utinydrm

------------------------------------------------------------
-- A Flush In A Run
------------------------------------------------------------

namespace Utinydrm

/- A framebuffer is mapped with as many bytes as its lines. -/
theorem mapSize_of_run
    {env : Env} {mipi : MipiDbi} {w₀ w : World}
    {history : List (Event × Int)}
    (hProbed : w₀.Probed)
    (hRun : Transition.Run (EventStep env mipi)
      Transition.unguarded w₀ history w)
    {fb : UtinydrmFb} (hMem : fb ∈ w.fbs)
    (hBytes : fb.height.toNat * fb.pitch.toNat < 2 ^ 32) :
    fb.mapSize.toNat = fb.height.toNat * fb.pitch.toNat := by
  rcases madeOf_of_run hProbed hRun fb hMem with
    ⟨fbId, info, hMade⟩
  rw [hMade.mapSize, UInt32.toNat_mul, ← hMade.height,
    ← hMade.pitch]
  exact Nat.mod_eq_of_lt hBytes

/-
  When a listed framebuffer of one of the two formats has a
  size of 16 bits, lines as long as its pixels and fewer than
  4 GiB, the clip that is merged of any clips that are let
  through is flushed without wrapping around, reading only
  the mapping, converting each pixel once and sending each as
  two bytes.
-/
theorem flush_in_mapping
    (env : Env) (mipi : MipiDbi) (w₀ w : World)
    (history : List (Event × Int))
    (hProbed : w₀.Probed)
    (hRun : Transition.Run (EventStep env mipi)
      Transition.unguarded w₀ history w)
    (fb : UtinydrmFb) (hMem : fb ∈ w.fbs)
    (hFormat :
      fb.pixelFormat = .rgb565 ∨ fb.pixelFormat = .xrgb8888)
    (hWidth : 0 < fb.width.toNat ∧ fb.width.toNat ≤ 65535)
    (hHeight : 0 < fb.height.toNat ∧ fb.height.toNat ≤ 65535)
    (hPitch : fb.width.toNat * fb.cpp ≤ fb.pitch.toNat)
    (hBytes : fb.height.toNat * fb.pitch.toNat < 2 ^ 32)
    (clips passed : Option (Nat → DrmClipRect))
    (flags numClips numPassed : UInt32)
    (hDirty : tinydrmCheckDirty w clips numClips =
      some (passed, numPassed)) :
    let clip := tinydrmMergeClips passed numPassed flags
      fb.width fb.height
    (mipiDbiFbDirty env mipi fb flags clips numClips w =
      (do
        let ret ← mipiDbiFbFlush env mipi fb clip
        if ret ≠ 0 then
          pure ret
        else
          mipiDbiFbEnable env mipi ret) w) ∧
    (∀ mspi regnr, tinydrmRegmapFlushRgb565 env mspi regnr =
      flushWith env (regmapRawWrite env mspi regnr)) ∧
    ExactSizes fb clip ∧ InMapping env fb clip := by
  intro clip
  rcases merged_clip_good passed numPassed flags hWidth
      hHeight with ⟨hNonempty, hOnScreen⟩
  have hInside : ClipInside fb clip :=
    ⟨hFormat, hPitch, hBytes, hNonempty, hOnScreen⟩
  refine ⟨?_, fun _ _ => rfl, hInside.noWrap.exactSizes, ?_⟩
  · unfold mipiDbiFbDirty
    rw [Effect.bind_of_ok (Effect.get_apply w)]
    simp only [hDirty]
    rfl
  · exact inMapping_of_inside hInside
      (mapSize_of_run hProbed hRun hMem hBytes)

/- The first flush after a framebuffer is created. -/
theorem flush_in_mapping_first :
    ∃ (w : World) (fb : UtinydrmFb),
      fb ∈ w.fbs ∧ w.prepared = true ∧
      InMapping Env.displayOn fb (fullClip 320 240) := by
  let fb : UtinydrmFb :=
    { UtinydrmFb.display with
      addr := 0
      bufFd := 5
      map := 2 ^ 22 }
  have hStates : ∃ w₁ w₂,
      utinydrmEvent Env.displayOn
        (mi0283qtProbe mainSpi true true true false)
        (.fbCreate 1) (World.atProbe (-1)) = .ok 0 w₁ ∧
      utinydrmEvent Env.displayOn
        (mi0283qtProbe mainSpi true true true false)
        .pipeEnable w₁ = .ok 0 w₂ ∧
      w₂.prepared = true ∧ w₂.enabled = false ∧
      w₂.fbs = [fb] :=
    ⟨_, _, rfl, rfl, rfl, rfl, rfl⟩
  rcases hStates with
    ⟨w₁, w₂, hCreate, hEnable, hPrepared, hEnabled, hFbs⟩
  have hMem : fb ∈ w₂.fbs := by simp [hFbs]
  have hDirty : tinydrmCheckDirty w₂ none 0 =
      some (none, 0) := by
    rw [tinydrmCheckDirty_prepared hPrepared, hEnabled]
    rfl
  have hFlush := flush_in_mapping Env.displayOn
    (mi0283qtProbe mainSpi true true true false)
    (World.atProbe (-1)) w₂ [(.fbCreate 1, 0), (.pipeEnable, 0)]
    (World.probed_atProbe (-1))
    (.snoc (.snoc .nil trivial hCreate) trivial hEnable)
    fb hMem (Or.inl rfl) (by decide) (by decide) (by decide)
    (by decide) none none 0 0 0 hDirty
  exact ⟨w₂, fb, hMem, hPrepared, hFlush.2.2.2⟩

end Utinydrm
