import Utinydrm.Tinydrm.Helpers
import Utinydrm.Lib.Extremes

/-
  What `tinydrm_merge_clips` makes of the clips it counts.

  The loop leaves their bounding box. It is used when it is
  a rectangle inside the screen; else the whole screen is.

  Key definitions include:
    * `Counted`
    * `IsBoundingBox`

  Main declarations:
    * `isBoundingBox_merged`
    * `merge_clips_covers`
-/

------------------------------------------------------------
-- Rectangles
------------------------------------------------------------

namespace Utinydrm

/-
  The least of the left and upper and the greatest of the
  right and lower edges of some rectangles.
-/
structure IsBoundingBox
    (clips : Set DrmClipRect) (box : DrmClipRect) : Prop where
  x1 : IsLeast (Set.image (·.x1.toNat) clips) box.x1.toNat
  y1 : IsLeast (Set.image (·.y1.toNat) clips) box.y1.toNat
  x2 : IsGreatest (Set.image (·.x2.toNat) clips) box.x2.toNat
  y2 : IsGreatest (Set.image (·.y2.toNat) clips) box.y2.toNat

namespace IsBoundingBox

/- The box holds what any of the rectangles holds. -/
theorem holds
    {clips : Set DrmClipRect} {box clip : DrmClipRect}
    (hBox : IsBoundingBox clips box)
    (hMem : clip ∈ clips)
    {x y : Nat} (hPixel : clip.Holds x y) :
    box.Holds x y := by
  rcases hPixel with ⟨⟨hLeft, hRight⟩, hUpper, hLower⟩
  have hX1 := hBox.x1.2 ⟨clip, hMem, rfl⟩
  have hX2 := hBox.x2.2 ⟨clip, hMem, rfl⟩
  have hY1 := hBox.y1.2 ⟨clip, hMem, rfl⟩
  have hY2 := hBox.y2.2 ⟨clip, hMem, rfl⟩
  exact ⟨⟨hX1.trans hLeft, hRight.trans_le hX2⟩,
    hY1.trans hUpper, hLower.trans_le hY2⟩

theorem unique
    {clips : Set DrmClipRect} {box₁ box₂ : DrmClipRect}
    (h₁ : IsBoundingBox clips box₁)
    (h₂ : IsBoundingBox clips box₂) :
    box₁ = box₂ := by
  have hX1 := h₁.x1.unique h₂.x1
  have hY1 := h₁.y1.unique h₂.y1
  have hX2 := h₁.x2.unique h₂.x2
  have hY2 := h₁.y2.unique h₂.y2
  rw [UInt16.toNat_inj] at hX1 hY1 hX2 hY2
  cases box₁
  cases box₂
  simp_all only

end IsBoundingBox

end Utinydrm

------------------------------------------------------------
-- The Loop
------------------------------------------------------------

namespace Utinydrm

theorem toNat_min_uint16 (a b : UInt16) :
    (min a b).toNat = min a.toNat b.toNat := by
  change (if a ≤ b then a else b).toNat =
    if a.toNat ≤ b.toNat then _ else _
  simp only [UInt16.le_iff_toNat_le]
  split <;> rfl

theorem toNat_max_uint16 (a b : UInt16) :
    (max a b).toNat = max a.toNat b.toNat := by
  change (if a ≤ b then b else a).toNat =
    if a.toNat ≤ b.toNat then _ else _
  simp only [UInt16.le_iff_toNat_le]
  split <;> rfl

/- The fold of the loop, edge by edge. -/
theorem foldl_mergeClip
    (clips : List DrmClipRect) (dst : DrmClipRect) :
    (clips.foldl mergeClip dst).x1.toNat =
        clips.foldl (fun a c => min a c.x1.toNat)
          dst.x1.toNat ∧
      (clips.foldl mergeClip dst).y1.toNat =
        clips.foldl (fun a c => min a c.y1.toNat)
          dst.y1.toNat ∧
      (clips.foldl mergeClip dst).x2.toNat =
        clips.foldl (fun a c => max a c.x2.toNat)
          dst.x2.toNat ∧
      (clips.foldl mergeClip dst).y2.toNat =
        clips.foldl (fun a c => max a c.y2.toNat)
          dst.y2.toNat := by
  induction clips generalizing dst with
  | nil => exact ⟨rfl, rfl, rfl, rfl⟩
  | cons clip clips ih =>
      have hRest := ih (mergeClip dst clip)
      simpa [mergeClip, toNat_min_uint16, toNat_max_uint16]
        using hRest

/- The loop leaves the bounding box of the clips it reads. -/
theorem isBoundingBox_merged
    {clips : List DrmClipRect} (hSome : clips ≠ []) :
    IsBoundingBox {clip | clip ∈ clips}
      (clips.foldl mergeClip emptyClip) := by
  rcases foldl_mergeClip clips emptyClip with
    ⟨hX1, hY1, hX2, hY2⟩
  have hLess : ∀ x : UInt16, x.toNat ≤ 65535 := by
    intro x
    have hBound := x.toNat_lt
    omega
  constructor
  · rw [hX1]
    exact Extremes.isLeast_foldl_min _ hSome
      fun clip _ => hLess clip.x1
  · rw [hY1]
    exact Extremes.isLeast_foldl_min _ hSome
      fun clip _ => hLess clip.y1
  · rw [hX2]
    exact Extremes.isGreatest_foldl_max _ hSome
      fun clip _ => Nat.zero_le _
  · rw [hY2]
    exact Extremes.isGreatest_foldl_max _ hSome
      fun clip _ => Nat.zero_le _

end Utinydrm

------------------------------------------------------------
-- Merging
------------------------------------------------------------

namespace Utinydrm

/-
  The clips that count: with copy annotations the second of
  each pair, else all of them.
-/
def Counted (flags numClips : UInt32) (i : Nat) : Prop :=
  i < numClips.toNat ∧ (annotateCopy flags = true → i % 2 = 1)

/- The clips that count, in whatever order. -/
def counted
    (clips : Nat → DrmClipRect) (flags numClips : UInt32) :
    Set DrmClipRect :=
  Set.image clips {i | Counted flags numClips i}

/- The clips the loop reads, in its order. -/
def readClips
    (clips : Nat → DrmClipRect) (flags numClips : UInt32) :
    List DrmClipRect :=
  (clipIndices flags numClips.toNat).map clips

variable {flags numClips : UInt32}

/- The loop reads the clips that count. -/
theorem mem_clipIndices_iff
    (hPairs : annotateCopy flags = true →
      numClips.toNat % 2 = 0)
    (i : Nat) :
    i ∈ clipIndices flags numClips.toNat ↔
      Counted flags numClips i := by
  unfold clipIndices Counted
  cases hCopy : annotateCopy flags with
  | false => simp
  | true =>
      have hEven := hPairs hCopy
      simp only [if_true, List.mem_map, List.mem_range]
      constructor
      · rintro ⟨k, hk, rfl⟩
        omega
      · rintro ⟨hLess, hOdd⟩
        have hHalf := hOdd trivial
        exact ⟨i / 2, by omega, by omega⟩

theorem readClips_eq_counted
    (hPairs : annotateCopy flags = true →
      numClips.toNat % 2 = 0)
    (clips : Nat → DrmClipRect) :
    {clip | clip ∈ readClips clips flags numClips} =
      counted clips flags numClips := by
  ext clip
  simp [readClips, counted, mem_clipIndices_iff hPairs]

theorem readClips_ne_nil
    (hSome : numClips ≠ 0)
    (clips : Nat → DrmClipRect) (flags : UInt32) :
    readClips clips flags numClips ≠ [] := by
  have hPos : numClips.toNat ≠ 0 := by
    intro hZero
    exact hSome (UInt32.toNat_inj.mp hZero)
  unfold readClips clipIndices
  split <;> simp <;> omega

variable {maxWidth maxHeight : UInt32}

/- What the checks after the loop make of the bounding box. -/
theorem tinydrmMergeClips_eq
    (hSome : numClips ≠ 0)
    (hPairs : annotateCopy flags = true →
      numClips.toNat % 2 = 0)
    (clips : Nat → DrmClipRect)
    {box : DrmClipRect}
    (hBox : IsBoundingBox (counted clips flags numClips) box) :
    tinydrmMergeClips (some clips) numClips flags maxWidth
        maxHeight =
      if box.Nonempty ∧ box.Inside maxWidth maxHeight then box
      else fullClip maxWidth maxHeight := by
  have hMerged := isBoundingBox_merged
    (readClips_ne_nil hSome clips flags)
  rw [readClips_eq_counted hPairs] at hMerged
  have hFold : (clipIndices flags numClips.toNat).foldl
      (fun dst i => mergeClip dst (clips i)) emptyClip =
        box := by
    rw [hBox.unique hMerged, readClips, List.foldl_map]
  have hChecks : (box.x2.toUInt32 > maxWidth ∨
      box.y2.toUInt32 > maxHeight ∨
      box.x1 ≥ box.x2 ∨ box.y1 ≥ box.y2) ↔
      ¬ (box.Nonempty ∧ box.Inside maxWidth maxHeight) := by
    simp only [DrmClipRect.Nonempty, DrmClipRect.Inside,
      gt_iff_lt, ge_iff_le, UInt32.lt_iff_toNat_lt,
      UInt16.le_iff_toNat_le, UInt16.toNat_toUInt32]
    omega
  unfold tinydrmMergeClips
  simp only [if_neg hSome, hFold]
  by_cases hGood : box.Nonempty ∧ box.Inside maxWidth maxHeight
  · rw [if_pos hGood, if_neg (by rwa [hChecks, not_not])]
  · rw [if_neg hGood, if_pos (by rwa [hChecks])]

/- There is a bounding box. -/
theorem exists_isBoundingBox
    (hSome : numClips ≠ 0)
    (hPairs : annotateCopy flags = true →
      numClips.toNat % 2 = 0)
    (clips : Nat → DrmClipRect) :
    ∃ box, IsBoundingBox (counted clips flags numClips) box := by
  have hMerged := isBoundingBox_merged
    (readClips_ne_nil hSome clips flags)
  rw [readClips_eq_counted hPairs] at hMerged
  exact ⟨_, hMerged⟩

/- The size of the screen fits the fields of a clip. -/
theorem toNat_toUInt16_of_le
    {size : UInt32} (hSize : size.toNat ≤ 65535) :
    size.toUInt16.toNat = size.toNat := by
  rw [UInt32.toNat_toUInt16]
  omega

/- The rectangle for the screen is the screen. -/
theorem fullClip_holds
    (hWidth : maxWidth.toNat ≤ 65535)
    (hHeight : maxHeight.toNat ≤ 65535)
    (x y : Nat) :
    (fullClip maxWidth maxHeight).Holds x y ↔
      x < maxWidth.toNat ∧ y < maxHeight.toNat := by
  have hRight := toNat_toUInt16_of_le hWidth
  have hLower := toNat_toUInt16_of_le hHeight
  simp [DrmClipRect.Holds, fullClip, hRight, hLower]

theorem fullClip_good
    (hWidth : 0 < maxWidth.toNat ∧ maxWidth.toNat ≤ 65535)
    (hHeight :
      0 < maxHeight.toNat ∧ maxHeight.toNat ≤ 65535) :
    (fullClip maxWidth maxHeight).Nonempty ∧
      (fullClip maxWidth maxHeight).Inside maxWidth
        maxHeight := by
  have hRight := toNat_toUInt16_of_le hWidth.2
  have hLower := toNat_toUInt16_of_le hHeight.2
  simp only [DrmClipRect.Nonempty, DrmClipRect.Inside,
    fullClip, hRight, hLower, UInt16.toNat_zero]
  omega

/-
  The merged rectangle is the bounding box of the counted
  clips when that is a rectangle inside the screen, and the
  screen otherwise. It is a rectangle inside the screen
  either way, holds every pixel on the screen that any of
  the clips holds, and is the same for the same clips in
  another order.
-/
theorem merge_clips_covers
    (clips : Nat → DrmClipRect) (numClips flags : UInt32)
    (hSome : numClips ≠ 0)
    (hPairs : annotateCopy flags = true →
      numClips.toNat % 2 = 0)
    (maxWidth maxHeight : UInt32)
    (hWidth : 0 < maxWidth.toNat ∧ maxWidth.toNat ≤ 65535)
    (hHeight :
      0 < maxHeight.toNat ∧ maxHeight.toNat ≤ 65535) :
    let dst := tinydrmMergeClips (some clips) numClips flags
      maxWidth maxHeight
    dst.Nonempty ∧ dst.Inside maxWidth maxHeight ∧
    (∀ i, Counted flags numClips i → ∀ x y,
      x < maxWidth.toNat → y < maxHeight.toNat →
      (clips i).Holds x y → dst.Holds x y) ∧
    (∃ box,
      IsBoundingBox (counted clips flags numClips) box ∧
      dst = if box.Nonempty ∧ box.Inside maxWidth maxHeight
        then box else fullClip maxWidth maxHeight) ∧
    (∀ clips' : Nat → DrmClipRect,
      counted clips' flags numClips =
        counted clips flags numClips →
      tinydrmMergeClips (some clips') numClips flags maxWidth
        maxHeight = dst) := by
  intro dst
  rcases exists_isBoundingBox hSome hPairs clips with
    ⟨box, hBox⟩
  have hDst : dst = if box.Nonempty ∧
      box.Inside maxWidth maxHeight then box
      else fullClip maxWidth maxHeight :=
    tinydrmMergeClips_eq hSome hPairs clips hBox
  have hScreen := fullClip_good hWidth hHeight
  refine ⟨?_, ?_, ?_, ⟨box, hBox, hDst⟩, ?_⟩
  · rw [hDst]
    split
    case isTrue hGood => exact hGood.1
    case isFalse _ => exact hScreen.1
  · rw [hDst]
    split
    case isTrue hGood => exact hGood.2
    case isFalse _ => exact hScreen.2
  · intro i hi x y hx hy hPixel
    rw [hDst]
    split
    case isTrue _ => exact hBox.holds ⟨i, hi, rfl⟩ hPixel
    case isFalse _ =>
      exact (fullClip_holds hWidth.2 hHeight.2 x y).mpr
        ⟨hx, hy⟩
  · intro clips' hSame
    rw [hDst]
    exact tinydrmMergeClips_eq hSome hPairs clips'
      (hSame ▸ hBox)

/- A clip with an empty one beside it, on the screen of `main`. -/
theorem merge_clips_covers_two :
    let clips : Nat → DrmClipRect := fun i =>
      if i = 0 then ⟨10, 20, 30, 40⟩ else ⟨9, 50, 5, 60⟩
    let dst := tinydrmMergeClips (some clips) 2 0 320 240
    dst = ⟨9, 20, 30, 60⟩ ∧ dst.Nonempty ∧
      dst.Inside 320 240 ∧
      ∀ i, Counted 0 2 i → ∀ x y, x < 320 → y < 240 →
        (clips i).Holds x y → dst.Holds x y := by
  intro clips dst
  rcases merge_clips_covers clips 2 0 (by decide) (by decide)
      320 240 (by decide) (by decide) with
    ⟨hNonempty, hInside, hHolds, _⟩
  exact ⟨by decide, hNonempty, hInside, hHolds⟩

end Utinydrm
