import Utinydrm.Event.Record

/-
  The clips that merging reads.

  The loop checks its counter against the number of clips,
  and with copy annotations moves on once more before it
  reads. When the number is odd the last clip it reads is the
  one behind the array.

  Key definitions include:
    * `clipReads`

  Main declarations:
    * `mem_clipReads_iff`
    * `clip_reads_iff`
-/

------------------------------------------------------------
-- The Loop
------------------------------------------------------------

namespace Utinydrm

/-
  The indices of `src` that the loop of
  `tinydrm_merge_clips` reads in some rounds, with its
  counter at `i`.
-/
def clipReadsFrom
    (flags numClips : UInt32) : Nat → UInt32 → List UInt32
| 0, _ => []
| rounds + 1, i =>
    if i < numClips then
      -- `if (flags & DRM_MODE_FB_DIRTY_ANNOTATE_COPY) i++;`
      let i := if annotateCopy flags then i + 1 else i
      i :: clipReadsFrom flags numClips rounds (i + 1)
    else
      []

/- Those it reads in its first rounds. -/
def clipReads
    (flags numClips : UInt32) (rounds : Nat) : List UInt32 :=
  clipReadsFrom flags numClips rounds 0

variable {flags numClips : UInt32}

/- The counter does not wrap around before it is checked. -/
theorem toNat_succ_of_lt
    {i : UInt32} (hLess : i < numClips) :
    (i + 1).toNat = i.toNat + 1 := by
  have hBound := numClips.toNat_lt
  rw [UInt32.lt_iff_toNat_lt] at hLess
  rw [UInt32.toNat_add]
  exact Nat.mod_eq_of_lt (by
    change i.toNat + 1 < 2 ^ 32
    omega)

/- Without annotations the counter itself is read. -/
theorem lt_of_mem_clipReadsFrom
    (hPlain : annotateCopy flags = false)
    {i : UInt32} (rounds : Nat) (start : UInt32)
    (hMem : i ∈ clipReadsFrom flags numClips rounds start) :
    i < numClips := by
  induction rounds generalizing start with
  | zero => simp [clipReadsFrom] at hMem
  | succ rounds ih =>
      simp only [clipReadsFrom, hPlain] at hMem
      split at hMem
      case isTrue hLess =>
        rcases List.mem_cons.mp hMem with hHead | hTail
        · rwa [hHead]
        · exact ih _ hTail
      case isFalse => simp at hMem

/-
  With annotations it is even whenever it is checked, also
  when it has wrapped around, and the next index is read.
-/
theorem odd_of_mem_clipReadsFrom
    (hCopy : annotateCopy flags = true)
    {i : UInt32} (rounds : Nat) (start : UInt32)
    (hEven : start.toNat % 2 = 0)
    (hMem : i ∈ clipReadsFrom flags numClips rounds start) :
    i.toNat % 2 = 1 ∧ i.toNat ≤ numClips.toNat := by
  induction rounds generalizing start with
  | zero => simp [clipReadsFrom] at hMem
  | succ rounds ih =>
      simp only [clipReadsFrom, hCopy, if_true] at hMem
      split at hMem
      case isTrue hLess =>
        have hNext := toNat_succ_of_lt hLess
        rw [UInt32.lt_iff_toNat_lt] at hLess
        rcases List.mem_cons.mp hMem with hHead | hTail
        · rw [hHead, hNext]
          omega
        · apply ih _ _ hTail
          rw [UInt32.toNat_add, hNext]
          change (start.toNat + 1 + 1) % 2 ^ 32 % 2 = 0
          omega
      case isFalse => simp at hMem

/- Without annotations every clip is read. -/
theorem exists_clipReads_plain
    (hPlain : annotateCopy flags = false)
    (k : Nat) (start : UInt32)
    (hLess : start.toNat + k < numClips.toNat) :
    ∃ i ∈ clipReadsFrom flags numClips (k + 1) start,
      i.toNat = start.toNat + k := by
  induction k generalizing start with
  | zero =>
      have hStart : start < numClips := by
        rw [UInt32.lt_iff_toNat_lt]
        omega
      refine ⟨start, ?_, rfl⟩
      simp [clipReadsFrom, hPlain, hStart]
  | succ k ih =>
      have hStart : start < numClips := by
        rw [UInt32.lt_iff_toNat_lt]
        omega
      have hNext := toNat_succ_of_lt hStart
      rcases ih (start + 1) (by omega) with ⟨i, hMem, hEq⟩
      refine ⟨i, ?_, by omega⟩
      rw [clipReadsFrom, if_pos hStart]
      simp only [hPlain]
      exact List.mem_cons_of_mem _ hMem

/- With annotations every second one is. -/
theorem exists_clipReads_copy
    (hCopy : annotateCopy flags = true)
    (k : Nat) (start : UInt32)
    (hLess : start.toNat + 2 * k < numClips.toNat) :
    ∃ i ∈ clipReadsFrom flags numClips (k + 1) start,
      i.toNat = start.toNat + 2 * k + 1 := by
  induction k generalizing start with
  | zero =>
      have hStart : start < numClips := by
        rw [UInt32.lt_iff_toNat_lt]
        omega
      refine ⟨start + 1, ?_, toNat_succ_of_lt hStart⟩
      simp [clipReadsFrom, hCopy, hStart]
  | succ k ih =>
      have hStart : start < numClips := by
        rw [UInt32.lt_iff_toNat_lt]
        omega
      have hFirst := toNat_succ_of_lt hStart
      have hInside : start + 1 < numClips := by
        rw [UInt32.lt_iff_toNat_lt]
        omega
      have hNext := toNat_succ_of_lt hInside
      rcases ih (start + 1 + 1) (by omega) with ⟨i, hMem, hEq⟩
      refine ⟨i, ?_, by omega⟩
      rw [clipReadsFrom, if_pos hStart]
      simp only [hCopy, if_true]
      exact List.mem_cons_of_mem _ hMem

end Utinydrm

------------------------------------------------------------
-- What Is Read
------------------------------------------------------------

namespace Utinydrm

variable {flags numClips : UInt32}

/- The indices the loop reads, in however many rounds. -/
theorem mem_clipReads_iff (i : UInt32) :
    (∃ rounds, i ∈ clipReads flags numClips rounds) ↔
      i.toNat ∈ clipIndices flags numClips.toNat := by
  unfold clipIndices clipReads
  cases hCopy : annotateCopy flags with
  | false =>
      rw [if_neg (by simp), List.mem_range]
      constructor
      · rintro ⟨rounds, hMem⟩
        exact UInt32.lt_iff_toNat_lt.mp
          (lt_of_mem_clipReadsFrom hCopy rounds 0 hMem)
      · intro hLess
        rcases exists_clipReads_plain hCopy i.toNat 0
            (by simpa using hLess) with ⟨j, hMem, hEq⟩
        have hSame : j = i := by
          apply UInt32.toNat_inj.mp
          simpa using hEq
        exact ⟨_, hSame ▸ hMem⟩
  | true =>
      rw [if_pos rfl]
      simp only [List.mem_map, List.mem_range]
      constructor
      · rintro ⟨rounds, hMem⟩
        have hOdd := odd_of_mem_clipReadsFrom hCopy rounds 0
          rfl hMem
        exact ⟨i.toNat / 2, by omega, by omega⟩
      · rintro ⟨k, hk, hEq⟩
        have hLess : (0 : UInt32).toNat + 2 * k <
            numClips.toNat := by
          rw [UInt32.toNat_zero]
          omega
        rcases exists_clipReads_copy hCopy k 0 hLess with
          ⟨j, hMem, hIndex⟩
        have hSame : j = i := by
          apply UInt32.toNat_inj.mp
          rw [hIndex, ← hEq]
          simp
        exact ⟨_, hSame ▸ hMem⟩

/-
  Merging reads inside the array of clips if and only if it
  takes every clip or their number is even. A dirty event
  does the same with the same clips at the indices it reads.
-/
theorem clip_reads_iff (flags numClips : UInt32) :
    ((∀ rounds, ∀ i ∈ clipReads flags numClips rounds,
        i < numClips) ↔
      (annotateCopy flags = true →
        numClips.toNat % 2 = 0)) ∧
    ∀ (env : Env) (mipi : MipiDbi) (fbId color : UInt32)
      (clips₁ clips₂ : Nat → DrmClipRect),
      (∀ rounds, ∀ i ∈ clipReads flags numClips rounds,
        clips₁ i.toNat = clips₂ i.toNat) →
      utinydrmFbDirty env mipi ⟨fbId, flags, color, numClips⟩
          clips₁ =
        utinydrmFbDirty env mipi ⟨fbId, flags, color, numClips⟩
          clips₂ := by
  refine ⟨⟨?_, ?_⟩, ?_⟩
  · intro hInside hCopy
    by_contra hNot
    -- the round that starts at the last clip
    have hLast : numClips.toNat ∈
        clipIndices flags numClips.toNat := by
      rw [clipIndices, if_pos hCopy, List.mem_map]
      exact ⟨numClips.toNat / 2,
        List.mem_range.mpr (by omega), by omega⟩
    rcases (mem_clipReads_iff numClips).mpr hLast with
      ⟨rounds, hMem⟩
    have hLess := hInside rounds _ hMem
    rw [UInt32.lt_iff_toNat_lt] at hLess
    omega
  · intro hPairs rounds i hMem
    rw [UInt32.lt_iff_toNat_lt]
    exact mem_clipIndices hPairs
      ((mem_clipReads_iff i).mp ⟨rounds, hMem⟩)
  · intro env mipi fbId color clips₁ clips₂ hSame
    apply utinydrmFbDirty_congr
    intro k hk
    have hBound : k < 2 ^ 32 := by
      have hSize := numClips.toNat_lt
      unfold clipIndices at hk
      split at hk
      · rcases List.mem_map.mp hk with ⟨j, hj, rfl⟩
        have hLess := List.mem_range.mp hj
        dsimp only at hLess
        omega
      · exact (List.mem_range.mp hk).trans hSize
    have hIndex : (UInt32.ofNat k).toNat = k :=
      UInt32.toNat_ofNat_of_lt' hBound
    have hRead : (UInt32.ofNat k).toNat ∈
        clipIndices flags numClips.toNat := by
      rwa [hIndex]
    rcases (mem_clipReads_iff _).mpr hRead with ⟨rounds, hMem⟩
    have hClip := hSame rounds _ hMem
    rwa [hIndex] at hClip

/- A single clip that is annotated as a copy. -/
theorem clip_reads_behind :
    ¬ ∀ (flags numClips : UInt32) (rounds : Nat),
      ∀ i ∈ clipReads flags numClips rounds,
        i < numClips := by
  intro hClaim
  have hLess := hClaim 1 1 1 1 (by decide)
  exact absurd hLess (by decide)

end Utinydrm
