import Utinydrm.Event.Handlers

/-
  The bytes of an event, and the loop of `main` that reads
  them into a buffer it uses again for every event.

  The loop does not look at how many bytes were read: it
  trusts the kernel to hand over whole events. What an event
  does depends on its own bytes alone when these hold the
  whole record.

  Key definitions include:
    * `UdrmAbi`: what is assumed of `udrm.h`
    * `parseEvent`, `mainIteration`
    * `CompleteRecord`

  Main declarations:
    * `utinydrmEventBytes_congr`
    * `event_of_own_bytes`
-/

------------------------------------------------------------
-- Records
------------------------------------------------------------

namespace Utinydrm

/-
  The layout of an event: a header of a fixed size with the
  type in it, and the values of the type. They label the
  cases of a `switch`, so they differ.
-/
structure UdrmAbi where
  headerSize : Nat
  typeOffset : Nat
  typeFits : typeOffset + 4 ≤ headerSize
  pipeEnable : UInt32
  pipeDisable : UInt32
  fbCreate : UInt32
  fbDestroy : UInt32
  fbDirty : UInt32
  distinct :
    [pipeEnable, pipeDisable, fbCreate, fbDestroy,
      fbDirty].Nodup

/- The little-endian fields of a record. -/
def recordU16 (ev : Nat → UInt8) (offset : Nat) : UInt16 :=
  le16 (ev offset) (ev (offset + 1))

def recordU32 (ev : Nat → UInt8) (offset : Nat) : UInt32 :=
  le32 (ev offset) (ev (offset + 1)) (ev (offset + 2))
    (ev (offset + 3))

/- The size of `struct drm_mode_fb_dirty_cmd`. -/
def dirtyCmdSize : Nat := 24

/- `ev->type`. -/
def recordType (abi : UdrmAbi) (ev : Nat → UInt8) : UInt32 :=
  recordU32 ev abi.typeOffset

/- `ev->fb_id` of `struct udrm_event_fb`. -/
def recordFbId (abi : UdrmAbi) (ev : Nat → UInt8) : UInt32 :=
  recordU32 ev abi.headerSize

/- `ev->fb_dirty_cmd`. -/
def recordDirtyCmd
    (abi : UdrmAbi) (ev : Nat → UInt8) : DrmModeFbDirtyCmd where
  fbId := recordU32 ev abi.headerSize
  flags := recordU32 ev (abi.headerSize + 4)
  color := recordU32 ev (abi.headerSize + 8)
  numClips := recordU32 ev (abi.headerSize + 12)

/- `ev->clips[i]`. -/
def recordClip
    (abi : UdrmAbi) (ev : Nat → UInt8) (i : Nat) :
    DrmClipRect :=
  let offset := abi.headerSize + dirtyCmdSize + 8 * i
  { x1 := recordU16 ev offset
    y1 := recordU16 ev (offset + 2)
    x2 := recordU16 ev (offset + 4)
    y2 := recordU16 ev (offset + 6) }

/- The `switch` of `utinydrm_event`. -/
def parseEvent (abi : UdrmAbi) (ev : Nat → UInt8) : Event :=
  if recordType abi ev = abi.pipeEnable then
    .pipeEnable
  else if recordType abi ev = abi.pipeDisable then
    .pipeDisable
  else if recordType abi ev = abi.fbCreate then
    .fbCreate (recordFbId abi ev)
  else if recordType abi ev = abi.fbDestroy then
    .fbDestroy (recordFbId abi ev)
  else if recordType abi ev = abi.fbDirty then
    .fbDirty (recordDirtyCmd abi ev) (recordClip abi ev)
  else
    .unknown

/- `read(udev->fd, ev, 1024)`: the rest of the buffer stays. -/
def readEvent
    (buffer : Nat → UInt8) (data : List UInt8) :
    Nat → UInt8 :=
  fun i => data.getD i (buffer i)

/- `utinydrm_event` on the bytes of the buffer. -/
def utinydrmEventBytes
    (abi : UdrmAbi) (env : Env) (mipi : MipiDbi)
    (ev : Nat → UInt8) : Driver Int :=
  utinydrmEvent env mipi (parseEvent abi ev)

/- One round of the loop of `main`, after a successful read. -/
def mainIteration
    (abi : UdrmAbi) (env : Env) (mipi : MipiDbi)
    (buffer : Nat → UInt8) (data : List UInt8) : Driver Int :=
  utinydrmEventBytes abi env mipi (readEvent buffer data)

end Utinydrm

------------------------------------------------------------
-- Complete Records
------------------------------------------------------------

namespace Utinydrm

/- The number of bytes of an event, from its type and count. -/
def recordSize (abi : UdrmAbi) (ev : Nat → UInt8) : Nat :=
  if recordType abi ev = abi.fbCreate ∨
      recordType abi ev = abi.fbDestroy then
    abi.headerSize + 4
  else if recordType abi ev = abi.fbDirty then
    abi.headerSize + dirtyCmdSize +
      8 * (recordDirtyCmd abi ev).numClips.toNat
  else
    abi.headerSize

/-
  The first `n` bytes hold the header and the whole record it
  starts. With copy annotations the clips come in pairs.
-/
structure CompleteRecord
    (abi : UdrmAbi) (ev : Nat → UInt8) (n : Nat) : Prop where
  whole : recordSize abi ev ≤ n
  pairs : recordType abi ev = abi.fbDirty →
    annotateCopy (recordDirtyCmd abi ev).flags = true →
    (recordDirtyCmd abi ev).numClips.toNat % 2 = 0

variable {abi : UdrmAbi}
variable {ev₁ ev₂ : Nat → UInt8} {n : Nat}

theorem recordU16_congr
    (hAgree : ∀ i < n, ev₁ i = ev₂ i)
    (offset : Nat)
    (hFits : offset + 2 ≤ n) :
    recordU16 ev₁ offset = recordU16 ev₂ offset := by
  unfold recordU16
  rw [hAgree offset (by omega), hAgree (offset + 1) (by omega)]

theorem recordU32_congr
    (hAgree : ∀ i < n, ev₁ i = ev₂ i)
    (offset : Nat)
    (hFits : offset + 4 ≤ n) :
    recordU32 ev₁ offset = recordU32 ev₂ offset := by
  unfold recordU32
  rw [hAgree offset (by omega), hAgree (offset + 1) (by omega),
    hAgree (offset + 2) (by omega),
    hAgree (offset + 3) (by omega)]

theorem recordType_congr
    (hAgree : ∀ i < n, ev₁ i = ev₂ i)
    (hHeader : abi.headerSize ≤ n) :
    recordType abi ev₁ = recordType abi ev₂ := by
  have hType := abi.typeFits
  exact recordU32_congr hAgree _ (by omega)

theorem recordFbId_congr
    (hAgree : ∀ i < n, ev₁ i = ev₂ i)
    (hFits : abi.headerSize + 4 ≤ n) :
    recordFbId abi ev₁ = recordFbId abi ev₂ :=
  recordU32_congr hAgree _ hFits

theorem recordDirtyCmd_congr
    (hAgree : ∀ i < n, ev₁ i = ev₂ i)
    (hCommand : abi.headerSize + dirtyCmdSize ≤ n) :
    recordDirtyCmd abi ev₁ = recordDirtyCmd abi ev₂ := by
  unfold dirtyCmdSize at hCommand
  unfold recordDirtyCmd
  rw [recordU32_congr hAgree abi.headerSize (by omega),
    recordU32_congr hAgree (abi.headerSize + 4) (by omega),
    recordU32_congr hAgree (abi.headerSize + 8) (by omega),
    recordU32_congr hAgree (abi.headerSize + 12) (by omega)]

theorem recordClip_congr
    (hAgree : ∀ i < n, ev₁ i = ev₂ i)
    {i : Nat}
    (hFits :
      abi.headerSize + dirtyCmdSize + 8 * (i + 1) ≤ n) :
    recordClip abi ev₁ i = recordClip abi ev₂ i := by
  unfold recordClip
  dsimp only
  congr 1
  all_goals exact recordU16_congr hAgree _ (by omega)

end Utinydrm

------------------------------------------------------------
-- Handling
------------------------------------------------------------

namespace Utinydrm

variable {abi : UdrmAbi}

/- Merging only looks at the clips it counts. -/
theorem tinydrmMergeClips_congr
    {clips₁ clips₂ : Nat → DrmClipRect}
    {numClips flags : UInt32}
    (hSame : ∀ i ∈ clipIndices flags numClips.toNat,
      clips₁ i = clips₂ i)
    (maxWidth maxHeight : UInt32) :
    tinydrmMergeClips (some clips₁) numClips flags
        maxWidth maxHeight =
      tinydrmMergeClips (some clips₂) numClips flags
        maxWidth maxHeight := by
  have hMerged :
      (clipIndices flags numClips.toNat).foldl
          (fun dst i => mergeClip dst (clips₁ i)) emptyClip =
        (clipIndices flags numClips.toNat).foldl
          (fun dst i => mergeClip dst (clips₂ i))
          emptyClip := by
    apply List.foldl_ext
    intro dst i hMem
    rw [hSame i hMem]
  simp only [tinydrmMergeClips, hMerged]

theorem mem_clipIndices
    {flags : UInt32} {numClips i : Nat}
    (hPairs : annotateCopy flags = true → numClips % 2 = 0)
    (hMem : i ∈ clipIndices flags numClips) :
    i < numClips := by
  unfold clipIndices at hMem
  split at hMem
  case isTrue hAnnotate =>
    have hEven := hPairs hAnnotate
    rcases List.mem_map.mp hMem with ⟨k, hk, rfl⟩
    have hLess := List.mem_range.mp hk
    omega
  case isFalse => exact List.mem_range.mp hMem

/- A dirty event only looks at the clips it counts. -/
theorem utinydrmFbDirty_congr
    (env : Env) (mipi : MipiDbi)
    {dirty : DrmModeFbDirtyCmd}
    {clips₁ clips₂ : Nat → DrmClipRect}
    (hSame : ∀ i ∈ clipIndices dirty.flags
        dirty.numClips.toNat,
      clips₁ i = clips₂ i) :
    utinydrmFbDirty env mipi dirty clips₁ =
      utinydrmFbDirty env mipi dirty clips₂ := by
  have hDirty : ∀ fb : UtinydrmFb,
      mipiDbiFbDirty env mipi fb dirty.flags (some clips₁)
          dirty.numClips =
        mipiDbiFbDirty env mipi fb dirty.flags (some clips₂)
          dirty.numClips := by
    intro fb
    unfold mipiDbiFbDirty
    congr 1
    funext w
    unfold tinydrmCheckDirty
    cases w.prepared <;> cases w.enabled <;> simp
    rw [tinydrmMergeClips_congr hSame]
  unfold utinydrmFbDirty
  simp only [hDirty]

/-
  Buffers that agree on a complete record are the same event,
  up to clips that are not counted.
-/
theorem utinydrmEventBytes_congr
    (env : Env) (mipi : MipiDbi)
    {ev₁ ev₂ : Nat → UInt8} {n : Nat}
    (hAgree : ∀ i < n, ev₁ i = ev₂ i)
    (hComplete : CompleteRecord abi ev₁ n) :
    utinydrmEventBytes abi env mipi ev₁ =
      utinydrmEventBytes abi env mipi ev₂ := by
  have hSize := hComplete.whole
  unfold recordSize at hSize
  have hHeader : abi.headerSize ≤ n := by
    split at hSize
    · omega
    · split at hSize <;> omega
  have hType := recordType_congr hAgree hHeader
  unfold utinydrmEventBytes parseEvent
  rw [← hType]
  -- the cases of the switch, in its order
  split
  · rfl
  split
  · rfl
  split
  case isTrue hCreate =>
    rw [if_pos (Or.inl hCreate)] at hSize
    rw [recordFbId_congr hAgree hSize]
  split
  case isTrue hDestroy =>
    rw [if_pos (Or.inr hDestroy)] at hSize
    rw [recordFbId_congr hAgree hSize]
  split
  case isTrue hCreate hDestroy hDirty =>
    rw [if_neg (by rintro (h | h) <;> contradiction),
      if_pos hDirty] at hSize
    rw [← recordDirtyCmd_congr hAgree (by omega)]
    apply utinydrmFbDirty_congr
    intro i hMem
    have hLess := mem_clipIndices (hComplete.pairs hDirty) hMem
    exact recordClip_congr hAgree (by omega)
  case isFalse => rfl

/-
  Two buffers that agree on a complete record are handled
  alike, and so a complete record that is read is handled
  alike whatever the buffer held.
-/
theorem event_of_own_bytes
    (abi : UdrmAbi) (env : Env) (mipi : MipiDbi) (w : World) :
    (∀ (ev₁ ev₂ : Nat → UInt8) (n : Nat),
      (∀ i < n, ev₁ i = ev₂ i) →
      CompleteRecord abi ev₁ n →
      utinydrmEventBytes abi env mipi ev₁ w =
        utinydrmEventBytes abi env mipi ev₂ w) ∧
    (∀ (buffer₁ buffer₂ : Nat → UInt8) (data : List UInt8),
      CompleteRecord abi (readEvent buffer₁ data)
        data.length →
      mainIteration abi env mipi buffer₁ data w =
        mainIteration abi env mipi buffer₂ data w) := by
  refine ⟨?_, ?_⟩
  · intro ev₁ ev₂ n hAgree hComplete
    rw [utinydrmEventBytes_congr env mipi hAgree hComplete]
  · intro buffer₁ buffer₂ data hComplete
    have hAgree : ∀ i < data.length,
        readEvent buffer₁ data i = readEvent buffer₂ data i := by
      intro i hi
      simp [readEvent, List.getD_eq_getElem?_getD, hi]
    unfold mainIteration
    rw [utinydrmEventBytes_congr env mipi hAgree hComplete]

/- The type comes first, and the values are numbered. -/
def UdrmAbi.numbered : UdrmAbi where
  headerSize := 8
  typeOffset := 0
  typeFits := by decide
  pipeEnable := 0
  pipeDisable := 1
  fbCreate := 2
  fbDestroy := 3
  fbDirty := 4
  distinct := by decide

/- A dirty event of one clip, with two different rests. -/
theorem event_of_own_bytes_dirty :
    utinydrmEventBytes UdrmAbi.numbered Env.granting
        (mi0283qtProbe mainSpi true true true false)
        (fun i => if i = 0 then 4 else if i = 20 then 1 else 0)
        (World.atProbe (-1)) =
      utinydrmEventBytes UdrmAbi.numbered Env.granting
        (mi0283qtProbe mainSpi true true true false)
        (fun i => if i = 0 then 4 else if i = 20 then 1 else
          if i < 40 then 0 else 0xff)
        (World.atProbe (-1)) := by
  apply (event_of_own_bytes _ _ _ _).1 _ _ 40
  · intro i hi
    simp [hi]
  · exact ⟨by decide, by decide⟩

/-
  A create event that ends with its header: the framebuffer
  gets the id an earlier event left behind.
-/
theorem event_not_of_own_bytes :
    ¬ ∀ (abi : UdrmAbi) (env : Env) (mipi : MipiDbi)
      (w : World) (ev₁ ev₂ : Nat → UInt8) (n : Nat),
      n ≤ 1024 → (∀ i < n, ev₁ i = ev₂ i) →
      utinydrmEventBytes abi env mipi ev₁ w =
        utinydrmEventBytes abi env mipi ev₂ w := by
  intro hClaim
  have hSame := hClaim UdrmAbi.numbered Env.granting
    (mi0283qtProbe mainSpi true true true false)
    (World.atProbe (-1))
    (fun i => if i = 0 then 2 else 0)
    (fun i => if i = 0 then 2 else if i = 8 then 1 else 0)
    8 (by decide) (by decide)
  have hIds := congrArg
    (fun
      | .ok _ w => w.fbs.map UtinydrmFb.id
      | .error _ _ => [])
    hSame
  revert hIds
  decide

end Utinydrm
