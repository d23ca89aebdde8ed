import Utinydrm.Tinydrm.Flush
import Utinydrm.Spi.Transfer

/-
  The payload that a flush of a clip hands to the register
  map.

  The flush starts at the first line of the clip as if lines
  were as long as the clip is wide, and takes the pixels that
  follow each other in memory. These are the pixels of the
  clip when it is as wide as a line, or when it starts in the
  upper left corner and is one line high.

  Key definitions include:
    * `flushWith`
    * `HandsPayload`
    * `SendsClip`
    * `UtinydrmFb.flushPayload`

  Main declarations:
    * `NoWrap.exactSizes`
    * `handsPayload_flushPayload`
    * `flush_payload_iff`
-/

------------------------------------------------------------
-- What Ought To Be Sent
------------------------------------------------------------

namespace Utinydrm

/- The bytes of a pixel in memory. -/
def PixelFormat.cpp : PixelFormat → Nat
| .xrgb8888 => 4
| _ => 2

namespace UtinydrmFb

/- The bytes of a pixel of the framebuffer. -/
def cpp (fb : UtinydrmFb) : Nat := fb.pixelFormat.cpp

/-
  The pixel stored at an offset of the framebuffer, converted
  to RGB565 where it is stored as XRGB8888.
-/
def pixelAt
    (fb : UtinydrmFb) (w : World)
    (offset : Nat) : UInt16 :=
  match fb.pixelFormat with
  | .xrgb8888 =>
      xrgb8888ToRgb565 (w.loadU32 (.mapped (fb.map + offset)) 0)
  | _ => w.loadU16 (.mapped (fb.map + offset)) 0

/- Where the pixel of column `x` in line `y` is stored. -/
def storedAt (fb : UtinydrmFb) (x y : Nat) : Nat :=
  y * fb.pitch.toNat + x * fb.cpp

end UtinydrmFb

namespace DrmClipRect

def width (clip : DrmClipRect) : Nat :=
  clip.x2.toNat - clip.x1.toNat

def height (clip : DrmClipRect) : Nat :=
  clip.y2.toNat - clip.y1.toNat

/- The place of a pixel among those of the clip. -/
def index (clip : DrmClipRect) (x y : Nat) : Nat :=
  (y - clip.y1.toNat) * clip.width + (x - clip.x1.toNat)

end DrmClipRect

/- The pixels of a payload. -/
def payloadPixel (payload : List UInt8) (i : Nat) : UInt16 :=
  le16 (payload.getD (2 * i) 0) (payload.getD (2 * i + 1) 0)

/- The payload is the pixels of the clip, line by line. -/
structure SendsClip
    (fb : UtinydrmFb) (clip : DrmClipRect)
    (w : World) (payload : List UInt8) : Prop where
  length : payload.length = 2 * (clip.width * clip.height)
  pixels : ∀ x y, clip.Holds x y →
    payloadPixel payload (clip.index x y) =
      fb.pixelAt w (fb.storedAt x y)

/-
  A clip that is not empty lies in a framebuffer of one of
  the two formats, whose size in bytes has 32 bits.
-/
structure ClipInside
    (fb : UtinydrmFb) (clip : DrmClipRect) : Prop where
  format :
    fb.pixelFormat = .rgb565 ∨ fb.pixelFormat = .xrgb8888
  pitch : fb.width.toNat * fb.cpp ≤ fb.pitch.toNat
  bytes : fb.height.toNat * fb.pitch.toNat < 2 ^ 32
  nonempty : clip.Nonempty
  inside : clip.Inside fb.width fb.height

end Utinydrm

------------------------------------------------------------
-- The Flush
------------------------------------------------------------

namespace Utinydrm

variable (env : Env)

/-
  The flush, with what it calls to write the register left
  open.
-/
def flushWith
    (write : Ptr → Nat → Driver Int)
    (fb : UtinydrmFb) (vmem : Ptr)
    (clip : DrmClipRect) : Driver Int := do
  let w ← get
  let width := clipWidth clip
  let height := clipHeight clip
  let numPixels := width * height
  match fb.pixelFormat with
  | .rgb565 =>
      write (vmem.add (clip.y1.toUInt32 * width * 2).toNat)
        (numPixels * 2).toNat
  | .xrgb8888 => do
      let granted ← kmalloc env
      if granted then
        write
          (.ofBytes
            (tinydrmXrgb8888ToRgb565 w
              (vmem.add (clip.y1.toUInt32 * width * 4).toNat)
              numPixels.toNat)
            (env.garbage w.now))
          (numPixels * 2).toNat
      else
        pure (-ENOMEM)
  | _ => pure (-EINVAL)

theorem tinydrmRegmapFlushRgb565_eq_flushWith
    (mspi : MipiDbiSpi) (regnr : Nat) :
    tinydrmRegmapFlushRgb565 env mspi regnr =
      flushWith env (regmapRawWrite env mspi regnr) := rfl

/-
  Whatever writes the register, the flush comes down to one
  call of it with the payload.
-/
def HandsPayload
    (fb : UtinydrmFb) (clip : DrmClipRect)
    (w : World) (payload : List UInt8) : Prop :=
  ∃ val len s,
    (∀ write, flushWith env write fb (.mapped fb.map) clip w =
      write val len s) ∧
    s.bytes val len = payload

variable {env}

/- The payload is determined: a write may report its bytes. -/
theorem HandsPayload.unique
    {fb : UtinydrmFb} {clip : DrmClipRect} {w : World}
    {payload payload' : List UInt8}
    (hHands : HandsPayload env fb clip w payload)
    (hHands' : HandsPayload env fb clip w payload') :
    payload = payload' := by
  rcases hHands with ⟨val, len, s, hFlush, hBytes⟩
  rcases hHands' with ⟨val', len', s', hFlush', hBytes'⟩
  let report : Ptr → Nat → Driver Int := fun val len s =>
    .ok 0
      { s with
        log := [.spidev ⟨false, [], [s.bytes val len], none⟩] }
  have hEq := (hFlush report).symm.trans (hFlush' report)
  simp only [report, EStateM.Result.ok.injEq, World.mk.injEq,
    true_and] at hEq
  have hLog := hEq.1
  simp only [List.cons.injEq, Call.spidev.injEq,
    SpiRecord.mk.injEq, true_and, and_true] at hLog
  rw [← hBytes, ← hBytes', hLog]

end Utinydrm

------------------------------------------------------------
-- Sizes And Offsets
------------------------------------------------------------

namespace Utinydrm

namespace UtinydrmFb

/- Where the flush of a clip starts to read. -/
def flushStart
    (fb : UtinydrmFb) (clip : DrmClipRect) : Nat :=
  clip.y1.toNat * clip.width * fb.cpp

theorem two_le_cpp (fb : UtinydrmFb) :
    2 ≤ fb.cpp := by
  unfold cpp PixelFormat.cpp
  split <;> omega

end UtinydrmFb

/-
  The edges of the clip are in order, and the offset of the
  flush and the number of bytes it sends have 32 bits.
-/
structure NoWrap
    (fb : UtinydrmFb) (clip : DrmClipRect) : Prop where
  ordered : clip.x1.toNat ≤ clip.x2.toNat ∧
    clip.y1.toNat ≤ clip.y2.toNat
  start : fb.flushStart clip < 2 ^ 32
  bytes : 2 * (clip.width * clip.height) < 2 ^ 32

/- What the flush computes is what it computes without bound. -/
structure ExactSizes
    (fb : UtinydrmFb) (clip : DrmClipRect) : Prop where
  width : (clipWidth clip).toNat = clip.width
  height : (clipHeight clip).toNat = clip.height
  pixels : (clipWidth clip * clipHeight clip).toNat =
    clip.width * clip.height
  bytes : (clipWidth clip * clipHeight clip * 2).toNat =
    2 * (clip.width * clip.height)
  lines : (clip.y1.toUInt32 * clipWidth clip).toNat =
    clip.y1.toNat * clip.width
  start : ∀ cpp : UInt32, cpp.toNat = fb.cpp →
    (clip.y1.toUInt32 * clipWidth clip * cpp).toNat =
      fb.flushStart clip

variable {fb : UtinydrmFb} {clip : DrmClipRect}

theorem NoWrap.exactSizes
    (hFits : NoWrap fb clip) :
    ExactSizes fb clip := by
  have hWidth : (clipWidth clip).toNat = clip.width := by
    have hLeft := hFits.ordered.1
    rw [clipWidth, UInt32.toNat_sub_of_le]
    · simp [DrmClipRect.width]
    · rw [UInt32.le_iff_toNat_le]
      simpa using hLeft
  have hHeight : (clipHeight clip).toNat = clip.height := by
    have hTop := hFits.ordered.2
    rw [clipHeight, UInt32.toNat_sub_of_le]
    · simp [DrmClipRect.height]
    · rw [UInt32.le_iff_toNat_le]
      simpa using hTop
  have hBytes := hFits.bytes
  have hStart := hFits.start
  have hPixels : clip.width * clip.height < 2 ^ 32 := by
    omega
  have hLines : clip.y1.toNat * clip.width < 2 ^ 32 := by
    apply lt_of_le_of_lt _ hStart
    exact Nat.le_mul_of_pos_right _
      (Nat.lt_of_lt_of_le (by decide) fb.two_le_cpp)
  constructor
  case width => exact hWidth
  case height => exact hHeight
  case pixels =>
    rw [UInt32.toNat_mul, hWidth, hHeight]
    exact Nat.mod_eq_of_lt hPixels
  case bytes =>
    rw [UInt32.toNat_mul, UInt32.toNat_mul, hWidth, hHeight,
      Nat.mod_eq_of_lt hPixels, Nat.mul_comm]
    exact Nat.mod_eq_of_lt hBytes
  case lines =>
    rw [UInt32.toNat_mul, hWidth, UInt16.toNat_toUInt32]
    exact Nat.mod_eq_of_lt hLines
  case start =>
    intro cpp hCpp
    rw [UInt32.toNat_mul, UInt32.toNat_mul, hWidth, hCpp,
      UInt16.toNat_toUInt32, Nat.mod_eq_of_lt hLines]
    exact Nat.mod_eq_of_lt hStart

namespace ClipInside

/- A line of the clip is no longer than one in memory. -/
theorem line_le
    (hInside : ClipInside fb clip) :
    clip.width * fb.cpp ≤ fb.pitch.toNat := by
  have hWidth : clip.width ≤ fb.width.toNat := by
    have hRight := hInside.inside.1
    unfold DrmClipRect.width
    omega
  exact (Nat.mul_le_mul_right _ hWidth).trans hInside.pitch

/- Lines of the clip are no more than lines in memory. -/
theorem lines_le
    (hInside : ClipInside fb clip)
    {lines : Nat} (hLines : lines ≤ fb.height.toNat) :
    lines * clip.width * fb.cpp ≤
      fb.height.toNat * fb.pitch.toNat := by
  rw [Nat.mul_assoc]
  exact Nat.mul_le_mul hLines hInside.line_le

/- They fit into 32 bits. -/
theorem noWrap
    (hInside : ClipInside fb clip) :
    NoWrap fb clip := by
  have hLeft := hInside.nonempty.1
  have hTop := hInside.nonempty.2
  have hBottom := hInside.inside.2
  have hHeight : clip.height ≤ fb.height.toNat := by
    unfold DrmClipRect.height
    omega
  constructor
  case ordered => exact ⟨hLeft.le, hTop.le⟩
  case start =>
    exact (hInside.lines_le (by omega)).trans_lt hInside.bytes
  case bytes =>
    apply lt_of_le_of_lt _ hInside.bytes
    apply le_trans _ (hInside.lines_le hHeight)
    rw [Nat.mul_comm, Nat.mul_comm clip.width]
    exact Nat.mul_le_mul_left _ fb.two_le_cpp

end ClipInside

end Utinydrm

------------------------------------------------------------
-- The Payload
------------------------------------------------------------

namespace Utinydrm

/- Two bytes are a pixel again. -/
theorem le16_bytes (x : UInt16) :
    le16 x.toUInt8 (x >>> 8).toUInt8 = x := by
  apply UInt16.toBitVec_inj.mp
  ext i hi
  simp [le16, -UInt16.toUInt16_toUInt8]
  interval_cases i <;> simp

/- The pixels of bytes in memory. -/
theorem payloadPixel_bytes
    (w : World) (p : Ptr) {len k : Nat}
    (hInside : 2 * k + 1 < len) :
    payloadPixel (w.bytes p len) k = w.loadU16 p k := by
  have hFirst : 2 * k < len := by omega
  simp [payloadPixel, World.bytes, World.loadU16, hInside,
    hFirst]

theorem World.loadU16_add
    (w : World) (p : Ptr) (k : Nat) :
    w.loadU16 (p.add (2 * k)) 0 = w.loadU16 p k := by
  simp [World.loadU16, World.byte_add]

theorem World.loadU32_add
    (w : World) (p : Ptr) (k : Nat) :
    w.loadU32 (p.add (4 * k)) 0 = w.loadU32 p k := by
  simp [World.loadU32, World.byte_add]

/- The converted pixels, each as two bytes. -/
theorem length_tinydrmXrgb8888ToRgb565
    (w : World) (src : Ptr) (n : Nat) :
    (tinydrmXrgb8888ToRgb565 w src n).length = 2 * n := by
  unfold tinydrmXrgb8888ToRgb565
  induction n with
  | zero => rfl
  | succ n ih =>
      rw [List.range_succ, List.flatMap_append,
        List.length_append, ih]
      simp
      omega

theorem payloadPixel_tinydrmXrgb8888ToRgb565
    (w : World) (src : Ptr) {n k : Nat}
    (hk : k < n) :
    payloadPixel (tinydrmXrgb8888ToRgb565 w src n) k =
      xrgb8888ToRgb565 (w.loadU32 src k) := by
  have hLength := length_tinydrmXrgb8888ToRgb565 w src
  unfold tinydrmXrgb8888ToRgb565 at hLength ⊢
  induction n with
  | zero => omega
  | succ n ih =>
      rw [List.range_succ, List.flatMap_append]
      rcases Nat.lt_succ_iff_lt_or_eq.mp hk with hLess | hEq
      · rw [← ih hLess]
        unfold payloadPixel
        rw [List.getD_append _ _ _ _ (by rw [hLength]; omega),
          List.getD_append _ _ _ _ (by rw [hLength]; omega)]
      · subst hEq
        unfold payloadPixel
        rw [List.getD_append_right _ _ _ _
            (by rw [hLength]),
          List.getD_append_right _ _ _ _
            (by rw [hLength]; omega), hLength]
        simp [le16_bytes]

namespace UtinydrmFb

/- The bytes a flush hands over: as many pixels as the clip has. -/
def flushPayload
    (fb : UtinydrmFb) (clip : DrmClipRect) (w : World) :
    List UInt8 :=
  let start := Ptr.mapped (fb.map + fb.flushStart clip)
  match fb.pixelFormat with
  | .xrgb8888 =>
      tinydrmXrgb8888ToRgb565 w start
        (clip.width * clip.height)
  | _ => w.bytes start (2 * (clip.width * clip.height))

end UtinydrmFb

variable {env : Env}
variable {fb : UtinydrmFb} {clip : DrmClipRect} {w : World}

theorem UtinydrmFb.length_flushPayload :
    (fb.flushPayload clip w).length =
      2 * (clip.width * clip.height) := by
  unfold flushPayload
  cases fb.pixelFormat
  case xrgb8888 =>
    exact length_tinydrmXrgb8888ToRgb565 _ _ _
  all_goals exact World.length_bytes _ _ _

/- They are read one after another. -/
theorem UtinydrmFb.payloadPixel_flushPayload
    {k : Nat} (hk : k < clip.width * clip.height) :
    payloadPixel (fb.flushPayload clip w) k =
      fb.pixelAt w (fb.flushStart clip + k * fb.cpp) := by
  unfold flushPayload pixelAt cpp
  cases fb.pixelFormat
  case xrgb8888 =>
    rw [payloadPixel_tinydrmXrgb8888ToRgb565 w _ hk,
      ← World.loadU32_add, Nat.mul_comm k]
    simp only [Ptr.add, Nat.add_assoc]
    rfl
  all_goals
    rw [payloadPixel_bytes _ _ (by omega),
      ← World.loadU16_add, Nat.mul_comm k]
    simp only [Ptr.add, Nat.add_assoc]
    rfl

/- Pixels of RGB565 are written from where they are. -/
theorem flushWith_rgb565
    (hFits : NoWrap fb clip)
    (hFormat : fb.pixelFormat = .rgb565)
    (write : Ptr → Nat → Driver Int) (vmem : Ptr) :
    flushWith env write fb vmem clip w =
      write (vmem.add (fb.flushStart clip))
        (2 * (clip.width * clip.height)) w := by
  have hSizes := hFits.exactSizes
  have hCpp : (2 : UInt32).toNat = fb.cpp := by
    rw [UtinydrmFb.cpp, hFormat]
    rfl
  unfold flushWith
  rw [Effect.bind_of_ok (Effect.get_apply w)]
  simp only [hFormat, hSizes.start _ hCpp, hSizes.bytes]

/- Other pixels are converted into a buffer. -/
theorem flushWith_xrgb8888
    (hFits : NoWrap fb clip)
    (hFormat : fb.pixelFormat = .xrgb8888)
    (hGranted : env.kmalloc w.now = true)
    (write : Ptr → Nat → Driver Int) (vmem : Ptr) :
    flushWith env write fb vmem clip w =
      write
        (.ofBytes
          (tinydrmXrgb8888ToRgb565 w
            (vmem.add (fb.flushStart clip))
            (clip.width * clip.height))
          (env.garbage w.now))
        (2 * (clip.width * clip.height))
        (w.record (.kmalloc true)) := by
  have hSizes := hFits.exactSizes
  have hCpp : (4 : UInt32).toNat = fb.cpp := by
    rw [UtinydrmFb.cpp, hFormat]
    rfl
  unfold flushWith
  rw [Effect.bind_of_ok (Effect.get_apply w)]
  simp only [hFormat, hSizes.start _ hCpp, hSizes.pixels,
    hSizes.bytes, kmalloc_bind, hGranted, if_true]

/- Without a buffer nothing is written. -/
theorem flushWith_refused
    (hFormat : fb.pixelFormat = .xrgb8888)
    (hRefused : env.kmalloc w.now = false)
    (write : Ptr → Nat → Driver Int) (vmem : Ptr) :
    flushWith env write fb vmem clip w =
      .ok (-ENOMEM) (w.record (.kmalloc false)) := by
  unfold flushWith
  rw [Effect.bind_of_ok (Effect.get_apply w)]
  simp only [hFormat, kmalloc_bind, hRefused,
    Bool.false_eq_true, if_false]
  rfl

/- So nothing is handed over. -/
theorem HandsPayload.not_refused
    {payload : List UInt8}
    (hHands : HandsPayload env fb clip w payload)
    (hFormat : fb.pixelFormat = .xrgb8888) :
    env.kmalloc w.now ≠ false := by
  intro hRefused
  rcases hHands with ⟨val, len, s, hFlush, _⟩
  cases (hFlush fun _ _ => throw .hang).symm.trans
    (flushWith_refused hFormat hRefused _ _)

/- What is handed over is the payload, in one write. -/
theorem handsPayload_flushPayload
    (hFits : NoWrap fb clip)
    (hFormat :
      fb.pixelFormat = .rgb565 ∨ fb.pixelFormat = .xrgb8888)
    (hGranted : fb.pixelFormat = .xrgb8888 →
      env.kmalloc w.now = true) :
    HandsPayload env fb clip w (fb.flushPayload clip w) := by
  rcases hFormat with hPlain | hConverted
  · refine ⟨_, _, w, fun write =>
      flushWith_rgb565 hFits hPlain write _, ?_⟩
    rw [UtinydrmFb.flushPayload, hPlain]
    rfl
  · refine ⟨_, _, _, fun write =>
      flushWith_xrgb8888 hFits hConverted
        (hGranted hConverted) write _, ?_⟩
    have hLength := length_tinydrmXrgb8888ToRgb565 w
      ((Ptr.mapped fb.map).add (fb.flushStart clip))
      (clip.width * clip.height)
    rw [World.bytes_ofBytes _ _ _ (by rw [hLength]), ← hLength,
      List.take_length, UtinydrmFb.flushPayload, hConverted]
    rfl

/-
  What is handed over: as many pixels as the clip has, read
  one after another.
-/
theorem flushWith_payload
    (hInside : ClipInside fb clip)
    (hGranted : env.kmalloc w.now = true) :
    ∃ payload, HandsPayload env fb clip w payload ∧
      payload.length = 2 * (clip.width * clip.height) ∧
      ∀ k < clip.width * clip.height,
        payloadPixel payload k = fb.pixelAt w
          ((clip.y1.toNat * clip.width + k) * fb.cpp) := by
  refine ⟨fb.flushPayload clip w,
    handsPayload_flushPayload hInside.noWrap hInside.format
      fun _ => hGranted,
    UtinydrmFb.length_flushPayload, ?_⟩
  intro k hk
  rw [UtinydrmFb.payloadPixel_flushPayload hk, Nat.add_mul]
  rfl

end Utinydrm

------------------------------------------------------------
-- Reading And Storing
------------------------------------------------------------

namespace Utinydrm

variable {fb : UtinydrmFb} {clip : DrmClipRect}

/- Where the pixel of column `x` in line `y` is read. -/
def UtinydrmFb.readAt
    (fb : UtinydrmFb) (clip : DrmClipRect)
    (x y : Nat) : Nat :=
  (y * clip.width + (x - clip.x1.toNat)) * fb.cpp

namespace DrmClipRect

/- The pixels of a clip are counted line by line. -/
theorem index_lt
    {x y : Nat} (hHolds : clip.Holds x y) :
    clip.index x y < clip.width * clip.height := by
  rcases hHolds with ⟨⟨hLeft, hRight⟩, hTop, hBottom⟩
  have hColumn : x - clip.x1.toNat < clip.width := by
    unfold width
    omega
  have hLine : y - clip.y1.toNat + 1 ≤ clip.height := by
    unfold height
    omega
  calc clip.index x y
      < (y - clip.y1.toNat) * clip.width + clip.width := by
        unfold index
        omega
    _ = (y - clip.y1.toNat + 1) * clip.width :=
        (Nat.succ_mul _ _).symm
    _ ≤ clip.height * clip.width :=
        Nat.mul_le_mul_right _ hLine
    _ = clip.width * clip.height := Nat.mul_comm _ _

/- The place of a pixel behind the start of the flush. -/
theorem start_add_index
    {x y : Nat} (hHolds : clip.Holds x y) :
    clip.y1.toNat * clip.width + clip.index x y =
      y * clip.width + (x - clip.x1.toNat) := by
  have hTop := hHolds.2.1
  rw [index, ← Nat.add_assoc, ← Nat.add_mul,
    Nat.add_sub_cancel' hTop]

end DrmClipRect

/-
  The pixels read are the pixels wanted at every place of the
  clip, whatever the memory holds, if and only if the clip
  starts at the left edge and either takes whole lines or is
  the first line.
-/
theorem readAt_eq_storedAt_iff
    (hInside : ClipInside fb clip) :
    (∀ x y, clip.Holds x y →
      fb.readAt clip x y = fb.storedAt x y) ↔
    clip.x1.toNat = 0 ∧
      (clip.x2.toNat * fb.cpp = fb.pitch.toNat ∨
        clip.y2.toNat = 1) := by
  have hLeft := hInside.nonempty.1
  have hTop := hInside.nonempty.2
  have hCpp := fb.two_le_cpp
  constructor
  · intro hEqual
    -- the first pixel of the last line
    have hPixel := hEqual clip.x1.toNat (clip.y2.toNat - 1)
      ⟨⟨le_refl _, hLeft⟩, by omega, by omega⟩
    rw [UtinydrmFb.readAt, UtinydrmFb.storedAt, Nat.sub_self,
      Nat.add_zero, Nat.mul_assoc] at hPixel
    have hLines : (clip.y2.toNat - 1) * (clip.width * fb.cpp) ≤
        (clip.y2.toNat - 1) * fb.pitch.toNat :=
      Nat.mul_le_mul_left _ hInside.line_le
    have hStart : clip.x1.toNat * fb.cpp = 0 := by omega
    have hLine : (clip.y2.toNat - 1) * (clip.width * fb.cpp) =
        (clip.y2.toNat - 1) * fb.pitch.toNat := by omega
    have hEdge : clip.x1.toNat = 0 := by
      rcases Nat.mul_eq_zero.mp hStart with hZero | hZero
      · exact hZero
      · omega
    refine ⟨hEdge, ?_⟩
    rcases Nat.eq_zero_or_pos (clip.y2.toNat - 1) with
      hFirst | hLater
    · exact Or.inr (by omega)
    · have hWidth := Nat.eq_of_mul_eq_mul_left hLater hLine
      rw [DrmClipRect.width, hEdge, Nat.sub_zero] at hWidth
      exact Or.inl hWidth
  · rintro ⟨hEdge, hShape⟩ x y hHolds
    have hBottom := hHolds.2.2
    rw [UtinydrmFb.readAt, UtinydrmFb.storedAt,
      DrmClipRect.width, hEdge, Nat.sub_zero, Nat.sub_zero,
      Nat.add_mul, Nat.mul_assoc]
    rcases hShape with hWidth | hFirst
    · rw [hWidth]
    · have hLine : y = 0 := by omega
      rw [hLine, Nat.zero_mul, Nat.zero_mul]

/- A flush never reads behind the pixel it should. -/
theorem readAt_le_storedAt
    (hInside : ClipInside fb clip) (x y : Nat) :
    fb.readAt clip x y ≤ fb.storedAt x y := by
  rw [UtinydrmFb.readAt, UtinydrmFb.storedAt, Nat.add_mul,
    Nat.mul_assoc]
  exact Nat.add_le_add
    (Nat.mul_le_mul_left _ hInside.line_le)
    (Nat.mul_le_mul_right _ (Nat.sub_le _ _))

end Utinydrm

------------------------------------------------------------
-- Telling Pixels Apart
------------------------------------------------------------

namespace Utinydrm

/- Without its first byte no pixel is white. -/
theorem le16_ne_white (hi : UInt8) : le16 0 hi ≠ 0xffff := by
  intro hEq
  have hLow := le16_lo 0 hi
  rw [hEq] at hLow
  revert hLow
  decide

theorem xrgb8888ToRgb565_ne_white (b₁ b₂ b₃ : UInt8) :
    xrgb8888ToRgb565 (le32 0 b₁ b₂ b₃) ≠ 0xffff := by
  intro hEq
  have hBit := congrArg (fun x : UInt16 => x.toBitVec[0]) hEq
  simp [xrgb8888ToRgb565, le32] at hBit

/- Pixels at two offsets are different in some memory. -/
theorem exists_mem_pixelAt_ne
    (fb : UtinydrmFb) (w : World)
    {a b : Nat} (hLess : a < b) :
    ∃ mem, fb.pixelAt { w with mem := mem } a ≠
      fb.pixelAt { w with mem := mem } b := by
  let mem : Nat → UInt8 := fun i =>
    if fb.map + b ≤ i then 0xff else 0
  have hBlack : mem (fb.map + a) = 0 := by
    simp [mem, hLess]
  have hFirst : mem (fb.map + b) = 0xff := by
    simp [mem]
  have hWhite : ∀ i, mem (fb.map + b + i) = 0xff := by
    intro i
    simp [mem, Nat.add_assoc]
  refine ⟨mem, ?_⟩
  unfold UtinydrmFb.pixelAt
  cases fb.pixelFormat
  case xrgb8888 =>
    simp only [World.loadU32, World.byte, hBlack, hFirst, hWhite,
      Nat.mul_zero, Nat.add_zero, Nat.zero_add]
    exact xrgb8888ToRgb565_ne_white _ _ _
  all_goals
    simp only [World.loadU16, World.byte, hBlack, hFirst, hWhite,
      Nat.mul_zero, Nat.add_zero, Nat.zero_add]
    exact le16_ne_white _

end Utinydrm

------------------------------------------------------------
-- When The Clip Is Sent
------------------------------------------------------------

namespace Utinydrm

variable {env : Env}
variable {fb : UtinydrmFb} {clip : DrmClipRect}

/- The flush hands over the pixels of the clip. -/
def FlushSendsClip
    (env : Env) (fb : UtinydrmFb) (clip : DrmClipRect)
    (w : World) : Prop :=
  ∃ payload, HandsPayload env fb clip w payload ∧
    SendsClip fb clip w payload

/- It does where the pixels read are the ones wanted. -/
theorem flushSendsClip_iff
    (hInside : ClipInside fb clip)
    {w : World} (hGranted : env.kmalloc w.now = true) :
    FlushSendsClip env fb clip w ↔
      ∀ x y, clip.Holds x y →
        fb.pixelAt w (fb.readAt clip x y) =
          fb.pixelAt w (fb.storedAt x y) := by
  rcases flushWith_payload hInside hGranted with
    ⟨payload, hHands, hLength, hRead⟩
  have hPixel : ∀ x y, clip.Holds x y →
      payloadPixel payload (clip.index x y) =
        fb.pixelAt w (fb.readAt clip x y) := by
    intro x y hHolds
    rw [hRead _ (DrmClipRect.index_lt hHolds),
      DrmClipRect.start_add_index hHolds]
    rfl
  constructor
  · rintro ⟨payload', hHands', hSends⟩ x y hHolds
    rw [hHands'.unique hHands] at hSends
    rw [← hPixel x y hHolds]
    exact hSends.pixels x y hHolds
  · intro hSame
    refine ⟨payload, hHands, hLength, ?_⟩
    intro x y hHolds
    rw [hPixel x y hHolds]
    exact hSame x y hHolds

/-
  The payload of a flush is exactly the pixels of the clip,
  whatever the framebuffer holds, if and only if the clip
  starts at the left edge and either takes whole lines or is
  the first line. For one content of the framebuffer it is
  if and only if the pixels the flush reads happen to be the
  ones of the clip.
-/
theorem flush_payload_iff
    (env : Env) (fb : UtinydrmFb) (clip : DrmClipRect)
    (w : World)
    (hInside : ClipInside fb clip)
    (hGranted : env.kmalloc w.now = true) :
    (∀ mspi regnr,
      tinydrmRegmapFlushRgb565 env mspi regnr =
        flushWith env (regmapRawWrite env mspi regnr)) ∧
    ((∀ mem, FlushSendsClip env fb clip
        { w with mem := mem }) ↔
      clip.x1.toNat = 0 ∧
        (clip.x2.toNat * fb.cpp = fb.pitch.toNat ∨
          clip.y2.toNat = 1)) ∧
    (FlushSendsClip env fb clip w ↔
      ∀ x y, clip.Holds x y →
        fb.pixelAt w (fb.readAt clip x y) =
          fb.pixelAt w (fb.storedAt x y)) := by
  refine ⟨fun mspi regnr => rfl, ?_,
    flushSendsClip_iff hInside hGranted⟩
  have hSends : ∀ mem,
      FlushSendsClip env fb clip { w with mem := mem } ↔
        ∀ x y, clip.Holds x y →
          fb.pixelAt { w with mem := mem }
              (fb.readAt clip x y) =
            fb.pixelAt { w with mem := mem }
              (fb.storedAt x y) :=
    fun mem => flushSendsClip_iff hInside hGranted
  rw [← readAt_eq_storedAt_iff hInside]
  constructor
  · intro hAll x y hHolds
    by_contra hNe
    have hLess := lt_of_le_of_ne
      (readAt_le_storedAt hInside x y) hNe
    rcases exists_mem_pixelAt_ne fb w hLess with ⟨mem, hMem⟩
    exact hMem ((hSends mem).mp (hAll mem) x y hHolds)
  · intro hEqual mem
    rw [hSends mem]
    intro x y hHolds
    rw [hEqual x y hHolds]

/- Some whole lines of the display. -/
theorem flush_payload_lines :
    FlushSendsClip Env.granting .display ⟨0, 100, 320, 140⟩
      (World.atProbe (-1)) :=
  (flush_payload_iff Env.granting .display
    ⟨0, 100, 320, 140⟩ (World.atProbe (-1))
    { format := Or.inl rfl
      pitch := by decide
      bytes := by decide
      nonempty := by decide
      inside := by decide }
    rfl).2.1.mpr (by decide) fun _ => 0

/-
  The right half of a display that is black up to there: the
  first pixel sent is black, the one of the clip is white.
-/
theorem flush_payload_right_half :
    ClipInside .display ⟨160, 0, 320, 240⟩ ∧
    ¬ FlushSendsClip Env.granting .display
      ⟨160, 0, 320, 240⟩
      { World.atProbe (-1) with
        mem := fun i => if 2 ^ 20 + 320 ≤ i then 0xff else 0 } := by
  have hInside : ClipInside .display ⟨160, 0, 320, 240⟩ :=
    { format := Or.inl rfl
      pitch := by decide
      bytes := by decide
      nonempty := by decide
      inside := by decide }
  refine ⟨hInside, ?_⟩
  rw [flushSendsClip_iff hInside rfl]
  intro hSame
  have hPixel := hSame 160 0 (by
    unfold DrmClipRect.Holds
    decide)
  revert hPixel
  decide

end Utinydrm
