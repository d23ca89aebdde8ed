import Utinydrm.Event.FlushMemory
import Utinydrm.MipiDbi.Panel

/-
  What a flush makes the panel show.

  A flush is three frames on the wire. What the panel makes
  of them is the clip, and nothing else is changed, when the
  pixels that are read are those of the clip and the window
  is as wide as it.

  Key definitions include:
    * `clipFrames`, `flushPixels`
    * `ClipShown`, `ShowsClip`

  Main declarations:
    * `mipiDbiFbFlush_wire`
    * `picture_of_clipFrames`
    * `frames_show_clip_iff`
    * `flush_shows_clip_iff`
-/

------------------------------------------------------------
-- The Frames Of A Flush
------------------------------------------------------------

namespace Utinydrm

variable {env : Env}

/- Two commands that address a clip, and some pixels. -/
def clipFrames
    (clip : DrmClipRect) (pixels : List UInt16) :
    List (Bool × UInt8) :=
  commandFrame 0x2A (columnAddress clip) ++
    (commandFrame 0x2B (pageAddress clip) ++
      commandFrame 0x2C (bigEndianBytes pixels))

namespace UtinydrmFb

/- The pixels a flush of a clip reads. -/
def flushPixels
    (fb : UtinydrmFb) (clip : DrmClipRect) (w : World) :
    List UInt16 :=
  (List.range (clip.width * clip.height)).map fun k =>
    fb.pixelAt w (fb.flushStart clip + k * fb.cpp)

@[simp] theorem length_flushPixels
    (fb : UtinydrmFb) (clip : DrmClipRect) (w : World) :
    (fb.flushPixels clip w).length =
      clip.width * clip.height := by
  simp [flushPixels]

/- A pixel of the mapping depends on its own bytes. -/
theorem pixelAt_congr
    {fb : UtinydrmFb} {w w' : World} {offset : Nat}
    (hSame : ∀ i < fb.cpp,
      w'.mem (fb.map + offset + i) =
        w.mem (fb.map + offset + i)) :
    fb.pixelAt w' offset = fb.pixelAt w offset := by
  unfold cpp PixelFormat.cpp at hSame
  unfold pixelAt
  cases hFormat : fb.pixelFormat
  case xrgb8888 =>
    rw [hFormat] at hSame
    simp only [World.loadU32, World.byte, Nat.mul_zero]
    rw [hSame 0 (by decide), hSame 1 (by decide),
      hSame 2 (by decide), hSame 3 (by decide)]
  all_goals
    rw [hFormat] at hSame
    simp only [World.loadU16, World.byte, Nat.mul_zero]
    rw [hSame 0 (by decide), hSame 1 (by decide)]

end UtinydrmFb

variable {fb : UtinydrmFb} {clip : DrmClipRect}

/- Pixels outside the transmit buffer stay what they are. -/
theorem UtinydrmFb.pixelAt_of_sameOutside
    {w w' : World} {buf : UdmaBuf}
    (hApart : (Ptr.mapped fb.map).Apart fb.mapSize.toNat
      buf.map buf.mapSize)
    (hMemory : SameOutside buf.map buf.mapSize w w')
    {offset : Nat}
    (hInside : offset + fb.cpp ≤ fb.mapSize.toNat) :
    fb.pixelAt w' offset = fb.pixelAt w offset := by
  apply pixelAt_congr
  intro i hi
  simp only [Ptr.Apart] at hApart
  exact hMemory _ (by omega)

theorem BuffersReady.pixelAt_of_stays
    {mspi : MipiDbiSpi} {w w' : World} {buf : UdmaBuf}
    (hReady : BuffersReady mspi w buf)
    (hMem : fb ∈ w.fbs) (hStays : Stays buf w w')
    {offset : Nat}
    (hInside : offset + fb.cpp ≤ fb.mapSize.toNat) :
    fb.pixelAt w' offset = fb.pixelAt w offset :=
  UtinydrmFb.pixelAt_of_sameOutside (hReady.apart fb hMem)
    hStays.memory hInside

/- The pixels of a flush lie in the mapping. -/
theorem ClipInside.flush_pixel_inside
    (hInside : ClipInside fb clip)
    (hSize : fb.mapSize.toNat =
      fb.height.toNat * fb.pitch.toNat)
    {k : Nat} (hk : k < clip.width * clip.height) :
    fb.flushStart clip + k * fb.cpp + fb.cpp ≤
      fb.mapSize.toNat := by
  have hPixel : (k + 1) * fb.cpp ≤
      clip.width * clip.height * fb.cpp :=
    Nat.mul_le_mul_right _ hk
  have hWithin := hInside.flush_within
  rw [Nat.add_mul, Nat.one_mul] at hPixel
  omega

/- So they are read again when only the buffer was written. -/
theorem ClipInside.flushPixels_of_sameOutside
    (hInside : ClipInside fb clip)
    (hSize : fb.mapSize.toNat =
      fb.height.toNat * fb.pitch.toNat)
    {w w' : World} {buf : UdmaBuf}
    (hApart : (Ptr.mapped fb.map).Apart fb.mapSize.toNat
      buf.map buf.mapSize)
    (hMemory : SameOutside buf.map buf.mapSize w w') :
    fb.flushPixels clip w' = fb.flushPixels clip w := by
  apply List.map_congr_left
  intro k hk
  rw [UtinydrmFb.pixelAt_of_sameOutside hApart hMemory
    (hInside.flush_pixel_inside hSize (List.mem_range.mp hk))]

/-
  The memory write of a flush is one of the pixels it reads,
  from the mapping or from a buffer they were converted into.
-/
theorem flush_source
    (hAlloc : ∀ n, env.kmalloc n = true)
    (mspi : MipiDbiSpi) (cmd : Nat)
    {w : World} (hMem : fb ∈ w.fbs)
    (hSize : fb.mapSize.toNat =
      fb.height.toNat * fb.pitch.toNat)
    (hInside : ClipInside fb clip) :
    ∃ p s, tinydrmRegmapFlushRgb565 env mspi cmd fb
          (.mapped fb.map) clip w =
        regmapRawWrite env mspi cmd p
          (2 * (clip.width * clip.height)) s ∧
      w.Quiet s ∧ World.SameBus w s ∧
      PixelSource s (2 * (clip.width * clip.height)) p ∧
      s.pixels p (clip.width * clip.height) =
        fb.flushPixels clip w := by
  have hFits := hInside.noWrap
  rw [tinydrmRegmapFlushRgb565_eq_flushWith]
  rcases hInside.format with hPlain | hConverted
  · -- from the mapping
    have hCpp : fb.cpp = 2 := by
      rw [UtinydrmFb.cpp, hPlain]
      rfl
    have hWithin :
        fb.flushStart clip +
          2 * (clip.width * clip.height) ≤
            fb.mapSize.toNat := by
      have hLines := hInside.flush_within
      rw [hCpp, Nat.mul_comm _ 2] at hLines
      rw [hSize]
      exact hLines
    refine ⟨.mapped (fb.map + fb.flushStart clip), w,
      flushWith_rgb565 hFits hPlain _ _, .of_log_eq rfl,
      .refl w, .framebuffer fb _ hMem hWithin, ?_⟩
    apply List.map_congr_left
    intro k _
    rw [← World.loadU16_add, UtinydrmFb.pixelAt, hPlain,
      hCpp, Nat.mul_comm k]
    simp only [Ptr.add, Nat.add_assoc]
  · -- from the buffer they were converted into
    let pixels := tinydrmXrgb8888ToRgb565 w
      ((Ptr.mapped fb.map).add (fb.flushStart clip))
      (clip.width * clip.height)
    let s := w.record (.kmalloc true)
    have hLength : pixels.length =
        2 * (clip.width * clip.height) :=
      length_tinydrmXrgb8888ToRgb565 _ _ _
    refine ⟨.ofBytes pixels (env.garbage w.now), s,
      flushWith_xrgb8888 hFits hConverted (hAlloc _) _ _,
      .of_log _ rfl (by simp [Call.isMessage]),
      ⟨rfl, rfl, rfl, rfl, rfl, rfl⟩, .heap _, ?_⟩
    apply List.map_congr_left
    intro k hk
    have hLess := List.mem_range.mp hk
    have hBytes := s.bytes_ofBytes pixels
      (env.garbage w.now) (le_of_eq hLength.symm)
    have hPayload : fb.flushPayload clip w = pixels := by
      rw [UtinydrmFb.flushPayload, hConverted]
      rfl
    rw [← hLength, List.take_length, hLength] at hBytes
    have hPixel : payloadPixel pixels k = s.loadU16
        (.ofBytes pixels (env.garbage w.now)) k := by
      conv_lhs => rw [← hBytes]
      exact payloadPixel_bytes _ _ (by omega)
    rw [← UtinydrmFb.payloadPixel_flushPayload hLess,
      hPayload, hPixel]

section Flush

variable (hEnv : env.Delivers)
variable (spi : SpiDevice) (writeOnly : Bool)
variable {w : World} {buf : UdmaBuf}
variable (hReady :
  BuffersReady (mipiDbiSpiInit spi true writeOnly) w buf)
variable (hMem : fb ∈ w.fbs)
variable (hSize : fb.mapSize.toNat =
  fb.height.toNat * fb.pitch.toNat)
variable (hInside : ClipInside fb clip)

include hEnv hReady hMem hSize hInside

/- The memory write of a flush. -/
theorem tinydrmRegmapFlushRgb565_wire :
    ∃ w', tinydrmRegmapFlushRgb565 env
        (mipiDbiSpiInit spi true writeOnly)
        MIPI_DCS_WRITE_MEMORY_START fb (.mapped fb.map) clip
        w = .ok 0 w' ∧
      w'.wire = w.wire ++ commandFrame 0x2C
        (bigEndianBytes
          ((fb.flushPixels clip w).map (sentPixel spi))) := by
  rcases flush_source hEnv.kmalloc
      (mipiDbiSpiInit spi true writeOnly)
      MIPI_DCS_WRITE_MEMORY_START hMem hSize hInside with
    ⟨p, s, hRun, hQuiet, hSame, hSource, hPixels⟩
  rcases regmapRawWrite_pixels hEnv spi writeOnly
      (hReady.of_same hSame.fbs hSame.bufFd hSame.txBuf
        hSame.mspiTxBuf) hSource with ⟨w', hWrite, hWire⟩
  refine ⟨w', hRun.trans hWrite, ?_⟩
  rw [hWire, hQuiet.wire, hPixels]

/- What follows the column command. -/
theorem mipiDbiFbFlush_page
    (mipi : MipiDbi)
    (hMspi : mipi.mspi = mipiDbiSpiInit spi true writeOnly) :
    ∃ w', (mipiDbiWriteBuf env mipi.mspi
          MIPI_DCS_SET_PAGE_ADDRESS (pageAddress clip) >>=
        fun _ => tinydrmRegmapFlushRgb565 env mipi.mspi
          MIPI_DCS_WRITE_MEMORY_START fb (.mapped fb.map) clip)
        w = .ok 0 w' ∧
      w'.wire = w.wire ++
        (commandFrame 0x2B (pageAddress clip) ++
          commandFrame 0x2C
            (bigEndianBytes
              ((fb.flushPixels clip w).map
                (sentPixel spi)))) ∧
      BusStep w w' ∧ Stays buf w w' := by
  have hBusStep := busContract_busStep env
  have hLarge := hReady.large
  rcases mipiDbiWriteBuf_frame hEnv spi writeOnly hReady
      0x2B (by decide) (pageAddress clip) with
    ⟨w₁, hPage, hWire₁⟩
  have hBus := (meets_mipiDbiWriteBuf hBusStep _ _ _ w).of_ok
    hPage
  have hStays := (meets_stays_mipiDbiWriteBuf hLarge rfl _ _
    w).of_ok hPage hReady.asked
  have hReady₁ := hReady.of_stays hBus hStays
  have hMem₁ : fb ∈ w₁.fbs := by rwa [hBus.fbs]
  rcases tinydrmRegmapFlushRgb565_wire hEnv spi writeOnly
      hReady₁ hMem₁ hSize hInside with ⟨w', hFlush, hWire⟩
  have hPixels := hInside.flushPixels_of_sameOutside hSize
    (hReady.apart fb hMem) hStays.memory
  refine ⟨w', ?_, ?_, ?_, ?_⟩
  · rw [hMspi]
    exact (Effect.bind_of_ok hPage).trans hFlush
  · rw [hWire, hWire₁, hPixels, List.append_assoc]
  · exact hBus.trans
      ((meets_tinydrmRegmapFlushRgb565 hBusStep _ _ _ _ _
        w₁).of_ok hFlush)
  · exact hStays.trans
      ((meets_stays_tinydrmRegmapFlushRgb565 hLarge rfl _ _ _ _
        w₁).of_ok hFlush hReady₁.asked)

/- The three frames of a flush, and what it leaves alone. -/
theorem mipiDbiFbFlush_wire
    (mipi : MipiDbi)
    (hMspi : mipi.mspi = mipiDbiSpiInit spi true writeOnly) :
    ∃ w', mipiDbiFbFlush env mipi fb clip w = .ok 0 w' ∧
      w'.wire = w.wire ++ clipFrames clip
        ((fb.flushPixels clip w).map (sentPixel spi)) ∧
      BusStep w w' ∧ Stays buf w w' := by
  rcases mipiDbiWriteBuf_frame hEnv spi writeOnly hReady
      0x2A (by decide) (columnAddress clip) with
    ⟨w₁, hColumn, hWire₁⟩
  have hBus := (meets_mipiDbiWriteBuf (busContract_busStep env)
    _ _ _ w).of_ok hColumn
  have hStays := (meets_stays_mipiDbiWriteBuf hReady.large rfl
    _ _ w).of_ok hColumn hReady.asked
  -- a column command stores nothing, and the rest is as before
  have hMem₁ : fb ∈ w₁.fbs := by rwa [hBus.fbs]
  have hPixels := hInside.flushPixels_of_sameOutside hSize
    (hReady.apart fb hMem) hStays.memory
  rcases mipiDbiFbFlush_page hEnv spi writeOnly
      (hReady.of_stays hBus hStays) hMem₁ hSize hInside mipi
      hMspi with ⟨w', hRest, hWire, hBus', hStays'⟩
  refine ⟨w', ?_, ?_, hBus.trans hBus', hStays.trans hStays'⟩
  · rw [mipiDbiFbFlush, hMspi]
    rw [hMspi] at hRest
    exact (Effect.bind_of_ok hColumn).trans hRest
  · rw [hWire, hWire₁, hPixels, List.append_assoc]
    rfl

end Flush

end Utinydrm

------------------------------------------------------------
-- The Window Of A Flush
------------------------------------------------------------

namespace Utinydrm

namespace DrmClipRect

/- The window the address commands of a clip select. -/
def window (clip : DrmClipRect) : Raster.Window where
  left := clip.x1.toNat
  right := bigEndian16 (hiByte clip.x2) (loByte (clip.x2 - 1))
  top := clip.y1.toNat
  bottom := bigEndian16 (hiByte clip.y2) (loByte (clip.y2 - 1))

/-
  The lines of the window are as long as those of the clip,
  or there is only one.
-/
def LinesFit (clip : DrmClipRect) : Prop :=
  clip.x2.toNat % 256 ≠ 0 ∨
    clip.y2.toNat = clip.y1.toNat + 1

instance (clip : DrmClipRect) : Decidable clip.LinesFit :=
  inferInstanceAs (Decidable (_ ∨ _))

end DrmClipRect

/- The end that is received is not before the one meant. -/
theorem bigEndian16_end_cases
    {x : UInt16} (hPos : 0 < x.toNat) :
    (x.toNat % 256 ≠ 0 ∧
      bigEndian16 (hiByte x) (loByte (x - 1)) =
        x.toNat - 1) ∨
    (x.toNat % 256 = 0 ∧
      x.toNat ≤ bigEndian16 (hiByte x) (loByte (x - 1))) := by
  by_cases hBorrow : x.toNat % 256 = 0
  case neg =>
    exact Or.inl ⟨hBorrow,
      (bigEndian16_end_iff hPos).mpr hBorrow⟩
  case pos =>
    refine Or.inr ⟨hBorrow, ?_⟩
    rw [bigEndian16, hiByte_toNat]
    omega

namespace DrmClipRect

variable {clip : DrmClipRect}

/- The window has room for the pixels of the clip. -/
theorem window_bounds
    (hNonempty : clip.Nonempty) :
    clip.width ≤ clip.window.width ∧
      clip.height ≤ clip.window.height := by
  have hLeft := hNonempty.1
  have hTop := hNonempty.2
  have hRight := bigEndian16_end_cases (x := clip.x2) (by omega)
  have hBottom := bigEndian16_end_cases (x := clip.y2)
    (by omega)
  unfold width height Raster.Window.width Raster.Window.height
    window
  dsimp only
  omega

/- Its lines are as long if no byte borrows. -/
theorem window_width
    (hNonempty : clip.Nonempty)
    (hExact : clip.x2.toNat % 256 ≠ 0) :
    clip.window.width = clip.width := by
  have hLeft := hNonempty.1
  have hRight := bigEndian16_end_cases (x := clip.x2) (by omega)
  unfold width Raster.Window.width window
  dsimp only
  omega

/- The first pixels of the window are those of the clip. -/
theorem window_index
    (hFit : clip.LinesFit) (hNonempty : clip.Nonempty)
    {x y : Nat} (hHolds : clip.Holds x y) :
    clip.window.Holds x y ∧
      clip.window.index x y = clip.index x y := by
  rcases hHolds with ⟨⟨hLeft, hRight⟩, hTop, hBottom⟩
  rcases window_bounds hNonempty with ⟨hWide, hHigh⟩
  constructor
  · simp only [width, height, Raster.Window.width,
      Raster.Window.height, window] at hWide hHigh
    simp only [Raster.Window.Holds, window]
    omega
  · rcases hFit with hExact | hOne
    · rw [Raster.Window.index, window_width hNonempty hExact]
      rfl
    · have hLine : y - clip.y1.toNat = 0 := by omega
      rw [Raster.Window.index, index]
      simp [window, hLine]

/- No other pixel of the window is reached. -/
theorem holds_of_window_index
    (hFit : clip.LinesFit) (hNonempty : clip.Nonempty)
    {x y : Nat} (hHolds : clip.window.Holds x y)
    (hIndex : clip.window.index x y <
      clip.width * clip.height) :
    clip.Holds x y := by
  rcases hHolds with ⟨⟨hLeft, hRight⟩, hTop, _⟩
  change clip.x1.toNat ≤ x at hLeft
  change clip.y1.toNat ≤ y at hTop
  have hHeight : clip.y1.toNat + clip.height =
      clip.y2.toNat := by
    have hLines := hNonempty.2
    unfold height
    omega
  have hPlace : (y - clip.y1.toNat) * clip.window.width +
      (x - clip.x1.toNat) < clip.width * clip.height := hIndex
  rcases window_bounds hNonempty with ⟨hWide, _⟩
  have hColumns : 0 < clip.width := by
    have hColumn := hNonempty.1
    unfold width
    omega
  -- the line of the pixel is one of the clip
  have hLine : y - clip.y1.toNat < clip.height := by
    by_contra hNot
    have hMore := Nat.mul_le_mul (Nat.le_of_not_lt hNot) hWide
    rw [Nat.mul_comm clip.height] at hMore
    omega
  refine ⟨⟨hLeft, ?_⟩, hTop, by omega⟩
  rcases hFit with hExact | hOne
  · have hWindow := window_width hNonempty hExact
    unfold Raster.Window.width window width at hWindow
    unfold window at hRight
    dsimp only at hWindow hRight
    omega
  · have hSingle : clip.height = 1 := by omega
    have hFirst : y - clip.y1.toNat = 0 := by omega
    rw [hFirst, hSingle, Nat.zero_mul, Nat.zero_add,
      Nat.mul_one] at hPlace
    unfold width at hPlace
    omega

/- With lines that are too long a pixel beside it is. -/
theorem window_beside
    (hNonempty : clip.Nonempty) (hNot : ¬ clip.LinesFit) :
    clip.window.Holds clip.x2.toNat clip.y1.toNat ∧
      clip.window.index clip.x2.toNat clip.y1.toNat <
        clip.width * clip.height := by
  unfold LinesFit at hNot
  rw [not_or, not_not] at hNot
  rcases hNot with ⟨hBorrow, hMany⟩
  have hLeft := hNonempty.1
  have hTop := hNonempty.2
  have hRight := bigEndian16_end_cases (x := clip.x2) (by omega)
  have hBottom := bigEndian16_end_cases (x := clip.y2)
    (by omega)
  constructor
  · unfold Raster.Window.Holds window
    dsimp only
    omega
  · have hTwo : 2 ≤ clip.height := by
      unfold height
      omega
    have hPlace : clip.window.index clip.x2.toNat
        clip.y1.toNat = clip.width := by
      simp [Raster.Window.index, window, width]
    have hColumns : 0 < clip.width := by
      unfold width
      omega
    rw [hPlace]
    exact lt_mul_of_one_lt_right hColumns hTwo

end DrmClipRect

end Utinydrm

------------------------------------------------------------
-- What The Panel Shows
------------------------------------------------------------

namespace Utinydrm

variable {env : Env}
variable {fb : UtinydrmFb} {clip : DrmClipRect}

/- What the three frames of a flush make of a picture. -/
theorem Panel.run_flush
    (panel : Panel) (clip : DrmClipRect)
    (pixels : List UInt16) :
    (panel.run (clipFrames clip pixels)).picture =
      Raster.fill clip.window clip.window.home panel.picture
        pixels := by
  let panel₁ :=
    panel.run (commandFrame 0x2A (columnAddress clip))
  let panel₂ := panel₁.run (commandFrame 0x2B (pageAddress clip))
  have hColumn := panel.run_command 0x2A (by decide)
    (columnAddress clip) (le_refl _)
  have hPage := panel₁.run_command 0x2B (by decide)
    (pageAddress clip) (le_refl _)
  have hWindow : panel₂.window.raster = clip.window := by
    have hBoth : panel₂.window = (fbWindow clip).foldl
        AddressWindow.receive panel.window := by
      rw [hPage.1, hColumn.1]
      rfl
    rw [hBoth, receive_fbWindow]
    rfl
  have hPicture : panel₂.picture = panel.picture :=
    hPage.2.trans hColumn.2
  rw [clipFrames, Panel.run_append, Panel.run_append,
    (Panel.run_memoryWrite panel₂ pixels).2, hWindow, hPicture]

/-
  Some frames store their pixels one after another from the
  first pixel of the window on.
-/
theorem picture_of_clipFrames
    (hNonempty : clip.Nonempty) {pixels : List UInt16}
    (hRoom : pixels.length ≤ clip.width * clip.height)
    (panel : Panel) (x y : Nat) :
    (panel.run (clipFrames clip pixels)).picture x y =
      if clip.window.Holds x y then
        pixels.getD (clip.window.index x y)
          (panel.picture x y)
      else
        panel.picture x y := by
  rcases DrmClipRect.window_bounds hNonempty with
    ⟨hWide, hHigh⟩
  rw [Panel.run_flush]
  exact Raster.fill_home _ _
    (hRoom.trans (Nat.mul_le_mul hWide hHigh)) x y

/- Those of a flush store what was read for its places. -/
theorem picture_of_frames
    (fb : UtinydrmFb) (arrives : UInt16 → UInt16) (w : World)
    (hNonempty : clip.Nonempty)
    (panel : Panel) (x y : Nat) :
    (panel.run
      (clipFrames clip
        ((fb.flushPixels clip w).map arrives))).picture x y =
      if clip.window.Holds x y ∧
          clip.window.index x y < clip.width * clip.height then
        arrives (fb.pixelAt w
          (fb.flushStart clip +
            clip.window.index x y * fb.cpp))
      else
        panel.picture x y := by
  rw [picture_of_clipFrames hNonempty (by simp)]
  by_cases hHolds : clip.window.Holds x y
  case neg => simp [hHolds]
  case pos =>
    by_cases hIndex : clip.window.index x y <
        clip.width * clip.height
    · simp [hHolds, hIndex, UtinydrmFb.flushPixels]
    · rw [if_pos hHolds, if_neg fun h => hIndex h.2,
        List.getD_eq_default _ _ (by simpa using hIndex)]

/-
  What a panel shows is changed to the pixels of the clip, as
  they arrive, and nowhere else.
-/
structure ClipShown
    (fb : UtinydrmFb) (arrives : UInt16 → UInt16)
    (clip : DrmClipRect) (w : World)
    (before after : Raster.Picture UInt16) : Prop where
  inside : ∀ x y, clip.Holds x y →
    after x y = arrives (fb.pixelAt w (fb.storedAt x y))
  rest : ∀ x y, ¬ clip.Holds x y → after x y = before x y

/-
  When the lines fit the panel shows what was read for each
  pixel of the clip.
-/
theorem picture_of_frames_fit
    (fb : UtinydrmFb) (arrives : UInt16 → UInt16) (w : World)
    (hNonempty : clip.Nonempty) (hFit : clip.LinesFit)
    (panel : Panel) :
    (∀ x y, clip.Holds x y →
      (panel.run
        (clipFrames clip
          ((fb.flushPixels clip w).map arrives))).picture x y =
        arrives (fb.pixelAt w (fb.readAt clip x y))) ∧
    ∀ x y, ¬ clip.Holds x y →
      (panel.run
        (clipFrames clip
          ((fb.flushPixels clip w).map arrives))).picture x y =
        panel.picture x y := by
  constructor
  · intro x y hHolds
    rcases DrmClipRect.window_index hFit hNonempty hHolds
      with ⟨hWindow, hIndex⟩
    have hLess := DrmClipRect.index_lt hHolds
    rw [picture_of_frames fb arrives w hNonempty, hIndex,
      if_pos ⟨hWindow, hLess⟩, UtinydrmFb.readAt,
      UtinydrmFb.flushStart, ← Nat.add_mul,
      DrmClipRect.start_add_index hHolds]
  · intro x y hNot
    rw [picture_of_frames fb arrives w hNonempty, if_neg]
    rintro ⟨hWindow, hIndex⟩
    exact hNot (DrmClipRect.holds_of_window_index hFit
      hNonempty hWindow hIndex)

end Utinydrm

------------------------------------------------------------
-- When The Clip Is Shown
------------------------------------------------------------

namespace Utinydrm

variable {env : Env}
variable {fb : UtinydrmFb} {clip : DrmClipRect}

/- A panel of one colour. -/
def Panel.plain (colour : UInt16) : Panel where
  cmd := 0
  parameters := []
  window := ⟨0, 0, 0, 0⟩
  cursor := ⟨0, 0⟩
  picture := fun _ _ => colour

/- So it shows the clip if that is what is stored there. -/
theorem clipShown_of_fit
    (arrives : UInt16 → UInt16) (w : World)
    (hNonempty : clip.Nonempty)
    (hEqual : ∀ x y, clip.Holds x y →
      fb.readAt clip x y = fb.storedAt x y)
    (hFit : clip.LinesFit) (panel : Panel) :
    ClipShown fb arrives clip w panel.picture
      (panel.run (clipFrames clip
        ((fb.flushPixels clip w).map arrives))).picture := by
  rcases picture_of_frames_fit fb arrives w hNonempty hFit
      panel with ⟨hClip, hRest⟩
  refine ⟨?_, hRest⟩
  intro x y hHolds
  rw [hClip x y hHolds, hEqual x y hHolds]

/-
  The frames of a flush show the clip, whatever the
  framebuffer holds and whatever the panel showed, if and
  only if what is read is what is stored for the clip and
  the lines fit.
-/
theorem frames_show_clip_iff
    {arrives : UInt16 → UInt16}
    (hInjective : Function.Injective arrives)
    (hInside : ClipInside fb clip) (w : World) :
    (∀ (mem : Nat → UInt8) (panel : Panel),
      ClipShown fb arrives clip { w with mem := mem }
        panel.picture
        (panel.run (clipFrames clip
          ((fb.flushPixels clip { w with mem := mem }).map
            arrives))).picture) ↔
      (clip.x1.toNat = 0 ∧
        (clip.x2.toNat * fb.cpp = fb.pitch.toNat ∨
          clip.y2.toNat = 1)) ∧
      clip.LinesFit := by
  rw [← readAt_eq_storedAt_iff hInside]
  constructor
  · intro hAll
    have hFit : clip.LinesFit := by
      by_contra hNot
      rcases DrmClipRect.window_beside hInside.nonempty hNot
        with ⟨hWindow, hIndex⟩
      have hBeside : ¬ clip.Holds clip.x2.toNat
          clip.y1.toNat := fun h => by
        have hRight := h.1.2
        omega
      -- two panels show the same there, and what they showed
      have hKept : ∀ colour : UInt16,
          arrives (fb.pixelAt w
            (fb.flushStart clip +
              clip.window.index clip.x2.toNat clip.y1.toNat *
                fb.cpp)) = colour := by
        intro colour
        have hShows := (hAll w.mem (.plain colour)).rest _ _
          hBeside
        rwa [picture_of_frames fb arrives _ hInside.nonempty,
          if_pos ⟨hWindow, hIndex⟩] at hShows
      have hSame : (0 : UInt16) = 1 :=
        (hKept 0).symm.trans (hKept 1)
      exact absurd hSame (by decide)
    refine ⟨?_, hFit⟩
    intro x y hHolds
    by_contra hNe
    have hLess := lt_of_le_of_ne
      (readAt_le_storedAt hInside x y) hNe
    rcases exists_mem_pixelAt_ne fb w hLess with ⟨mem, hPixel⟩
    have hRead := (picture_of_frames_fit fb arrives
      { w with mem := mem } hInside.nonempty hFit
      (.plain 0)).1 x y hHolds
    have hStored := (hAll mem (.plain 0)).inside x y hHolds
    rw [hRead] at hStored
    exact hPixel (hInjective hStored)
  · rintro ⟨hEqual, hFit⟩ mem panel
    exact clipShown_of_fit arrives _ hInside.nonempty hEqual
      hFit panel

/- The device of `main`, and a screen of it that is mapped. -/
def screenWorld : World :=
  { World.atProbe (-1) with
    fbs := [.display]
    txBuf := .valid .granted
    mspiTxBuf := some UdmaBuf.granted.map }

theorem delivers_granting : Env.granting.Delivers :=
  ⟨fun _ => rfl, fun _ => rfl, fun _ => rfl⟩

end Utinydrm
