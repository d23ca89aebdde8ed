import Utinydrm.Event.PanelMirror
import Utinydrm.MipiDbi.SerialPanel

/-
  What a flush makes the panel show over option 1, from a
  controller without words of 9 bits.

  The pixels arrive as they are in memory, but the last one
  of them is lost when two or three pixels are left for the
  last message.

  Key definitions include:
    * `ShowsClipSerially`

  Main declarations:
    * `mipiDbiFbFlush_serial`
    * `picture_of_lost`
    * `flush_shows_clip_serially_iff`
-/

------------------------------------------------------------
-- The Frames Of A Flush
------------------------------------------------------------

namespace Utinydrm

variable {env : Env} {fb : UtinydrmFb} {clip : DrmClipRect}

/- The pixels of a flush that arrive. -/
def UtinydrmFb.serialPixels
    (fb : UtinydrmFb) (spi : SpiDevice)
    (clip : DrmClipRect) (w : World) : List UInt16 :=
  (fb.flushPixels clip w).take
    (pixelsTaken spi (clip.width * clip.height))

section Flush

variable (hEnv : env.Delivers)
variable (spi : SpiDevice) (writeOnly : Bool)
variable (hNine : tinydrmSpiBpwSupported spi 9 = false)
variable (hRoom : 9 ≤ mipiDbiSpiClampSize spi 4096)
variable {w : World} (hTx : w.TxOk)
variable (hMem : fb ∈ w.fbs)
variable (hSize : fb.mapSize.toNat =
  fb.height.toNat * fb.pitch.toNat)
variable (hInside : ClipInside fb clip)

include hEnv hNine hRoom hTx hMem hSize hInside

/- The memory write of a flush. -/
theorem tinydrmRegmapFlushRgb565_serial :
    ∃ w' sent, tinydrmRegmapFlushRgb565 env
        (mipiDbiSpiInit spi false writeOnly)
        MIPI_DCS_WRITE_MEMORY_START fb (.mapped fb.map) clip
        w = .ok 0 w' ∧
      SerialStep w w' sent ∧
      Carries sent (commandFrame 0x2C
        (bigEndianBytes (fb.serialPixels spi clip w))) := by
  rcases flush_source hEnv.kmalloc
      (mipiDbiSpiInit spi false writeOnly)
      MIPI_DCS_WRITE_MEMORY_START hMem hSize hInside with
    ⟨p, s, hRun, hQuiet, hSame, _, hPixels⟩
  have hTx' : s.TxOk := by rwa [World.TxOk, hSame.txBuf]
  rcases regmapRawWrite_serial_pixels hEnv spi writeOnly hNine
      hRoom hTx' p (clip.width * clip.height) with
    ⟨w', k, hWrite, hStep⟩
  have hTaken : s.pixels p
      (pixelsTaken spi (clip.width * clip.height)) =
      fb.serialPixels spi clip w := by
    rw [UtinydrmFb.serialPixels, ← hPixels, World.pixels,
      World.pixels, ← List.map_take, List.take_range,
      Nat.min_eq_left (pixelsTaken_le _ _)]
  rw [hTaken] at hStep
  exact ⟨w', _, hRun.trans hWrite,
    (SerialStep.of_quiet hQuiet hSame).trans hStep,
    carries_padded k _ _⟩

/- The three frames of a flush. -/
theorem mipiDbiFbFlush_serial
    (mipi : MipiDbi)
    (hMspi : mipi.mspi = mipiDbiSpiInit spi false writeOnly) :
    ∃ w' sent, mipiDbiFbFlush env mipi fb clip w = .ok 0 w' ∧
      SerialStep w w' sent ∧
      Carries sent
        (clipFrames clip (fb.serialPixels spi clip w)) := by
  rcases mipiDbiWriteBuf_serial hEnv spi writeOnly hNine hRoom
      hTx 0x2A (by decide) (columnAddress clip) with
    ⟨w₁, n₁, hColumn, hStep₁⟩
  rcases mipiDbiWriteBuf_serial hEnv spi writeOnly hNine hRoom
      (hStep₁.txOk hTx) 0x2B (by decide) (pageAddress clip) with
    ⟨w₂, n₂, hPage, hStep₂⟩
  have hSteps := hStep₁.trans hStep₂
  have hMem₂ : fb ∈ w₂.fbs := by rwa [hSteps.bus.fbs]
  rcases tinydrmRegmapFlushRgb565_serial hEnv spi writeOnly
      hNine hRoom (hSteps.txOk hTx) hMem₂ hSize hInside with
    ⟨w', sent, hFlush, hStep, hCarries⟩
  have hPixels : fb.serialPixels spi clip w₂ =
      fb.serialPixels spi clip w := by
    unfold UtinydrmFb.serialPixels UtinydrmFb.flushPixels
    congr 1
    apply List.map_congr_left
    intro k _
    exact UtinydrmFb.pixelAt_congr fun i _ => by
      rw [hSteps.bus.mem]
  rw [hPixels] at hCarries
  refine ⟨w', _, ?_, hStep₁.trans (hStep₂.trans hStep),
    (carries_padded n₁ _ _).append
      ((carries_padded n₂ _ _).append hCarries)⟩
  rw [mipiDbiFbFlush, hMspi]
  exact (Effect.bind_of_ok hColumn).trans
    ((Effect.bind_of_ok hPage).trans hFlush)

end Flush

end Utinydrm

------------------------------------------------------------
-- A Lost Pixel
------------------------------------------------------------

namespace Utinydrm

variable {fb : UtinydrmFb} {clip : DrmClipRect}

/- Nothing is lost from any other number of pixels. -/
theorem serialPixels_of_whole
    {spi : SpiDevice}
    (hWhole : ¬ TailLost spi (clip.width * clip.height))
    (w : World) :
    fb.serialPixels spi clip w = fb.flushPixels clip w := by
  have hTaken : pixelsTaken spi (clip.width * clip.height) =
      clip.width * clip.height := if_neg hWhole
  rw [UtinydrmFb.serialPixels, hTaken,
    List.take_of_length_le (by simp)]

/- The last pixel of a clip is the last one of the window. -/
theorem DrmClipRect.last_index
    (hNonempty : clip.Nonempty) :
    clip.Holds (clip.x2.toNat - 1) (clip.y2.toNat - 1) ∧
      clip.width * clip.height - 1 ≤
        clip.window.index (clip.x2.toNat - 1)
          (clip.y2.toNat - 1) := by
  have hLeft := hNonempty.1
  have hTop := hNonempty.2
  rcases DrmClipRect.window_bounds hNonempty with ⟨hWide, _⟩
  refine ⟨⟨⟨by omega, by omega⟩, by omega, by omega⟩, ?_⟩
  obtain ⟨height, hHeight⟩ : ∃ n, clip.height = n + 1 :=
    ⟨clip.height - 1, by unfold height; omega⟩
  have hLine : clip.y2.toNat - 1 - clip.y1.toNat = height := by
    unfold DrmClipRect.height at hHeight
    omega
  have hColumn : clip.x2.toNat - 1 - clip.x1.toNat =
      clip.width - 1 := by
    unfold width
    omega
  have hLines : height * clip.width ≤
      height * clip.window.width :=
    Nat.mul_le_mul_left height hWide
  have hIndex : clip.window.index (clip.x2.toNat - 1)
      (clip.y2.toNat - 1) =
      (clip.y2.toNat - 1 - clip.y1.toNat) *
          clip.window.width +
        (clip.x2.toNat - 1 - clip.x1.toNat) := rfl
  rw [hIndex, hLine, hColumn, hHeight, Nat.mul_comm,
    Nat.succ_mul]
  omega

/- The panel goes on showing there what it showed. -/
theorem picture_of_lost
    {spi : SpiDevice} (w : World)
    (hNonempty : clip.Nonempty)
    (hLost : TailLost spi (clip.width * clip.height))
    (panel : Panel) :
    (panel.run (clipFrames clip
      (fb.serialPixels spi clip w))).picture
        (clip.x2.toNat - 1) (clip.y2.toNat - 1) =
      panel.picture (clip.x2.toNat - 1)
        (clip.y2.toNat - 1) := by
  have hTaken : pixelsTaken spi (clip.width * clip.height) =
      clip.width * clip.height - 1 := if_pos hLost
  have hLength : (fb.serialPixels spi clip w).length =
      clip.width * clip.height - 1 := by
    simp [UtinydrmFb.serialPixels, hTaken]
  have hLast := (DrmClipRect.last_index hNonempty).2
  rw [picture_of_clipFrames hNonempty (by omega),
    List.getD_eq_default _ _ (by omega), ite_self]

end Utinydrm

------------------------------------------------------------
-- Without Room For A Block
------------------------------------------------------------

namespace Utinydrm

variable {env : Env} {fb : UtinydrmFb} {clip : DrmClipRect}

section NoRoom

variable (env) (spi : SpiDevice) (writeOnly : Bool)
variable (hNine : tinydrmSpiBpwSupported spi 9 = false)
variable (hNoRoom : mipiDbiSpiClampSize spi 4096 < 9)

include hNine hNoRoom

/- Every write of the register map is refused. -/
theorem regmapRawWrite_noRoom
    (cmd : Nat) (val : Ptr) (len : Nat) (w : World) :
    ∃ w', regmapRawWrite env
        (mipiDbiSpiInit spi false writeOnly) cmd val len w =
      .ok (-EINVAL) w' ∧ World.SameBus w w' := by
  rcases regmapRawWrite_out env
      (mipiDbiSpiInit spi false writeOnly) cmd val len w with
    ⟨buf, p, hOut, _, _⟩
  have hRefused : busGatherWrite env
      (mipiDbiSpiInit spi false writeOnly) (.heap buf) 1
      (some p) len { w with workBuf := buf } =
      .ok (-EINVAL) { w with workBuf := buf } := by
    rw [busGatherWrite_serial]
    exact mipiDbiSpi1GatherWrite_refused
      (mipiDbiSpiInit spi false writeOnly) hNine hNoRoom _ _ _
      _
  refine ⟨{ w with workBuf := buf }, ?_,
    ⟨rfl, rfl, rfl, rfl, rfl, rfl⟩⟩
  rw [hOut, Effect.bind_of_ok hRefused, if_neg (by decide)]
  rfl

theorem mipiDbiWriteBuf_noRoom
    (hAlloc : ∀ n, env.kmalloc n = true)
    (cmd : Nat) (parameters : List UInt8) (w : World) :
    ∃ w', mipiDbiWriteBuf env
        (mipiDbiSpiInit spi false writeOnly) cmd parameters w =
          .ok (-EINVAL) w' ∧ World.SameBus w w' := by
  let s := w.record (.kmalloc (env.kmalloc w.now))
  have hAsked : World.SameBus w s :=
    (SerialStep.of_kmalloc w _).bus
  rcases regmapRawWrite_noRoom env spi writeOnly hNine hNoRoom
      cmd (.ofBytes parameters (env.garbage w.now))
      parameters.length s with ⟨w', hRun, hSame⟩
  refine ⟨w', ?_, hAsked.trans hSame⟩
  rw [mipiDbiWriteBuf, Effect.bind_of_ok (Effect.get_apply w),
    kmalloc_bind, if_pos (hAlloc _)]
  exact hRun

/- And so is a flush. -/
theorem mipiDbiFbFlush_noRoom
    (hAlloc : ∀ n, env.kmalloc n = true)
    (mipi : MipiDbi)
    (hMspi : mipi.mspi = mipiDbiSpiInit spi false writeOnly)
    {w : World} (hMem : fb ∈ w.fbs)
    (hSize : fb.mapSize.toNat =
      fb.height.toNat * fb.pitch.toNat)
    (hInside : ClipInside fb clip) :
    ∃ w', mipiDbiFbFlush env mipi fb clip w =
      .ok (-EINVAL) w' := by
  rcases mipiDbiWriteBuf_noRoom env spi writeOnly hNine hNoRoom
      hAlloc MIPI_DCS_SET_COLUMN_ADDRESS (columnAddress clip) w
    with ⟨w₁, hColumn, hSame₁⟩
  rcases mipiDbiWriteBuf_noRoom env spi writeOnly hNine hNoRoom
      hAlloc MIPI_DCS_SET_PAGE_ADDRESS (pageAddress clip) w₁
    with ⟨w₂, hPage, hSame₂⟩
  have hMem₂ : fb ∈ w₂.fbs := by
    rwa [(hSame₁.trans hSame₂).fbs]
  rcases flush_source hAlloc
      (mipiDbiSpiInit spi false writeOnly)
      MIPI_DCS_WRITE_MEMORY_START hMem₂ hSize hInside with
    ⟨p, s, hRun, _⟩
  rcases regmapRawWrite_noRoom env spi writeOnly hNine hNoRoom
      MIPI_DCS_WRITE_MEMORY_START p
      (2 * (clip.width * clip.height)) s with
    ⟨w', hWrite, _⟩
  refine ⟨w', ?_⟩
  rw [mipiDbiFbFlush, hMspi]
  exact (Effect.bind_of_ok hColumn).trans
    ((Effect.bind_of_ok hPage).trans (hRun.trans hWrite))

end NoRoom

end Utinydrm

------------------------------------------------------------
-- When The Clip Is Shown
------------------------------------------------------------

namespace Utinydrm

variable {env : Env} {fb : UtinydrmFb} {clip : DrmClipRect}

/-
  The flush returns zero, and the words it sends make the
  panel show the pixels of the clip and leave the rest of
  what it shows alone.
-/
def ShowsClipSerially
    (env : Env) (mipi : MipiDbi) (fb : UtinydrmFb)
    (clip : DrmClipRect) (w : World) (panel : Panel) : Prop :=
  ∃ w' sent, mipiDbiFbFlush env mipi fb clip w = .ok 0 w' ∧
    w'.serial = w.serial ++ sent ∧
    ClipShown fb id clip w panel.picture
      (panel.run sent).picture

/- What is sent is determined. -/
theorem showsClipSerially_iff
    {mipi : MipiDbi} {w w' : World} {panel : Panel}
    {sent frames : List (Bool × UInt8)}
    (hRun : mipiDbiFbFlush env mipi fb clip w = .ok 0 w')
    (hStep : SerialStep w w' sent)
    (hCarries : Carries sent frames) :
    ShowsClipSerially env mipi fb clip w panel ↔
      ClipShown fb id clip w panel.picture
        (panel.run frames).picture := by
  rw [← hCarries.picture]
  constructor
  · rintro ⟨s, sent', hRun', hSerial', hShown⟩
    cases hRun.symm.trans hRun'
    rw [hStep.serial] at hSerial'
    rwa [List.append_cancel_left hSerial']
  · intro hShown
    exact ⟨w', sent, hRun, hStep.serial, hShown⟩

/-
  Over option 1 a flush whose messages are delivered makes
  the panel show exactly its clip, whatever the framebuffer
  holds and whatever the panel showed, if and only if it
  would over option 3, the controller has room for a block,
  and not two or three pixels are left for the last message.
-/
theorem flush_shows_clip_serially_iff
    (env : Env) (hEnv : env.Delivers)
    (spi : SpiDevice) (writeOnly : Bool)
    (hNine : tinydrmSpiBpwSupported spi 9 = false)
    (mipi : MipiDbi)
    (hMspi : mipi.mspi = mipiDbiSpiInit spi false writeOnly)
    (w : World) (hTx : w.TxOk)
    (fb : UtinydrmFb) (hMem : fb ∈ w.fbs)
    (hSize : fb.mapSize.toNat =
      fb.height.toNat * fb.pitch.toNat)
    (clip : DrmClipRect) (hInside : ClipInside fb clip) :
    (∀ mem panel, ShowsClipSerially env mipi fb clip
      { w with mem := mem } panel) ↔
      9 ≤ mipiDbiSpiClampSize spi 4096 ∧
      ¬ TailLost spi (clip.width * clip.height) ∧
      (clip.x1.toNat = 0 ∧
        (clip.x2.toNat * fb.cpp = fb.pitch.toNat ∨
          clip.y2.toNat = 1)) ∧
      clip.LinesFit := by
  by_cases hRoom : 9 ≤ mipiDbiSpiClampSize spi 4096
  case neg =>
    refine iff_of_false ?_ fun h => hRoom h.1
    intro hAll
    rcases hAll w.mem (.plain 0) with ⟨w', _, hRun, _⟩
    rcases mipiDbiFbFlush_noRoom env spi writeOnly hNine
        (by omega) hEnv.kmalloc mipi hMspi
        (w := { w with mem := w.mem }) hMem hSize hInside with
      ⟨w₂, hRefused⟩
    cases hRun.symm.trans hRefused
  case pos =>
  have hFrames : ∀ mem panel,
      ShowsClipSerially env mipi fb clip { w with mem := mem }
        panel ↔
      ClipShown fb id clip { w with mem := mem } panel.picture
        (panel.run (clipFrames clip
          (fb.serialPixels spi clip
            { w with mem := mem }))).picture := by
    intro mem panel
    rcases mipiDbiFbFlush_serial hEnv spi writeOnly hNine hRoom
        (w := { w with mem := mem }) hTx hMem hSize hInside mipi
        hMspi with ⟨w', sent, hRun, hStep, hCarries⟩
    exact showsClipSerially_iff hRun hStep hCarries
  simp only [hFrames]
  by_cases hLost : TailLost spi (clip.width * clip.height)
  case pos =>
    refine iff_of_false ?_ fun h => h.2.1 hLost
    intro hAll
    -- two panels show the same there, and what they showed
    have hKept : ∀ colour : UInt16,
        fb.pixelAt w (fb.storedAt (clip.x2.toNat - 1)
          (clip.y2.toNat - 1)) = colour := by
      intro colour
      have hShown := (hAll w.mem (.plain colour)).inside _ _
        (DrmClipRect.last_index hInside.nonempty).1
      rw [picture_of_lost _ hInside.nonempty hLost] at hShown
      exact hShown.symm
    exact absurd ((hKept 0).symm.trans (hKept 1)) (by decide)
  case neg =>
    have hShows := frames_show_clip_iff Function.injective_id
      hInside w
    simp only [List.map_id] at hShows
    simp only [serialPixels_of_whole hLost]
    rw [hShows]
    exact ⟨fun h => ⟨hRoom, hLost, h⟩, fun h => h.2.2⟩

/- Some whole lines, whatever the panel showed. -/
theorem flush_shows_clip_serially_lines :
    ShowsClipSerially Env.granting
      (mi0283qtProbe mainSpi false true true false) .display
      ⟨0, 100, 320, 140⟩ screenWorld (.plain 0) :=
  (flush_shows_clip_serially_iff Env.granting delivers_granting
    mainSpi false rfl
    (mi0283qtProbe mainSpi false true true false) rfl
    screenWorld (World.txOk_of_valid rfl) .display
    (List.mem_singleton.mpr rfl) rfl ⟨0, 100, 320, 140⟩
    { format := Or.inl rfl
      pitch := by decide
      bytes := by decide
      nonempty := by decide
      inside := by decide }).mpr (by decide)
    screenWorld.mem (.plain 0)

end Utinydrm
