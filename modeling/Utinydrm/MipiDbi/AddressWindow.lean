import Utinydrm.MipiDbi.Pipe

/-
  The window of the panel's memory that the two address
  commands of a flush select.

  The end of a range is sent as the high byte of one number
  and the low byte of the number before it, which belong
  together unless the end is a multiple of 256.

  Key definitions include:
    * `AddressWindow.receive`
    * `AddressWindow.Exact`
    * `fbWindow`

  Main declarations:
    * `mipiDbiFbFlush_eq`
    * `window_exact_iff`
-/

------------------------------------------------------------
-- The Panel
------------------------------------------------------------

namespace Utinydrm

/-
  The address registers of a panel: the first and the last
  column, and the first and the last page.
-/
structure AddressWindow where
  sc : Nat
  ec : Nat
  sp : Nat
  ep : Nat
deriving DecidableEq, Repr

/- A parameter of 16 bits, its high byte first. -/
def bigEndian16 (hi lo : UInt8) : Nat :=
  hi.toNat * 256 + lo.toNat

namespace AddressWindow

/- What a command with its parameters does to them. -/
def receive
    (window : AddressWindow) :
    Nat × List UInt8 → AddressWindow
| (cmd, [a, b, c, d]) =>
    if cmd = MIPI_DCS_SET_COLUMN_ADDRESS then
      { window with sc := bigEndian16 a b, ec := bigEndian16 c d }
    else if cmd = MIPI_DCS_SET_PAGE_ADDRESS then
      { window with sp := bigEndian16 a b, ep := bigEndian16 c d }
    else
      window
| _ => window

/- The pixels of the window. -/
def numPixels (window : AddressWindow) : Nat :=
  (window.ec + 1 - window.sc) * (window.ep + 1 - window.sp)

/- The window is the clip, and holds as many pixels. -/
def Exact (window : AddressWindow) (clip : DrmClipRect) :
    Prop :=
  window = ⟨clip.x1.toNat, clip.x2.toNat - 1,
      clip.y1.toNat, clip.y2.toNat - 1⟩ ∧
    window.numPixels =
      (clip.x2.toNat - clip.x1.toNat) *
        (clip.y2.toNat - clip.y1.toNat)

end AddressWindow

end Utinydrm

------------------------------------------------------------
-- The Commands Of A Flush
------------------------------------------------------------

namespace Utinydrm

/- The commands sent before the memory write. -/
def fbWindow (clip : DrmClipRect) : List (Nat × List UInt8) :=
  [(MIPI_DCS_SET_COLUMN_ADDRESS, columnAddress clip),
    (MIPI_DCS_SET_PAGE_ADDRESS, pageAddress clip)]

theorem mipiDbiFbFlush_eq
    (env : Env) (mipi : MipiDbi) (fb : UtinydrmFb)
    (clip : DrmClipRect) :
    mipiDbiFbFlush env mipi fb clip = (do
      writeCommands env mipi.mspi (fbWindow clip)
      tinydrmRegmapFlushRgb565 env mipi.mspi
        MIPI_DCS_WRITE_MEMORY_START fb (.mapped fb.map)
        clip) := by
  simp [mipiDbiFbFlush, fbWindow, writeCommands]

end Utinydrm

------------------------------------------------------------
-- Coordinates
------------------------------------------------------------

namespace Utinydrm

theorem hiByte_toNat (x : UInt16) :
    (hiByte x).toNat = x.toNat / 256 := by
  have hBound := x.toNat_lt
  simp [hiByte, Nat.shiftRight_eq_div_pow]
  omega

theorem loByte_toNat (x : UInt16) :
    (loByte x).toNat = x.toNat % 256 := by
  simp [loByte]

/- The first coordinate of a range is sent as it is. -/
theorem bigEndian16_start (x : UInt16) :
    bigEndian16 (hiByte x) (loByte x) = x.toNat := by
  rw [bigEndian16, hiByte_toNat, loByte_toNat]
  omega

/- The last one is unless the low byte borrows. -/
theorem bigEndian16_end_iff
    {x : UInt16} (hPos : 0 < x.toNat) :
    bigEndian16 (hiByte x) (loByte (x - 1)) = x.toNat - 1 ↔
      x.toNat % 256 ≠ 0 := by
  have hOne : (1 : UInt16) ≤ x := by
    rw [UInt16.le_iff_toNat_le]
    exact hPos
  have hPred : (x - 1).toNat = x.toNat - 1 :=
    UInt16.toNat_sub_of_le x 1 hOne
  rw [bigEndian16, hiByte_toNat, loByte_toNat, hPred]
  omega

end Utinydrm

------------------------------------------------------------
-- The Window
------------------------------------------------------------

namespace Utinydrm

/- The window the commands select. -/
theorem receive_fbWindow
    (clip : DrmClipRect) (window : AddressWindow) :
    (fbWindow clip).foldl AddressWindow.receive window =
      { sc := clip.x1.toNat
        ec := bigEndian16 (hiByte clip.x2)
          (loByte (clip.x2 - 1))
        sp := clip.y1.toNat
        ep := bigEndian16 (hiByte clip.y2)
          (loByte (clip.y2 - 1)) } := by
  rw [← bigEndian16_start clip.x1, ← bigEndian16_start clip.y1]
  rfl

/- An exact window holds the pixels of the clip. -/
theorem numPixels_clip
    {clip : DrmClipRect}
    (hX : clip.x1.toNat < clip.x2.toNat)
    (hY : clip.y1.toNat < clip.y2.toNat) :
    AddressWindow.numPixels ⟨clip.x1.toNat, clip.x2.toNat - 1,
        clip.y1.toNat, clip.y2.toNat - 1⟩ =
      (clip.x2.toNat - clip.x1.toNat) *
        (clip.y2.toNat - clip.y1.toNat) := by
  have hWidth : clip.x2.toNat - 1 + 1 = clip.x2.toNat := by
    omega
  have hHeight : clip.y2.toNat - 1 + 1 = clip.y2.toNat := by
    omega
  simp only [AddressWindow.numPixels, hWidth, hHeight]

theorem exact_fbWindow_iff
    {clip : DrmClipRect}
    (hX : clip.x1.toNat < clip.x2.toNat)
    (hY : clip.y1.toNat < clip.y2.toNat)
    (window : AddressWindow) :
    ((fbWindow clip).foldl AddressWindow.receive
        window).Exact clip ↔
      clip.x2.toNat % 256 ≠ 0 ∧ clip.y2.toNat % 256 ≠ 0 := by
  rw [receive_fbWindow, ← bigEndian16_end_iff (by omega),
    ← bigEndian16_end_iff (by omega)]
  unfold AddressWindow.Exact
  constructor
  · rintro ⟨hWindow, _⟩
    injection hWindow with _ hEc _ hEp
    exact ⟨hEc, hEp⟩
  · rintro ⟨hEc, hEp⟩
    rw [hEc, hEp]
    exact ⟨rfl, numPixels_clip hX hY⟩

/-
  A flush sends the two address commands and then the memory
  write. They select exactly the clip if and only if neither
  of its ends is a multiple of 256.
-/
theorem window_exact_iff
    (clip : DrmClipRect)
    (hX : clip.x1.toNat < clip.x2.toNat)
    (hY : clip.y1.toNat < clip.y2.toNat)
    (window : AddressWindow) :
    (∀ (env : Env) (mipi : MipiDbi) (fb : UtinydrmFb),
      mipiDbiFbFlush env mipi fb clip = (do
        writeCommands env mipi.mspi (fbWindow clip)
        tinydrmRegmapFlushRgb565 env mipi.mspi
          MIPI_DCS_WRITE_MEMORY_START fb (.mapped fb.map)
          clip)) ∧
    (((fbWindow clip).foldl AddressWindow.receive
        window).Exact clip ↔
      clip.x2.toNat % 256 ≠ 0 ∧ clip.y2.toNat % 256 ≠ 0) :=
  ⟨fun env mipi fb => mipiDbiFbFlush_eq env mipi fb clip,
    exact_fbWindow_iff hX hY window⟩

/- A clip of the screen of `main` that ends at 319 and 239. -/
theorem window_exact_partial :
    ((fbWindow ⟨0, 0, 319, 239⟩).foldl AddressWindow.receive
      ⟨0, 0, 0, 0⟩).Exact ⟨0, 0, 319, 239⟩ :=
  (window_exact_iff ⟨0, 0, 319, 239⟩ (by decide) (by decide)
    ⟨0, 0, 0, 0⟩).2.mpr (by decide)

/- A clip that ends at column 256 selects one up to 511. -/
theorem window_column_256 :
    ¬ ∀ (clip : DrmClipRect) (window : AddressWindow),
      clip.x1.toNat < clip.x2.toNat →
      clip.y1.toNat < clip.y2.toNat →
      ((fbWindow clip).foldl AddressWindow.receive
        window).Exact clip := by
  intro hClaim
  have hWindow := hClaim ⟨0, 0, 256, 240⟩ ⟨0, 0, 0, 0⟩
    (by decide) (by decide)
  rw [exact_fbWindow_iff (by decide) (by decide)] at hWindow
  revert hWindow
  decide

end Utinydrm
