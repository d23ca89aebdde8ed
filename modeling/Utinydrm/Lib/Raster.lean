import Mathlib.Data.List.Basic
import Mathlib.Logic.Function.Basic

/-
  Pixels stored through a cursor that walks over a window of
  a picture line by line, as display controllers do.

  Key definitions include:
    * `Raster.Window`, its `place`s and its `index`
    * `Raster.Window.next`
    * `Raster.fill`

  Main declarations:
    * `Raster.Window.next_place`
    * `Raster.Window.place_eq_iff`
    * `Raster.fill_home`
-/

------------------------------------------------------------
-- Windows
------------------------------------------------------------

namespace Raster

/- A column and a line of the picture. -/
structure Cursor where
  x : Nat
  y : Nat
deriving DecidableEq, Repr

/- The columns and lines between two, the last ones included. -/
structure Window where
  left : Nat
  right : Nat
  top : Nat
  bottom : Nat
deriving DecidableEq, Repr

namespace Window

def width (window : Window) : Nat :=
  window.right + 1 - window.left

def height (window : Window) : Nat :=
  window.bottom + 1 - window.top

/- The pixel lies in the window. -/
def Holds (window : Window) (x y : Nat) : Prop :=
  (window.left ≤ x ∧ x ≤ window.right) ∧
    window.top ≤ y ∧ y ≤ window.bottom

instance (window : Window) (x y : Nat) :
    Decidable (window.Holds x y) :=
  inferInstanceAs (Decidable ((_ ∧ _) ∧ _ ∧ _))

/- The first pixel of the window. -/
def home (window : Window) : Cursor :=
  ⟨window.left, window.top⟩

/-
  The pixel after one: the next of the line, else the first
  of the next line, and behind the last one the first again.
-/
def next (window : Window) (c : Cursor) : Cursor :=
  if c.x < window.right then
    ⟨c.x + 1, c.y⟩
  else if c.y < window.bottom then
    ⟨window.left, c.y + 1⟩
  else
    window.home

/- The pixel that is reached after `k` steps. -/
def place (window : Window) (k : Nat) : Cursor :=
  ⟨window.left + k % window.width,
    window.top + k / window.width⟩

/- The number of steps to a pixel. -/
def index (window : Window) (x y : Nat) : Nat :=
  (y - window.top) * window.width + (x - window.left)

end Window

end Raster

------------------------------------------------------------
-- Walking
------------------------------------------------------------

namespace Raster

namespace Window

variable {window : Window}

@[simp] theorem place_zero : window.place 0 = window.home := by
  simp [place, home]

/- Inside the window the cursor goes from place to place. -/
theorem next_place
    {k : Nat}
    (hInside : k + 1 < window.width * window.height) :
    window.next (window.place k) = window.place (k + 1) := by
  have hWide : 0 < window.width := by
    rcases Nat.eq_zero_or_pos window.width with hZero | hPos
    · rw [hZero, Nat.zero_mul] at hInside
      omega
    · exact hPos
  have hColumn := Nat.mod_lt k hWide
  have hSplit := Nat.div_add_mod k window.width
  have hWidth : window.left + window.width =
      window.right + 1 := by
    unfold width at hWide ⊢
    omega
  unfold next place
  by_cases hLast : k % window.width + 1 < window.width
  · -- the line goes on
    have hSame := Nat.div_mod_unique hWide (a := k + 1)
      (d := k / window.width) (c := k % window.width + 1)
    rcases hSame.mpr ⟨by omega, hLast⟩ with ⟨hDiv, hMod⟩
    rw [if_pos (by dsimp only; omega), hDiv, hMod]
    simp [Nat.add_assoc]
  · -- the first pixel of the next line
    have hSame := Nat.div_mod_unique hWide (a := k + 1)
      (d := k / window.width + 1) (c := 0)
    have hNext : window.width * (k / window.width + 1) =
        k + 1 := by
      rw [Nat.mul_add]
      omega
    rcases hSame.mpr ⟨by omega, hWide⟩ with ⟨hDiv, hMod⟩
    have hLine : k / window.width + 1 < window.height := by
      rw [← hNext] at hInside
      exact Nat.lt_of_mul_lt_mul_left hInside
    have hBelow : window.top + k / window.width <
        window.bottom := by
      unfold height at hLine
      have hBelow := Nat.lt_sub_iff_add_lt'.mp hLine
      rw [← Nat.add_assoc] at hBelow
      exact Nat.lt_of_succ_lt_succ hBelow
    rw [if_neg (by dsimp only; omega), if_pos hBelow, hDiv,
      hMod]
    simp [Nat.add_assoc]

/- A place is the pixel it is the place of. -/
theorem place_eq_iff
    {k x y : Nat}
    (hInside : k < window.width * window.height) :
    window.place k = ⟨x, y⟩ ↔
      window.Holds x y ∧ window.index x y = k := by
  have hWide : 0 < window.width := by
    rcases Nat.eq_zero_or_pos window.width with hZero | hPos
    · rw [hZero, Nat.zero_mul] at hInside
      omega
    · exact hPos
  have hColumn := Nat.mod_lt k hWide
  have hLine : k / window.width < window.height :=
    Nat.div_lt_of_lt_mul hInside
  have hSplit := Nat.div_add_mod k window.width
  unfold place Holds index
  rw [Cursor.mk.injEq]
  constructor
  · rintro ⟨rfl, rfl⟩
    have hRight : window.left + k % window.width ≤
        window.right := by
      unfold width at hColumn ⊢
      omega
    have hBottom : window.top + k / window.width ≤
        window.bottom := by
      unfold height at hLine
      exact Nat.le_of_lt_succ (Nat.lt_sub_iff_add_lt'.mp hLine)
    refine ⟨⟨⟨Nat.le_add_right _ _, hRight⟩,
      Nat.le_add_right _ _, hBottom⟩, ?_⟩
    rw [Nat.add_sub_cancel_left, Nat.add_sub_cancel_left,
      Nat.mul_comm]
    exact hSplit
  · rintro ⟨⟨⟨hLeft, hRight⟩, hTop, hBottom⟩, hIndex⟩
    have hSame := Nat.div_mod_unique hWide (a := k)
      (d := y - window.top) (c := x - window.left)
    have hLess : x - window.left < window.width := by
      unfold width
      omega
    rw [Nat.mul_comm] at hIndex
    rcases hSame.mpr ⟨by omega, hLess⟩ with ⟨hDiv, hMod⟩
    omega

/- The pixels of the window are counted line by line. -/
theorem index_lt
    {x y : Nat} (hHolds : window.Holds x y) :
    window.index x y < window.width * window.height := by
  rcases hHolds with ⟨⟨hLeft, hRight⟩, hTop, hBottom⟩
  have hColumn : x - window.left < window.width := by
    unfold width
    omega
  have hLine : y - window.top + 1 ≤ window.height := by
    unfold height
    omega
  calc window.index x y
      < (y - window.top) * window.width + window.width := by
        unfold index
        omega
    _ = (y - window.top + 1) * window.width :=
        (Nat.succ_mul _ _).symm
    _ ≤ window.height * window.width :=
        Nat.mul_le_mul_right _ hLine
    _ = window.width * window.height := Nat.mul_comm _ _

end Window

end Raster

------------------------------------------------------------
-- Filling
------------------------------------------------------------

namespace Raster

variable {α : Type}

/- A picture: a pixel for each column and line. -/
abbrev Picture (α : Type) := Nat → Nat → α

/- One pixel of it is changed. -/
def Picture.store
    (picture : Picture α) (c : Cursor) (pixel : α) :
    Picture α :=
  fun x y => if c = ⟨x, y⟩ then pixel else picture x y

/- The pixels are stored one after another. -/
def fill
    (window : Window) :
    Cursor → Picture α → List α → Picture α
| _, picture, [] => picture
| c, picture, pixel :: rest =>
    fill window (window.next c) (picture.store c pixel) rest

/-
  Pixels that are stored from a place of the window on, as
  many as there is room for behind it, are at the places that
  follow it. The rest of the picture stays as it was.
-/
theorem fill_place
    {window : Window} (picture : Picture α)
    (pixels : List α) (k : Nat)
    (hRoom : k + pixels.length ≤ window.width * window.height)
    (x y : Nat) :
    fill window (window.place k) picture pixels x y =
      if window.Holds x y ∧ k ≤ window.index x y then
        pixels.getD (window.index x y - k) (picture x y)
      else
        picture x y := by
  induction pixels generalizing k picture with
  | nil => simp [fill]
  | cons pixel rest ih =>
      rw [List.length_cons] at hRoom
      have hHere := window.place_eq_iff (x := x) (y := y)
        (k := k) (by omega)
      -- the last pixel is followed by none
      have hRest : fill window (window.next (window.place k))
          (picture.store (window.place k) pixel) rest =
          fill window (window.place (k + 1))
            (picture.store (window.place k) pixel) rest := by
        cases rest with
        | nil => rfl
        | cons second rest =>
            rw [List.length_cons] at hRoom
            rw [Window.next_place (by omega)]
      rw [fill, hRest, ih _ _ (by omega), Picture.store]
      by_cases hHolds : window.Holds x y
      case neg =>
        have hElsewhere : window.place k ≠ ⟨x, y⟩ :=
          fun h => hHolds (hHere.mp h).1
        simp [hHolds, hElsewhere]
      case pos =>
      simp only [hHolds, true_and, hHere]
      rcases Nat.lt_trichotomy (window.index x y) k with
        hLess | hEq | hMore
      · rw [if_neg (by omega), if_neg (by omega),
          if_neg (by omega)]
      · rw [if_neg (by omega), if_pos hEq, if_pos (by omega),
          hEq, Nat.sub_self]
        rfl
      · have hTail : window.index x y - k =
            window.index x y - (k + 1) + 1 := by omega
        rw [if_pos (by omega), if_neg (by omega),
          if_pos (by omega), hTail, List.getD_cons_succ]

/-
  Pixels that are stored from the first one on, as many as
  the window has room for.
-/
theorem fill_home
    {window : Window} (picture : Picture α)
    (pixels : List α)
    (hRoom : pixels.length ≤ window.width * window.height)
    (x y : Nat) :
    fill window window.home picture pixels x y =
      if window.Holds x y then
        pixels.getD (window.index x y) (picture x y)
      else
        picture x y := by
  have hFill := fill_place picture pixels 0
    (by rw [Nat.zero_add]; exact hRoom) x y
  simpa using hFill

end Raster
