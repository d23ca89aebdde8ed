import Utinydrm.MipiDbi.PixelFrames
import Utinydrm.MipiDbi.AddressWindow
import Utinydrm.Lib.Raster

/-
  The panel at the other end of the wire.

  It receives bytes that the D/C line labels, as the display
  command set describes it: two commands set the window, and
  the pixels of a memory write are stored line by line from
  the first pixel of the window on.

  Key definitions include:
    * `Panel.receive`, `Panel.run`
    * `Panel.idle`, `Carries`

  Main declarations:
    * `Panel.run_command`, `Panel.picture_of_command`
    * `Panel.run_memoryWrite`
    * `Carries.append`, `carries_frame`
-/

------------------------------------------------------------
-- The Receiver
------------------------------------------------------------

namespace Utinydrm

/-
  The command that is received and the parameters of it that
  are not used yet, the window, the next pixel that is
  written, and the memory of the panel.
-/
structure Panel where
  cmd : Nat
  parameters : List UInt8
  window : AddressWindow
  cursor : Raster.Cursor
  picture : Raster.Picture UInt16

/- The window as part of the picture. -/
def AddressWindow.raster
    (window : AddressWindow) : Raster.Window where
  left := window.sc
  right := window.ec
  top := window.sp
  bottom := window.ep

namespace Panel

/- What one byte does, with the level of the D/C line. -/
def receive (panel : Panel) : Bool × UInt8 → Panel
| (false, cmd) =>
    { panel with
      cmd := cmd.toNat
      parameters := []
      cursor :=
        if cmd.toNat = MIPI_DCS_WRITE_MEMORY_START then
          panel.window.raster.home
        else
          panel.cursor }
| (true, byte) =>
    if panel.cmd = MIPI_DCS_WRITE_MEMORY_START then
      match panel.parameters with
      | [] => { panel with parameters := [byte] }
      | hi :: _ =>
          { panel with
            parameters := []
            cursor := panel.window.raster.next panel.cursor
            picture :=
              panel.picture.store panel.cursor
                (le16 byte hi) }
    else
      { panel with
        parameters := panel.parameters ++ [byte]
        window := panel.window.receive
          (panel.cmd, panel.parameters ++ [byte]) }

/- What is received one byte after another. -/
def run (panel : Panel) (wire : List (Bool × UInt8)) : Panel :=
  wire.foldl receive panel

theorem run_append
    (panel : Panel) (first second : List (Bool × UInt8)) :
    panel.run (first ++ second) =
      (panel.run first).run second :=
  List.foldl_append

/-
  A command other than the memory write, with no more than
  four parameters: they are used when they are complete.
-/
theorem run_command
    (panel : Panel) (cmd : UInt8)
    (hCmd : cmd.toNat ≠ MIPI_DCS_WRITE_MEMORY_START)
    (parameters : List UInt8)
    (hFour : parameters.length ≤ 4) :
    (panel.run (commandFrame cmd parameters)).window =
        panel.window.receive (cmd.toNat, parameters) ∧
      (panel.run (commandFrame cmd parameters)).picture =
        panel.picture := by
  rcases parameters with _ | ⟨a, _ | ⟨b, _ | ⟨c, _ | ⟨d, _ |
    ⟨e, rest⟩⟩⟩⟩⟩
  case cons.cons.cons.cons.cons =>
    simp only [List.length_cons] at hFour
    omega
  all_goals
    simp [run, commandFrame, labelled, receive, hCmd,
      AddressWindow.receive]

/- The parameters of another command store no pixel. -/
theorem picture_of_parameters
    (panel : Panel)
    (hCmd : panel.cmd ≠ MIPI_DCS_WRITE_MEMORY_START)
    (parameters : List UInt8) :
    (panel.run (labelled true parameters)).picture =
      panel.picture := by
  induction parameters generalizing panel with
  | nil => rfl
  | cons byte rest ih =>
      let received : Panel :=
        { panel with
          parameters := panel.parameters ++ [byte]
          window := panel.window.receive
            (panel.cmd, panel.parameters ++ [byte]) }
      have hByte : panel.receive (true, byte) = received :=
        if_neg hCmd
      calc
        (panel.run (labelled true (byte :: rest))).picture =
            ((panel.receive (true, byte)).run
              (labelled true rest)).picture := rfl
        _ = received.picture := by
          rw [hByte]
          exact ih received hCmd
        _ = panel.picture := rfl

/- Nor does a command without any. -/
theorem picture_of_command
    (panel : Panel) (cmd : UInt8) (parameters : List UInt8)
    (hUnseen : cmd.toNat ≠ MIPI_DCS_WRITE_MEMORY_START ∨
      parameters = []) :
    (panel.run (commandFrame cmd parameters)).picture =
      panel.picture := by
  rcases hUnseen with hCmd | rfl
  · exact picture_of_parameters
      (panel.receive (false, cmd)) hCmd parameters
  · rfl

/- The pixels of a memory write, from a cursor on. -/
theorem run_pixels
    (panel : Panel)
    (hCmd : panel.cmd = MIPI_DCS_WRITE_MEMORY_START)
    (hWhole : panel.parameters = [])
    (pixels : List UInt16) :
    (panel.run
      (labelled true (bigEndianBytes pixels))).window =
        panel.window ∧
      (panel.run
        (labelled true (bigEndianBytes pixels))).picture =
        Raster.fill panel.window.raster panel.cursor
          panel.picture pixels := by
  induction pixels generalizing panel with
  | nil => exact ⟨rfl, rfl⟩
  | cons pixel rest ih =>
      let stored : Panel :=
        { panel with
          cursor := panel.window.raster.next panel.cursor
          picture := panel.picture.store panel.cursor pixel }
      have hPixel : panel.run
          (labelled true
            [(pixel >>> 8).toUInt8, pixel.toUInt8]) =
          stored := by
        rcases panel with
          ⟨cmd, parameters, window, cursor, picture⟩
        dsimp only at hCmd hWhole
        subst hCmd hWhole
        simp [run, labelled, receive, stored, le16_bytes]
      have hSplit : labelled true
          (bigEndianBytes (pixel :: rest)) =
          labelled true
            [(pixel >>> 8).toUInt8, pixel.toUInt8] ++
          labelled true (bigEndianBytes rest) := by
        simp [bigEndianBytes, labelled]
      rw [hSplit, run_append, hPixel]
      exact ih stored hCmd hWhole

/- A memory write starts at the first pixel of the window. -/
theorem run_memoryWrite
    (panel : Panel) (pixels : List UInt16) :
    (panel.run
      (commandFrame 0x2C (bigEndianBytes pixels))).window =
        panel.window ∧
      (panel.run
        (commandFrame 0x2C (bigEndianBytes pixels))).picture =
        Raster.fill panel.window.raster
          panel.window.raster.home panel.picture pixels := by
  let started : Panel :=
    { panel with
      cmd := MIPI_DCS_WRITE_MEMORY_START
      parameters := []
      cursor := panel.window.raster.home }
  exact run_pixels started rfl rfl pixels

end Panel

end Utinydrm

------------------------------------------------------------
-- What Carries A Write
------------------------------------------------------------

namespace Utinydrm

namespace Panel

/- The panel after a command that does nothing. -/
def idle (panel : Panel) : Panel :=
  { panel with
    cmd := 0
    parameters := [] }

/- A command does not depend on the one before it. -/
theorem receive_command_of_idle
    {panel other : Panel}
    (hIdle : panel.idle = other.idle) (cmd : UInt8) :
    panel.receive (false, cmd) = other.receive (false, cmd) := by
  have hCommand : ∀ p : Panel, p.receive (false, cmd) =
      p.idle.receive (false, cmd) := fun _ => rfl
  rw [hCommand panel, hCommand other, hIdle]

end Panel

/-
  A panel that receives the one ends up as an alike panel
  that receives the other, but for the command it is at.
-/
def Carries (sent frames : List (Bool × UInt8)) : Prop :=
  ∀ panel other : Panel, panel.idle = other.idle →
    (panel.run sent).idle = (other.run frames).idle

namespace Carries

variable {sent frames more others : List (Bool × UInt8)}

theorem nil : Carries [] [] := fun _ _ hIdle => hIdle

theorem append
    (hFirst : Carries sent frames)
    (hSecond : Carries more others) :
    Carries (sent ++ more) (frames ++ others) := by
  intro panel other hIdle
  rw [Panel.run_append, Panel.run_append]
  exact hSecond _ _ (hFirst panel other hIdle)

/- So both make the panel show the same. -/
theorem picture
    (hCarries : Carries sent frames) (panel : Panel) :
    (panel.run sent).picture = (panel.run frames).picture := by
  have hIdle : (panel.run sent).idle.picture =
      (panel.run frames).idle.picture := by
    rw [hCarries panel panel rfl]
  exact hIdle

end Carries

theorem carries_frame (cmd : UInt8) (data : List UInt8) :
    Carries (commandFrame cmd data) (commandFrame cmd data) :=
  fun _ _ hIdle => congrArg
    (fun panel : Panel => (panel.run (labelled true data)).idle)
    (Panel.receive_command_of_idle hIdle cmd)

end Utinydrm
