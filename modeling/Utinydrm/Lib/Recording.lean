import Utinydrm.Lib.Chunking

/-
  Programs whose calls are noted.

  A recorded program carries, next to its state, the notes of
  the calls it has made: what was noted about each call when
  it was made, and how the call ended. Forgetting the notes
  gives the program back, so that what is shown of the notes
  is about the program.

  Main declarations:
    * `Effect.Ends` and its closure rules
    * `Effect.noted` and `Effect.quiet`
    * `Effect.Erases` and its closure rules
    * `Chunking.UpToFailure`
    * `Chunking.runPieces_upToFailure`
-/

------------------------------------------------------------
-- Ends
------------------------------------------------------------

namespace Effect

variable {ε σ α β : Type}

/- The program ends with the result, in the state. -/
def Ends
    (program : EStateM ε σ α)
    (s : σ) (result : Except ε α) (s' : σ) : Prop :=
  match result with
  | .ok a => program s = .ok a s'
  | .error e => program s = .error e s'

theorem exists_ends
    (program : EStateM ε σ α) (s : σ) :
    ∃ result s', Ends program s result s' := by
  cases hRun : program s with
  | ok a s' => exact ⟨.ok a, s', hRun⟩
  | error e s' => exact ⟨.error e, s', hRun⟩

namespace Ends

variable {program : EStateM ε σ α}
variable {next : α → EStateM ε σ β}
variable {s s' : σ}

theorem unique
    {result result' : Except ε α} {s'' : σ}
    (hEnds : Ends program s result s')
    (hOther : Ends program s result' s'') :
    result = result' ∧ s' = s'' := by
  cases result with
  | ok a =>
      cases result' with
      | ok b =>
          cases hEnds.symm.trans hOther
          exact ⟨rfl, rfl⟩
      | error e => cases hEnds.symm.trans hOther
  | error e =>
      cases result' with
      | ok b => cases hEnds.symm.trans hOther
      | error e' =>
          cases hEnds.symm.trans hOther
          exact ⟨rfl, rfl⟩

theorem bind
    {a : α} {result : Except ε β} {s'' : σ}
    (hFirst : Ends program s (.ok a) s')
    (hRest : Ends (next a) s' result s'') :
    Ends (program >>= next) s result s'' := by
  cases result with
  | ok b => exact (bind_of_ok hFirst).trans hRest
  | error e => exact (bind_of_ok hFirst).trans hRest

theorem bind_error
    {e : ε}
    (hFirst : Ends program s (.error e) s') :
    Ends (program >>= next) s (.error e) s' :=
  bind_of_error hFirst

end Ends

/- How a sequence ended. -/
theorem ends_bind_cases
    {program : EStateM ε σ α}
    {next : α → EStateM ε σ β}
    {s s'' : σ} {result : Except ε β}
    (hEnds : Ends (program >>= next) s result s'') :
    (∃ e, result = .error e ∧
        Ends program s (.error e) s'') ∨
      ∃ a s', Ends program s (.ok a) s' ∧
        Ends (next a) s' result s'' := by
  rcases exists_ends program s with ⟨first, s', hFirst⟩
  cases first with
  | ok a =>
      rcases exists_ends (next a) s' with ⟨rest, s₃, hRest⟩
      rcases hEnds.unique (hFirst.bind hRest) with ⟨rfl, rfl⟩
      exact Or.inr ⟨a, s', hFirst, hRest⟩
  | error e =>
      rcases hEnds.unique hFirst.bind_error with ⟨rfl, rfl⟩
      exact Or.inl ⟨e, rfl, hFirst⟩

end Effect

------------------------------------------------------------
-- Notes
------------------------------------------------------------

namespace Effect

variable {ε σ α β γ δ : Type}

/- A call of a program, and how it ended. -/
abbrev Note (γ ε δ : Type) := γ × Except ε δ

/- The program, leaving the notes alone. -/
def quiet
    (program : EStateM ε σ α) :
    EStateM ε (σ × List (Note γ ε δ)) α := fun s =>
  match program s.1 with
  | .ok a s' => .ok a (s', s.2)
  | .error e s' => .error e (s', s.2)

/- The program as a call that is noted. -/
def noted
    (note : σ → γ)
    (program : EStateM ε σ α) :
    EStateM ε (σ × List (Note γ ε α)) α := fun s =>
  match program s.1 with
  | .ok a s' => .ok a (s', s.2 ++ [(note s.1, .ok a)])
  | .error e s' => .error e (s', s.2 ++ [(note s.1, .error e)])

theorem Ends.quiet
    {program : EStateM ε σ α}
    {s s' : σ} {result : Except ε α}
    (hEnds : Ends program s result s')
    (notes : List (Note γ ε δ)) :
    Ends (Effect.quiet program) (s, notes) result
      (s', notes) := by
  cases result with
  | ok a =>
      have hRun : program s = .ok a s' := hEnds
      simp [Ends, Effect.quiet, hRun]
  | error e =>
      have hRun : program s = .error e s' := hEnds
      simp [Ends, Effect.quiet, hRun]

theorem Ends.noted
    {program : EStateM ε σ α}
    {s s' : σ} {result : Except ε α}
    (hEnds : Ends program s result s')
    (note : σ → γ) (notes : List (Note γ ε α)) :
    Ends (Effect.noted note program) (s, notes) result
      (s', notes ++ [(note s, result)]) := by
  cases result with
  | ok a =>
      have hRun : program s = .ok a s' := hEnds
      simp [Ends, Effect.noted, hRun]
  | error e =>
      have hRun : program s = .error e s' := hEnds
      simp [Ends, Effect.noted, hRun]

/- What is known of a call that returned, and of the others. -/
theorem exists_of_noted_ok
    {program : EStateM ε σ α} {note : σ → γ}
    {s : σ} {notes : List (Note γ ε α)} {a : α}
    {t : σ × List (Note γ ε α)}
    (hRun : Effect.noted note program (s, notes) = .ok a t) :
    ∃ s', program s = .ok a s' ∧
      t = (s', notes ++ [(note s, .ok a)]) := by
  unfold Effect.noted at hRun
  cases hProgram : program s with
  | ok b s' =>
      simp only [hProgram] at hRun
      cases hRun
      exact ⟨s', rfl, rfl⟩
  | error e s' =>
      simp only [hProgram] at hRun
      cases hRun

theorem exists_of_quiet_ok
    {program : EStateM ε σ α}
    {s : σ} {notes : List (Note γ ε δ)} {a : α}
    {t : σ × List (Note γ ε δ)}
    (hRun : Effect.quiet program (s, notes) = .ok a t) :
    ∃ s', program s = .ok a s' ∧ t = (s', notes) := by
  unfold Effect.quiet at hRun
  cases hProgram : program s with
  | ok b s' =>
      simp only [hProgram] at hRun
      cases hRun
      exact ⟨s', rfl, rfl⟩
  | error e s' =>
      simp only [hProgram] at hRun
      cases hRun

/- Without its notes, the recorded program is the program. -/
def Erases
    (recorded : EStateM ε (σ × List (Note γ ε δ)) α)
    (program : EStateM ε σ α) : Prop :=
  ∀ s result s', Ends program s result s' → ∀ notes,
    ∃ notes', Ends recorded (s, notes) result (s', notes')

variable {recorded : EStateM ε (σ × List (Note γ ε δ)) α}
variable {program : EStateM ε σ α}

/- How the recorded program ends, the program does. -/
theorem Erases.ends
    (hErases : Erases recorded program)
    {s s' : σ} {notes notes' : List (Note γ ε δ)}
    {result : Except ε α}
    (hEnds : Ends recorded (s, notes) result (s', notes')) :
    Ends program s result s' := by
  rcases exists_ends program s with ⟨other, s₁, hProgram⟩
  rcases hErases s other s₁ hProgram notes with
    ⟨notes₁, hRecorded⟩
  rcases hEnds.unique hRecorded with ⟨rfl, hState⟩
  cases hState
  exact hProgram

theorem erases_quiet :
    Erases (quiet program : EStateM ε (σ × List (Note γ ε δ)) α)
      program := by
  intro s result s' hEnds notes
  exact ⟨notes, hEnds.quiet notes⟩

theorem erases_noted (note : σ → γ) :
    Erases (noted note program) program := by
  intro s result s' hEnds notes
  exact ⟨_, hEnds.noted note notes⟩

theorem erases_pure (a : α) :
    Erases (pure a : EStateM ε (σ × List (Note γ ε δ)) α)
      (pure a) := by
  intro s result s' hEnds notes
  have hPure : Ends (pure a : EStateM ε σ α) s (.ok a) s := rfl
  rcases hEnds.unique hPure with ⟨rfl, rfl⟩
  exact ⟨notes, rfl⟩

theorem erases_throw (e : ε) :
    Erases (throw e : EStateM ε (σ × List (Note γ ε δ)) α)
      (throw e) := by
  intro s result s' hEnds notes
  have hThrow : Ends (throw e : EStateM ε σ α) s (.error e) s :=
    rfl
  rcases hEnds.unique hThrow with ⟨rfl, rfl⟩
  exact ⟨notes, rfl⟩

theorem erases_bind
    {next : α → EStateM ε σ β}
    {recordedNext :
      α → EStateM ε (σ × List (Note γ ε δ)) β}
    (hFirst : Erases recorded program)
    (hNext : ∀ a, Erases (recordedNext a) (next a)) :
    Erases (recorded >>= recordedNext) (program >>= next) := by
  intro s result s'' hEnds notes
  rcases ends_bind_cases hEnds with
    ⟨e, rfl, hError⟩ | ⟨a, s', hOk, hRest⟩
  · rcases hFirst s _ s'' hError notes with
      ⟨notes', hRecorded⟩
    exact ⟨notes', hRecorded.bind_error⟩
  · rcases hFirst s _ s' hOk notes with ⟨notes₁, hRecorded⟩
    rcases hNext a s' result s'' hRest notes₁ with
      ⟨notes', hEnd⟩
    exact ⟨notes', hRecorded.bind hEnd⟩

theorem erases_ite
    {c : Prop} [Decidable c]
    {left right : EStateM ε (σ × List (Note γ ε δ)) α}
    {left' right' : EStateM ε σ α}
    (hLeft : Erases left left')
    (hRight : Erases right right') :
    Erases (if c then left else right)
      (if c then left' else right') := by
  split
  case isTrue => exact hLeft
  case isFalse => exact hRight

end Effect

------------------------------------------------------------
-- Recorded Loops
------------------------------------------------------------

namespace Chunking

variable {ε σ γ : Type}

theorem erases_chunkLoop
    {δ : Type} {stuck : ε} {max : Nat}
    {recorded :
      Nat → Nat → EStateM ε (σ × List (Effect.Note γ ε δ)) Int}
    {body : Nat → Nat → EStateM ε σ Int}
    (hBody : ∀ offset chunk,
      Effect.Erases (recorded offset chunk)
        (body offset chunk))
    (len : Nat) :
    Effect.Erases (chunkLoop stuck max recorded len)
      (chunkLoop stuck max body len) := by
  have hFrom : ∀ fuel offset rest, Effect.Erases
      (chunkLoopFrom stuck max recorded fuel offset rest)
      (chunkLoopFrom stuck max body fuel offset rest) := by
    intro fuel
    induction fuel with
    | zero =>
        intro offset rest
        exact Effect.erases_ite (Effect.erases_pure 0)
          (Effect.erases_throw stuck)
    | succ fuel ih =>
        intro offset rest
        apply Effect.erases_ite (Effect.erases_pure 0)
        apply Effect.erases_bind (hBody _ _)
        intro ret
        exact Effect.erases_ite (ih _ _)
          (Effect.erases_pure ret)
  exact hFrom len 0 len

/-
  The items are worked off one after another until a call
  does not return zero: that one is the last, and how it
  ended is the result. When there is none, all of them are
  worked off and the result is zero.
-/
structure UpToFailure
    (items : List γ) (notes : List (Effect.Note γ ε Int))
    (result : Except ε Int) : Prop where
  initial : notes.map Prod.fst <+: items
  failure : ∀ before note after,
    notes = before ++ note :: after → note.2 ≠ .ok 0 →
    after = [] ∧ result = note.2
  success : (∀ note ∈ notes, note.2 = .ok 0) →
    notes.map Prod.fst = items ∧ result = .ok 0

namespace UpToFailure

theorem nil :
    UpToFailure ([] : List γ) []
      (.ok 0 : Except ε Int) where
  initial := List.prefix_refl _
  failure := by
    intro before note after hSplit
    simp at hSplit
  success := fun _ => ⟨rfl, rfl⟩

/- A call that fails is the last. -/
theorem stop
    (item : γ) (rest : List γ)
    {result : Except ε Int}
    (hFails : result ≠ .ok 0) :
    UpToFailure (item :: rest) [(item, result)] result where
  initial := by simp
  failure := by
    intro before note after hSplit _
    cases before with
    | nil =>
        cases hSplit
        exact ⟨rfl, rfl⟩
    | cons first before => simp at hSplit
  success := fun hAll =>
    absurd (hAll (item, result) (by simp)) hFails

/- After one that succeeds the others follow. -/
theorem cons
    {item : γ} {rest : List γ}
    {notes : List (Effect.Note γ ε Int)}
    {result : Except ε Int}
    (hRest : UpToFailure rest notes result) :
    UpToFailure (item :: rest) ((item, .ok 0) :: notes)
      result where
  initial := by
    rw [List.map_cons, List.cons_prefix_cons]
    exact ⟨rfl, hRest.initial⟩
  failure := by
    intro before note after hSplit hFails
    cases before with
    | nil =>
        cases hSplit
        exact absurd rfl hFails
    | cons first before =>
        cases hSplit
        exact hRest.failure before note after rfl hFails
  success := by
    intro hAll
    rcases hRest.success fun note hMem =>
        hAll note (List.mem_cons_of_mem _ hMem) with
      ⟨hItems, hResult⟩
    exact ⟨by rw [List.map_cons, hItems], hResult⟩

end UpToFailure

/-
  The walk over the pieces, when every run of the body is one
  noted call and one that returns zero keeps the invariant.
-/
theorem runPieces_upToFailure
    (I : σ → Prop)
    (out : Piece → γ)
    (body : Nat → Nat →
      EStateM ε (σ × List (Effect.Note γ ε Int)) Int)
    (ps : List Piece)
    (hBody : ∀ p ∈ ps, ∀ s notes, I s →
      ∃ result s',
        Effect.Ends (body p.offset p.size) (s, notes) result
          (s', notes ++ [(out p, result)]) ∧
        (result = .ok 0 → I s'))
    {s : σ} (hs : I s)
    (notes : List (Effect.Note γ ε Int)) :
    ∃ result s' added,
      Effect.Ends (runPieces body ps) (s, notes) result
        (s', notes ++ added) ∧
      UpToFailure (ps.map out) added result := by
  induction ps generalizing s notes with
  | nil =>
      refine ⟨.ok 0, s, [], ?_, .nil⟩
      rw [List.append_nil]
      rfl
  | cons piece rest ih =>
      rcases hBody piece (by simp) s notes hs with
        ⟨first, s₁, hFirst, hKeep⟩
      by_cases hZero : first = .ok 0
      · subst hZero
        rcases ih (fun p hp => hBody p (by simp [hp]))
            (hKeep rfl) (notes ++ [(out piece, .ok 0)]) with
          ⟨result, s', added, hRest, hAdded⟩
        refine ⟨result, s', _, ?_, hAdded.cons⟩
        rw [List.append_assoc] at hRest
        exact hFirst.bind hRest
      · refine ⟨first, s₁, _, ?_, .stop _ _ hZero⟩
        cases first with
        | error e => exact hFirst.bind_error
        | ok ret =>
            apply hFirst.bind
            have hNe : ret ≠ 0 := fun h => hZero (by rw [h])
            rw [if_neg hNe]
            rfl

end Chunking
