/-
  Programs over a state that may also fault, and the rules
  for reasoning about them.

  A program is an `EStateM`: from a state it returns a value
  and a new state, or it faults and leaves the state it had
  reached.  A contract is a relation between the states
  before and after, closed under doing nothing and doing one
  program after another, together with what is known of a
  fault and of the state it happens in.  Frame conditions
  and invariants are contracts, so that each is checked once
  for every primitive and holds of every program built from
  these.

  Main declarations:
    * `Effect.Contract` and `Effect.Meets`
    * `Effect.meets_bind` and the other closure rules
    * `Effect.bind_of_ok` and `Effect.exists_of_bind_ok`
    * `Effect.Returns` and its closure rules
    * `Effect.Keeps` and its closure rules, loops included
    * `Effect.Yields` and its closure rules
    * `Effect.Preserves` and its closure rules
    * `Effect.endsIn`, to evaluate a program
-/

------------------------------------------------------------
-- Running A Program
------------------------------------------------------------

namespace Effect

variable {ε σ α β : Type}

@[simp] theorem pure_apply
    (a : α) (s : σ) :
    (pure a : EStateM ε σ α) s = .ok a s := rfl

@[simp] theorem throw_apply
    (e : ε) (s : σ) :
    (throw e : EStateM ε σ α) s = .error e s := rfl

@[simp] theorem get_apply
    (s : σ) :
    (get : EStateM ε σ σ) s = .ok s s := rfl

@[simp] theorem modify_apply
    (f : σ → σ) (s : σ) :
    (modify f : EStateM ε σ PUnit) s = .ok ⟨⟩ (f s) := rfl

/- A sequence continues where its first program returned. -/
theorem bind_of_ok
    {program : EStateM ε σ α}
    {next : α → EStateM ε σ β}
    {s s' : σ} {a : α}
    (h : program s = .ok a s') :
    (program >>= next) s = next a s' := by
  change EStateM.bind program next s = next a s'
  simp [EStateM.bind, h]

/- A fault ends the sequence it happens in. -/
theorem bind_of_error
    {program : EStateM ε σ α}
    {next : α → EStateM ε σ β}
    {s s' : σ} {e : ε}
    (h : program s = .error e s') :
    (program >>= next) s = .error e s' := by
  change EStateM.bind program next s = .error e s'
  simp [EStateM.bind, h]

/- Programs that agree can start the same sequence. -/
theorem bind_congr
    {program program' : EStateM ε σ α}
    {s s' : σ}
    (h : program s = program' s')
    (next : α → EStateM ε σ β) :
    (program >>= next) s = (program' >>= next) s' := by
  change EStateM.bind program next s =
    EStateM.bind program' next s'
  simp [EStateM.bind, h]

/- What is known of a sequence that returned. -/
theorem exists_of_bind_ok
    {program : EStateM ε σ α}
    {next : α → EStateM ε σ β}
    {s s'' : σ} {b : β}
    (h : (program >>= next) s = .ok b s'') :
    ∃ a s', program s = .ok a s' ∧
      next a s' = .ok b s'' := by
  cases hProgram : program s with
  | ok a s' =>
      rw [bind_of_ok hProgram] at h
      exact ⟨a, s', rfl, h⟩
  | error e s' =>
      rw [bind_of_error hProgram] at h
      cases h

end Effect

------------------------------------------------------------
-- Contracts
------------------------------------------------------------

namespace Effect

/-
  What a program does to the state however it ends, and what
  holds of a fault and of the state it happens in.
-/
structure Contract (ε σ : Type) where
  step : σ → σ → Prop
  fault : ε → σ → Prop
  refl : ∀ s, step s s
  trans : ∀ {s₁ s₂ s₃},
    step s₁ s₂ → step s₂ s₃ → step s₁ s₃

variable {ε σ α β : Type}
variable {C : Contract ε σ}

/- The program keeps the contract when run from `s`. -/
def Meets
    (C : Contract ε σ)
    (program : EStateM ε σ α)
    (s : σ) : Prop :=
  match program s with
  | .ok _ s' => C.step s s'
  | .error e s' => C.step s s' ∧ C.fault e s'

namespace Meets

theorem of_ok
    {program : EStateM ε σ α}
    {s s' : σ} {a : α}
    (hMeets : Meets C program s)
    (h : program s = .ok a s') :
    C.step s s' := by
  simpa only [Meets, h] using hMeets

theorem of_error
    {program : EStateM ε σ α}
    {s s' : σ} {e : ε}
    (hMeets : Meets C program s)
    (h : program s = .error e s') :
    C.step s s' ∧ C.fault e s' := by
  simpa only [Meets, h] using hMeets

end Meets

theorem meets_pure (a : α) (s : σ) :
    Meets C (pure a : EStateM ε σ α) s :=
  C.refl s

theorem meets_throw
    {e : ε} {s : σ}
    (hFault : C.fault e s) :
    Meets C (throw e : EStateM ε σ α) s :=
  ⟨C.refl s, hFault⟩

theorem meets_modify
    {f : σ → σ} {s : σ}
    (hStep : C.step s (f s)) :
    Meets C (modify f : EStateM ε σ PUnit) s :=
  hStep

/- The rest of a sequence runs from where the first ended. -/
theorem meets_bind
    {program : EStateM ε σ α}
    {next : α → EStateM ε σ β}
    {s : σ}
    (hProgram : Meets C program s)
    (hNext : ∀ a s', program s = .ok a s' →
      Meets C (next a) s') :
    Meets C (program >>= next) s := by
  cases hRun : program s with
  | ok a s' =>
      have hFirst := hProgram.of_ok hRun
      have hRest := hNext a s' hRun
      unfold Meets at hRest ⊢
      rw [bind_of_ok hRun]
      cases hEnd : next a s' with
      | ok b s'' =>
          simp only [hEnd] at hRest ⊢
          exact C.trans hFirst hRest
      | error e s'' =>
          simp only [hEnd] at hRest ⊢
          exact ⟨C.trans hFirst hRest.1, hRest.2⟩
  | error e s' =>
      have hFirst := hProgram.of_error hRun
      unfold Meets
      rw [bind_of_error hRun]
      exact hFirst

theorem meets_get_bind
    {next : σ → EStateM ε σ β}
    {s : σ}
    (hNext : Meets C (next s) s) :
    Meets C (get >>= next) s :=
  hNext

theorem meets_ite
    {c : Prop} [Decidable c]
    {left right : EStateM ε σ α}
    {s : σ}
    (hLeft : c → Meets C left s)
    (hRight : ¬ c → Meets C right s) :
    Meets C (if c then left else right) s := by
  split
  case isTrue h => exact hLeft h
  case isFalse h => exact hRight h

/-
  A program that keeps one contract keeps every contract
  that asks for less.
-/
theorem Meets.mono
    {C' : Contract ε σ}
    {program : EStateM ε σ α}
    {s : σ}
    (hMeets : Meets C program s)
    (hStep : ∀ s', C.step s s' → C'.step s s')
    (hFault : ∀ e s', C.fault e s' → C'.fault e s') :
    Meets C' program s := by
  unfold Meets at hMeets ⊢
  cases hRun : program s with
  | ok a s' =>
      simp only [hRun] at hMeets ⊢
      exact hStep _ hMeets
  | error e s' =>
      simp only [hRun] at hMeets ⊢
      exact ⟨hStep _ hMeets.1, hFault _ _ hMeets.2⟩

end Effect

------------------------------------------------------------
-- Results
------------------------------------------------------------

namespace Effect

variable {ε σ α β : Type}

/- Whatever the program returns, from any state, satisfies `Q`. -/
def Returns
    (Q : α → Prop)
    (program : EStateM ε σ α) : Prop :=
  ∀ s a s', program s = .ok a s' → Q a

variable {Q : α → Prop}

theorem Returns.mono
    {Q' : α → Prop}
    {program : EStateM ε σ α}
    (hReturns : Returns Q program)
    (hWeaker : ∀ a, Q a → Q' a) :
    Returns Q' program :=
  fun s a s' hRun => hWeaker a (hReturns s a s' hRun)

theorem returns_pure
    {a : α} (hResult : Q a) :
    Returns Q (pure a : EStateM ε σ α) := by
  intro s b s' hRun
  cases hRun
  exact hResult

theorem returns_throw (e : ε) :
    Returns Q (throw e : EStateM ε σ α) := by
  intro s b s' hRun
  cases hRun

theorem returns_bind
    {program : EStateM ε σ β}
    {next : β → EStateM ε σ α}
    (hNext : ∀ b, Returns Q (next b)) :
    Returns Q (program >>= next) := by
  intro s a s' hRun
  rcases exists_of_bind_ok hRun with ⟨b, s₁, _, hRest⟩
  exact hNext b s₁ a s' hRest

/- The rest may use what the first program returned. -/
theorem returns_bind_of
    {R : β → Prop}
    {program : EStateM ε σ β}
    {next : β → EStateM ε σ α}
    (hProgram : Returns R program)
    (hNext : ∀ b, R b → Returns Q (next b)) :
    Returns Q (program >>= next) := by
  intro s a s' hRun
  rcases exists_of_bind_ok hRun with ⟨b, s₁, hFirst, hRest⟩
  exact hNext b (hProgram s b s₁ hFirst) s₁ a s' hRest

theorem returns_ite
    {c : Prop} [Decidable c]
    {left right : EStateM ε σ α}
    (hLeft : c → Returns Q left)
    (hRight : ¬ c → Returns Q right) :
    Returns Q (if c then left else right) := by
  split
  case isTrue h => exact hLeft h
  case isFalse h => exact hRight h

end Effect

------------------------------------------------------------
-- Contracts And Results
------------------------------------------------------------

namespace Effect

variable {ε σ α β : Type}

/-
  The program keeps the contract from every state, and what
  it returns satisfies `Q`.
-/
structure Keeps
    (C : Contract ε σ) (Q : α → Prop)
    (program : EStateM ε σ α) : Prop where
  meets : ∀ s, Meets C program s
  returns : Returns Q program

variable {C : Contract ε σ} {Q : α → Prop}

theorem Keeps.weaken
    {Q' : α → Prop} {program : EStateM ε σ α}
    (hKeeps : Keeps C Q program)
    (hWeaker : ∀ a, Q a → Q' a) :
    Keeps C Q' program :=
  ⟨hKeeps.meets, hKeeps.returns.mono hWeaker⟩

theorem keeps_pure
    {a : α} (hResult : Q a) :
    Keeps C Q (pure a : EStateM ε σ α) :=
  ⟨meets_pure a, returns_pure hResult⟩

theorem keeps_throw
    {e : ε} (hFault : ∀ s, C.fault e s) :
    Keeps C Q (throw e : EStateM ε σ α) :=
  ⟨fun s => meets_throw (hFault s), returns_throw e⟩

theorem keeps_modify_bind
    {f : σ → σ} {next : PUnit → EStateM ε σ α}
    (hStep : ∀ s, C.step s (f s))
    (hNext : Keeps C Q (next ⟨⟩)) :
    Keeps C Q (modify f >>= next) :=
  ⟨fun s => meets_bind (meets_modify (hStep s))
      fun _ s' _ => hNext.meets s',
    returns_bind fun _ => hNext.returns⟩

/- The rest may use what the first program returned. -/
theorem keeps_bind
    {R : β → Prop}
    {program : EStateM ε σ β} {next : β → EStateM ε σ α}
    (hProgram : Keeps C R program)
    (hNext : ∀ b, R b → Keeps C Q (next b)) :
    Keeps C Q (program >>= next) := by
  constructor
  · intro s
    apply meets_bind (hProgram.meets s)
    intro b s' hRun
    exact (hNext b (hProgram.returns s b s' hRun)).meets s'
  · exact returns_bind_of hProgram.returns
      fun b hResult => (hNext b hResult).returns

theorem keeps_ite
    {c : Prop} [Decidable c]
    {left right : EStateM ε σ α}
    (hLeft : c → Keeps C Q left)
    (hRight : ¬ c → Keeps C Q right) :
    Keeps C Q (if c then left else right) := by
  split
  case isTrue h => exact hLeft h
  case isFalse h => exact hRight h

/- A loop keeps what each of its rounds keeps. -/
theorem keeps_foldlM
    {step : α → β → EStateM ε σ α}
    (hStep : ∀ a b, Q a → Keeps C Q (step a b))
    (rounds : List β) {start : α} (hStart : Q start) :
    Keeps C Q (rounds.foldlM step start) := by
  induction rounds generalizing start with
  | nil =>
      rw [List.foldlM_nil]
      exact keeps_pure hStart
  | cons b rest ih =>
      rw [List.foldlM_cons]
      exact keeps_bind (hStep start b hStart)
        fun a hResult => ih hResult

end Effect

------------------------------------------------------------
-- Programs That Return
------------------------------------------------------------

namespace Effect

variable {ε σ α β : Type}

/- From `s` the program returns, and `Q` holds of the outcome. -/
def Yields
    (Q : α → σ → Prop)
    (program : EStateM ε σ α)
    (s : σ) : Prop :=
  ∃ a s', program s = .ok a s' ∧ Q a s'

variable {Q : α → σ → Prop}

theorem Yields.mono
    {Q' : α → σ → Prop}
    {program : EStateM ε σ α} {s : σ}
    (hYields : Yields Q program s)
    (hWeaker : ∀ a s', Q a s' → Q' a s') :
    Yields Q' program s := by
  rcases hYields with ⟨a, s', hRun, hOutcome⟩
  exact ⟨a, s', hRun, hWeaker a s' hOutcome⟩

theorem yields_pure
    {a : α} {s : σ} (hOutcome : Q a s) :
    Yields Q (pure a : EStateM ε σ α) s :=
  ⟨a, s, rfl, hOutcome⟩

/- The rest runs from where the first program returned. -/
theorem yields_bind
    {R : β → σ → Prop}
    {program : EStateM ε σ β}
    {next : β → EStateM ε σ α} {s : σ}
    (hProgram : Yields R program s)
    (hNext : ∀ b s', R b s' → Yields Q (next b) s') :
    Yields Q (program >>= next) s := by
  rcases hProgram with ⟨b, s₁, hFirst, hBetween⟩
  rcases hNext b s₁ hBetween with ⟨a, s', hRest, hOutcome⟩
  exact ⟨a, s', by rw [bind_of_ok hFirst, hRest], hOutcome⟩

/- The same for a test that can be evaluated. -/
def yieldsTest
    (test : α → σ → Bool)
    (program : EStateM ε σ α)
    (s : σ) : Bool :=
  match program s with
  | .ok a s' => test a s'
  | .error _ _ => false

theorem yields_of_yieldsTest
    {test : α → σ → Bool} {program : EStateM ε σ α} {s : σ}
    (hTest : yieldsTest test program s = true) :
    Yields (fun a s' => test a s' = true) program s := by
  unfold yieldsTest at hTest
  cases hRun : program s with
  | ok a s' =>
      rw [hRun] at hTest
      exact ⟨a, s', hRun, hTest⟩
  | error e s' =>
      rw [hRun] at hTest
      cases hTest

theorem yields_ite
    {c : Prop} [Decidable c]
    {left right : EStateM ε σ α} {s : σ}
    (hLeft : c → Yields Q left s)
    (hRight : ¬ c → Yields Q right s) :
    Yields Q (if c then left else right) s := by
  split
  case isTrue h => exact hLeft h
  case isFalse h => exact hRight h

end Effect

------------------------------------------------------------
-- Invariants
------------------------------------------------------------

namespace Effect

variable {ε σ α β : Type}

/- From every state of the invariant it returns into one. -/
def Preserves
    (I : σ → Prop) (program : EStateM ε σ α) : Prop :=
  ∀ s, I s → Yields (fun _ => I) program s

variable {I : σ → Prop}

theorem Preserves.of_ok
    {program : EStateM ε σ α} {s s' : σ} {a : α}
    (hPreserves : Preserves I program)
    (hStart : I s) (hRun : program s = .ok a s') :
    I s' := by
  rcases hPreserves s hStart with ⟨b, t, hRun', hEnd⟩
  cases hRun.symm.trans hRun'
  exact hEnd

theorem preserves_pure (a : α) :
    Preserves I (pure a : EStateM ε σ α) :=
  fun _ hStart => yields_pure hStart

theorem preserves_modify
    {f : σ → σ} (hStep : ∀ s, I s → I (f s)) :
    Preserves I (modify f : EStateM ε σ PUnit) :=
  fun s hStart => ⟨⟨⟩, f s, rfl, hStep s hStart⟩

theorem preserves_bind
    {program : EStateM ε σ β} {next : β → EStateM ε σ α}
    (hProgram : Preserves I program)
    (hNext : ∀ b, Preserves I (next b)) :
    Preserves I (program >>= next) :=
  fun s hStart =>
    yields_bind (hProgram s hStart) fun b => hNext b

/- What the state is read for may be used. -/
theorem preserves_get_bind
    {next : σ → EStateM ε σ α}
    (hNext : ∀ s, Preserves I (next s)) :
    Preserves I (get >>= next) :=
  fun s => hNext s s

theorem preserves_ite
    {c : Prop} [Decidable c]
    {left right : EStateM ε σ α}
    (hLeft : c → Preserves I left)
    (hRight : ¬ c → Preserves I right) :
    Preserves I (if c then left else right) := by
  split
  case isTrue h => exact hLeft h
  case isFalse h => exact hRight h

end Effect

------------------------------------------------------------
-- Evaluating A Program
------------------------------------------------------------

namespace Effect

variable {ε σ α : Type}

/- The program returns, in a state that passes the test. -/
def endsIn
    (test : σ → Bool)
    (program : EStateM ε σ α)
    (s : σ) : Bool :=
  match program s with
  | .ok _ s' => test s'
  | .error _ _ => false

theorem exists_of_endsIn
    {test : σ → Bool} {program : EStateM ε σ α} {s : σ}
    (hEnds : endsIn test program s = true) :
    ∃ a s', program s = .ok a s' ∧ test s' = true := by
  unfold endsIn at hEnds
  cases hRun : program s with
  | ok a s' =>
      rw [hRun] at hEnds
      exact ⟨a, s', rfl, hEnds⟩
  | error e s' =>
      rw [hRun] at hEnds
      cases hEnds

end Effect
