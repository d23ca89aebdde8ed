import Utinydrm.Event.Record
import Utinydrm.Main.Probe

/-
  `main`: the loop that reads an event, handles it, writes the
  result back and waits for the next one.

  The calls the loop makes are rounds of a read, the reply to
  it and a wait, in this order. The events are a run of the
  system that the handlers step through, so that what holds
  over these runs holds of the program.

  Key definitions include:
    * `mainRound`, `mainLoop`, `mainCalls`
    * `Round`, `eventsOf`
    * `LastRound`, `LoopOutcome`

  Main declarations:
    * `mainCalls_outcome`
    * `main_closes`
    * `main_answers`
    * `main_refines_server`
-/

------------------------------------------------------------
-- The Loop
------------------------------------------------------------

namespace Utinydrm

variable (abi : UdrmAbi) (sys : SysEnv) (env : Env)

/- `read(udev->fd, ev, 1024)`. -/
def sysReadEvent
    (fd : Int) : Proc (Except Errno (List UInt8)) := fun s =>
  let result := (sys.readEvent s.now).map (·.take 1024)
  .ok result (s.record (.readEvent fd result))

/- `write(udev->fd, &event_ret, sizeof(int))`. -/
def sysWriteReply
    (fd : Int) (ret : Int) : Proc (Option Errno) := fun s =>
  .ok (sys.writeReply s.now)
    (s.record (.writeReply fd ret (sys.writeReply s.now)))

/- `poll(&pfd, 1, -1)`. -/
def sysPoll (fd : Int) : Proc PollEvents := fun s =>
  .ok (sys.poll s.now) (s.record (.poll fd (sys.poll s.now)))

/- The end of a round: the reply to the event, and the wait. -/
def mainReply
    (udev : Udev) (buffer : Nat → UInt8) (eventRet : Int) :
    Proc (Except Int (Nat → UInt8)) := do
  let written ← sysWriteReply sys udev.fd eventRet
  match written with
  | some _ => do
      tinydrmUnregister udev
      pure (.error 1)
  | none => do
      let revents ← sysPoll sys udev.fd
      if revents.ends then do
        tinydrmUnregister udev
        pure (.error 0)
      else
        pure (.ok buffer)

/-
  A round of the loop, from the buffer the events are read
  into. It leaves the buffer for the next one, or the exit
  code.
-/
def mainRound
    (mipi : MipiDbi) (udev : Udev) (buffer : Nat → UInt8) :
    Proc (Except Int (Nat → UInt8)) := do
  let read ← sysReadEvent sys udev.fd
  match read with
  | .error _ => do
      tinydrmUnregister udev
      pure (.error 1)
  | .ok data => do
      let eventRet ← onWorld
        (mainIteration abi env mipi buffer data)
      mainReply sys udev (readEvent buffer data) eventRet

/-
  The loop of `main`, for so many rounds: the exit code, or
  nothing while it is still running.
-/
def mainLoop (mipi : MipiDbi) (udev : Udev) :
    Nat → (Nat → UInt8) → Proc (Option Int)
| 0, _ => pure none
| fuel + 1, buffer => do
    let round ← mainRound abi sys env mipi udev buffer
    match round with
    | .error code => pure (some code)
    | .ok buffer => mainLoop mipi udev fuel buffer

/- `main`, where `ev` holds anything at first. -/
def mainCalls
    (ev : Nat → UInt8) (fuel : Nat) : Proc (Option Int) := do
  let granted ← sysAlloc sys
  if ¬ granted then
    pure (some 1)
  else do
    let probed ← mi0283qtProbeCalls sys env mainSpi
    match probed with
    | .error _ => pure (some 1)
    | .ok (mipi, udev) =>
        mainLoop abi sys env mipi udev fuel ev

end Utinydrm

------------------------------------------------------------
-- Rounds
------------------------------------------------------------

namespace Utinydrm

/- An event that was read and the result it was answered with. -/
structure Round where
  data : List UInt8
  ret : Int
deriving DecidableEq, Repr

/- The calls of a round the loop goes on after. -/
def Round.calls (fd : Int) (round : Round) : List SysCall :=
  [.readEvent fd (.ok round.data),
    .writeReply fd round.ret none,
    .poll fd ⟨false, false, false⟩]

/- The events of some rounds, read into the same buffer. -/
def eventsOf (abi : UdrmAbi) :
    (Nat → UInt8) → List Round → List (Event × Int)
| _, [] => []
| buffer, round :: rest =>
    (parseEvent abi (readEvent buffer round.data), round.ret) ::
      eventsOf abi (readEvent buffer round.data) rest

/- The buffer after them. -/
def bufferAfter
    (buffer : Nat → UInt8) (rounds : List Round) :
    Nat → UInt8 :=
  rounds.foldl (fun buffer round => readEvent buffer round.data)
    buffer

/-
  The calls of the last round, its event if one was handled,
  and the exit code.
-/
inductive LastRound (fd : Int) :
    List SysCall → List Round → Int → Prop
| noEvent (e : Errno) :
    LastRound fd [.readEvent fd (.error e)] [] 1
| noReply (round : Round) (e : Errno) :
    LastRound fd
      [.readEvent fd (.ok round.data),
        .writeReply fd round.ret (some e)]
      [round] 1
| hungUp (round : Round) (revents : PollEvents) :
    revents.ends = true →
    LastRound fd
      [.readEvent fd (.ok round.data),
        .writeReply fd round.ret none, .poll fd revents]
      [round] 0

/- The calls of `tinydrm_unregister`. -/
def Udev.closing (udev : Udev) : List SysCall :=
  [.close udev.controlFd, .close udev.fd]

/- The driver goes through the events of some rounds. -/
def WorldRuns
    (abi : UdrmAbi) (env : Env) (mipi : MipiDbi)
    (buffer : Nat → UInt8) (w : World)
    (rounds : List Round) (w' : World) : Prop :=
  Transition.Run (EventStep env mipi) Transition.unguarded w
    (eventsOf abi buffer rounds) w'

/-
  What a loop leaves behind: it is still running, it has
  ended, or a handler faulted on the event that was read.
-/
inductive LoopOutcome
    (abi : UdrmAbi) (env : Env) (mipi : MipiDbi) (udev : Udev)
    (fuel : Nat) (buffer : Nat → UInt8) (s : Process) :
    EStateM.Result Fault Process (Option Int) → Prop
| running (rounds : List Round) (s' : Process) :
    rounds.length = fuel →
    s'.calls = s.calls ++ rounds.flatMap (Round.calls udev.fd) →
    WorldRuns abi env mipi buffer s.world rounds s'.world →
    LoopOutcome abi env mipi udev fuel buffer s (.ok none s')
| ended (rounds last : List Round) (calls : List SysCall)
    (code : Int) (s' : Process) :
    rounds.length < fuel →
    LastRound udev.fd calls last code →
    s'.calls = s.calls ++ rounds.flatMap (Round.calls udev.fd) ++
      calls ++ udev.closing →
    WorldRuns abi env mipi buffer s.world (rounds ++ last)
      s'.world →
    LoopOutcome abi env mipi udev fuel buffer s
      (.ok (some code) s')
| faulted (rounds : List Round) (data : List UInt8) (w : World)
    (e : Fault) (s' : Process) :
    rounds.length < fuel →
    s'.calls = s.calls ++ rounds.flatMap (Round.calls udev.fd) ++
      [.readEvent udev.fd (.ok data)] →
    WorldRuns abi env mipi buffer s.world rounds w →
    mainIteration abi env mipi (bufferAfter buffer rounds) data
      w = .error e s'.world →
    LoopOutcome abi env mipi udev fuel buffer s (.error e s')

end Utinydrm

------------------------------------------------------------
-- One Round
------------------------------------------------------------

namespace Utinydrm

variable {abi : UdrmAbi} {sys : SysEnv} {env : Env}
variable {mipi : MipiDbi} {udev : Udev}
variable {buffer : Nat → UInt8} {s : Process}

/- What a round leaves behind. -/
inductive RoundOutcome
    (abi : UdrmAbi) (env : Env) (mipi : MipiDbi) (udev : Udev)
    (buffer : Nat → UInt8) (s : Process) :
    EStateM.Result Fault Process (Except Int (Nat → UInt8)) →
      Prop
| next (round : Round) (s' : Process) :
    s'.calls = s.calls ++ round.calls udev.fd →
    EventStep env mipi s.world
      (parseEvent abi (readEvent buffer round.data), round.ret)
      s'.world →
    RoundOutcome abi env mipi udev buffer s
      (.ok (.ok (readEvent buffer round.data)) s')
| ended (last : List Round) (calls : List SysCall) (code : Int)
    (s' : Process) :
    LastRound udev.fd calls last code →
    s'.calls = s.calls ++ calls ++ udev.closing →
    WorldRuns abi env mipi buffer s.world last s'.world →
    RoundOutcome abi env mipi udev buffer s
      (.ok (.error code) s')
| faulted (data : List UInt8) (e : Fault) (s' : Process) :
    s'.calls = s.calls ++ [.readEvent udev.fd (.ok data)] →
    mainIteration abi env mipi buffer data s.world =
      .error e s'.world →
    RoundOutcome abi env mipi udev buffer s (.error e s')

theorem worldRuns_nil (w : World) :
    WorldRuns abi env mipi buffer w [] w := .nil

theorem worldRuns_single
    {round : Round} {w w' : World}
    (hStep : EventStep env mipi w
      (parseEvent abi (readEvent buffer round.data), round.ret)
      w') :
    WorldRuns abi env mipi buffer w [round] w' :=
  .snoc .nil trivial hStep

theorem PollEvents.eq_of_not_ends
    {revents : PollEvents} (hGoesOn : revents.ends = false) :
    revents = ⟨false, false, false⟩ := by
  rcases revents with ⟨err, hup, nval⟩
  simp only [PollEvents.ends, Bool.or_eq_false_iff] at hGoesOn
  rcases hGoesOn with ⟨⟨rfl, rfl⟩, rfl⟩
  rfl

/- The rest of a round, after the handler has returned. -/
theorem mainReply_outcome
    (round : Round) {s₁ : Process}
    (hCalls : s₁.calls =
      s.calls ++ [.readEvent udev.fd (.ok round.data)])
    (hStep : EventStep env mipi s.world
      (parseEvent abi (readEvent buffer round.data), round.ret)
      s₁.world) :
    RoundOutcome abi env mipi udev buffer s
      (mainReply sys udev (readEvent buffer round.data)
        round.ret s₁) := by
  unfold mainReply
  let s₂ : Process := s₁.record
    (.writeReply udev.fd round.ret (sys.writeReply s₁.now))
  have hWrite : sysWriteReply sys udev.fd round.ret s₁ =
      .ok (sys.writeReply s₁.now) s₂ := rfl
  rw [Effect.bind_of_ok hWrite]
  cases hWritten : sys.writeReply s₁.now with
  | some e =>
      refine .ended [round] _ 1 _ (.noReply round e) ?_
        (worldRuns_single hStep)
      simp [Process.record, Udev.closing, s₂, hCalls, hWritten]
  | none =>
      let s₃ : Process := s₂.record
        (.poll udev.fd (sys.poll s₂.now))
      have hPoll : sysPoll sys udev.fd s₂ =
          .ok (sys.poll s₂.now) s₃ := rfl
      simp only
      rw [Effect.bind_of_ok hPoll]
      cases hEnds : (sys.poll s₂.now).ends with
      | true =>
          refine .ended [round] _ 0 _
            (.hungUp round (sys.poll s₂.now) hEnds) ?_
            (worldRuns_single hStep)
          simp [Process.record, Udev.closing, s₂, s₃, hCalls,
            hWritten]
      | false =>
          have hPolled : s₃.calls = s₂.calls ++
              [.poll udev.fd ⟨false, false, false⟩] := by
            simp only [s₃, Process.record,
              PollEvents.eq_of_not_ends hEnds]
          refine .next round s₃ ?_ hStep
          rw [hPolled]
          simp [Process.record, Round.calls, s₂, hCalls,
            hWritten]

theorem mainRound_outcome :
    RoundOutcome abi env mipi udev buffer s
      (mainRound abi sys env mipi udev buffer s) := by
  unfold mainRound
  let read := (sys.readEvent s.now).map (·.take 1024)
  let s₁ : Process := s.record (.readEvent udev.fd read)
  have hFirst : sysReadEvent sys udev.fd s = .ok read s₁ := rfl
  rw [Effect.bind_of_ok hFirst]
  cases hRead : read with
  | error e =>
      refine .ended [] _ 1 _ (.noEvent e) ?_ (worldRuns_nil _)
      simp [Process.record, Udev.closing, s₁, hRead]
  | ok data =>
      simp only
      cases hHandled :
          mainIteration abi env mipi buffer data s.world with
      | error e w =>
          have hFault : onWorld
              (mainIteration abi env mipi buffer data) s₁ =
              .error e { s₁ with world := w } := by
            simp [onWorld, s₁, Process.record, hHandled]
          rw [Effect.bind_of_error hFault]
          refine .faulted data e _ ?_ hHandled
          simp [Process.record, s₁, hRead]
      | ok ret w =>
          have hDone : onWorld
              (mainIteration abi env mipi buffer data) s₁ =
              .ok ret { s₁ with world := w } := by
            simp [onWorld, s₁, Process.record, hHandled]
          rw [Effect.bind_of_ok hDone]
          have hCalls : s₁.calls =
              s.calls ++ [.readEvent udev.fd (.ok data)] := by
            simp [Process.record, s₁, hRead]
          exact mainReply_outcome ⟨data, ret⟩ hCalls hHandled

end Utinydrm

------------------------------------------------------------
-- The Whole Loop
------------------------------------------------------------

namespace Utinydrm

variable {abi : UdrmAbi} {sys : SysEnv} {env : Env}
variable {mipi : MipiDbi} {udev : Udev}
variable {buffer : Nat → UInt8}

theorem worldRuns_cons
    {round : Round} {rest : List Round} {w w₁ w' : World}
    (hStep : EventStep env mipi w
      (parseEvent abi (readEvent buffer round.data), round.ret)
      w₁)
    (hRest : WorldRuns abi env mipi
      (readEvent buffer round.data) w₁ rest w') :
    WorldRuns abi env mipi buffer w (round :: rest) w' := by
  have hFirst : WorldRuns abi env mipi buffer w [round] w₁ :=
    worldRuns_single hStep
  exact Transition.Run.append hFirst hRest

/- A round before those that follow. -/
theorem LoopOutcome.after
    {round : Round} {fuel : Nat} {s s₁ : Process}
    {result : EStateM.Result Fault Process (Option Int)}
    (hCalls : s₁.calls = s.calls ++ round.calls udev.fd)
    (hStep : EventStep env mipi s.world
      (parseEvent abi (readEvent buffer round.data), round.ret)
      s₁.world)
    (hRest : LoopOutcome abi env mipi udev fuel
      (readEvent buffer round.data) s₁ result) :
    LoopOutcome abi env mipi udev (fuel + 1) buffer s
      result := by
  cases hRest with
  | running rounds s' hLength hTraffic hRuns =>
      refine .running (round :: rounds) s' (by simp [hLength])
        ?_ (worldRuns_cons hStep hRuns)
      simp [hTraffic, hCalls]
  | ended rounds last calls code s' hLength hLast hTraffic
      hRuns =>
      refine .ended (round :: rounds) last calls code s'
        (by simpa using hLength) hLast ?_
        (worldRuns_cons hStep hRuns)
      simp [hTraffic, hCalls]
  | faulted rounds data w e s' hLength hTraffic hRuns
      hHandled =>
      refine .faulted (round :: rounds) data w e s'
        (by simpa using hLength) ?_
        (worldRuns_cons hStep hRuns) hHandled
      simp [hTraffic, hCalls]

theorem mainLoop_outcome
    (fuel : Nat) (buffer : Nat → UInt8) (s : Process) :
    LoopOutcome abi env mipi udev fuel buffer s
      (mainLoop abi sys env mipi udev fuel buffer s) := by
  induction fuel generalizing buffer s with
  | zero =>
      exact .running [] s rfl (by simp) (worldRuns_nil _)
  | succ fuel ih =>
      unfold mainLoop
      have hRound : RoundOutcome abi env mipi udev buffer s
          (mainRound abi sys env mipi udev buffer s) :=
        mainRound_outcome
      cases hRun : mainRound abi sys env mipi udev buffer s with
      | error e s₁ =>
          rw [Effect.bind_of_error hRun]
          rw [hRun] at hRound
          cases hRound with
          | faulted data _ _ hCalls hHandled =>
              exact .faulted [] data s.world e s₁
                (Nat.succ_pos _) (by simpa using hCalls)
                (worldRuns_nil _) hHandled
      | ok outcome s₁ =>
          rw [Effect.bind_of_ok hRun]
          rw [hRun] at hRound
          cases hRound with
          | next round _ hCalls hStep =>
              exact (ih _ s₁).after hCalls hStep
          | ended last calls code _ hLast hCalls hRuns =>
              exact .ended [] last calls code s₁
                (Nat.succ_pos _) hLast (by simpa using hCalls)
                hRuns

end Utinydrm

------------------------------------------------------------
-- The Program
------------------------------------------------------------

namespace Utinydrm

variable {abi : UdrmAbi} {sys : SysEnv} {env : Env}

/- The device of `main`, as its probe sets it up. -/
abbrev mainPanel : MipiDbi :=
  mi0283qtProbe mainSpi true true true false

/-
  What `main` leaves behind: no device, or what the loop made
  of the one that was registered.
-/
inductive MainOutcome
    (abi : UdrmAbi) (env : Env) (ev : Nat → UInt8) (fuel : Nat)
    (s : Process) :
    EStateM.Result Fault Process (Option Int) → Prop
| noDevice (w : World) (s' : Process) :
    s.Leaves [] w s' →
    MainOutcome abi env ev fuel s (.ok (some 1) s')
| served (udev : Udev) (bufFd : Int) (s₁ : Process)
    (result : EStateM.Result Fault Process (Option Int)) :
    s.Leaves udev.files { s.world.afterLines env with bufFd }
      s₁ →
    LoopOutcome abi env mainPanel udev fuel ev s₁ result →
    MainOutcome abi env ev fuel s result

theorem mainCalls_outcome
    (ev : Nat → UInt8) (fuel : Nat) (s : Process)
    (hNone : deviceFiles s.calls = []) :
    MainOutcome abi env ev fuel s
      (mainCalls abi sys env ev fuel s) := by
  have hStart : s.Leaves [] s.world s := by
    rw [← hNone]
    exact .refl s
  have hAlloc : Effect.Yields
      (fun _ s' => s.Leaves [] s.world s') (sysAlloc sys) s :=
    yields_sysAlloc hStart
  unfold mainCalls
  rcases hAlloc with ⟨granted, s₁, hRun₁, h₁⟩
  rw [Effect.bind_of_ok hRun₁]
  by_cases hGranted : granted = true
  case neg =>
    rw [if_pos hGranted]
    exact .noDevice _ s₁ h₁
  rw [if_neg (not_not.mpr hGranted)]
  have hProbe : Effect.Yields
      (ProbeOutcome env mainSpi s s.world)
      (mi0283qtProbeCalls sys env mainSpi) s₁ :=
    yields_mi0283qtProbeCalls mainSpi h₁
  rcases hProbe with ⟨probed, s₂, hRun₂, hOutcome⟩
  rw [Effect.bind_of_ok hRun₂]
  cases probed with
  | error ret =>
      rcases hOutcome with ⟨_, w, h₂⟩
      exact .noDevice w s₂ h₂
  | ok device =>
      rcases device with ⟨mipi, udev⟩
      rcases hOutcome with ⟨rfl, bufFd, h₂⟩
      exact .served udev bufFd s₂ _ h₂
        (mainLoop_outcome fuel ev s₂)

/-
  A kernel that grants everything, hands over an event that
  creates a framebuffer, and hangs up.
-/
def SysEnv.hangingUp : SysEnv where
  alloc := fun _ => true
  access := fun _ => true
  openFile := fun n => .ok (n + 3)
  writeText := fun _ => none
  createDevice := fun _ => .ok ⟨0, 7⟩
  readEvent := fun _ =>
    .ok [2, 0, 0, 0, 0, 0, 0, 0, 1, 0, 0, 0]
  writeReply := fun _ => none
  poll := fun _ => ⟨false, true, false⟩

abbrev freshProcess : Process := ⟨[], World.atProbe (-1)⟩

/- The event is answered, and `main` exits. -/
theorem mainCalls_hangingUp :
    ∃ s', mainCalls UdrmAbi.numbered SysEnv.hangingUp
        Env.granting (fun _ => 0) 3 freshProcess =
          .ok (some 0) s' ∧
      traffic s'.calls =
        [.event [2, 0, 0, 0, 0, 0, 0, 0, 1, 0, 0, 0],
          .answer 0] := by
  have hTest : Effect.yieldsTest
      (fun code s' => code == some 0 &&
        traffic s'.calls ==
          [.event [2, 0, 0, 0, 0, 0, 0, 0, 1, 0, 0, 0],
            .answer 0])
      (mainCalls UdrmAbi.numbered SysEnv.hangingUp
        Env.granting (fun _ => 0) 3)
      freshProcess = true := by
    decide +kernel
  rcases Effect.yields_of_yieldsTest hTest with
    ⟨code, s', hRun, hEnd⟩
  rw [Bool.and_eq_true, beq_iff_eq, beq_iff_eq] at hEnd
  rw [hEnd.1] at hRun
  exact ⟨s', hRun, hEnd.2⟩

end Utinydrm

------------------------------------------------------------
-- Closing The Device
------------------------------------------------------------

namespace Utinydrm

variable {fd : Int}

/- Calls that neither open nor close a file. -/
theorem deviceFiles_append_still
    {calls more : List SysCall}
    (hStill : ∀ call ∈ more, call.movesFiles = false) :
    deviceFiles (calls ++ more) = deviceFiles calls := by
  induction more using List.reverseRecOn with
  | nil => rw [List.append_nil]
  | append_singleton more call ih =>
      rw [← List.append_assoc,
        deviceFiles_of_still (hStill call (by simp)),
        ih fun c hc => hStill c (by simp [hc])]

theorem Round.calls_still
    (rounds : List Round) :
    ∀ call ∈ rounds.flatMap (Round.calls fd),
      call.movesFiles = false := by
  intro call hCall
  rcases List.mem_flatMap.mp hCall with ⟨round, _, hMem⟩
  simp only [Round.calls, List.mem_cons, List.not_mem_nil,
    or_false] at hMem
  rcases hMem with rfl | rfl | rfl <;> rfl

theorem LastRound.calls_still
    {calls : List SysCall} {last : List Round} {code : Int}
    (hLast : LastRound fd calls last code) :
    ∀ call ∈ calls, call.movesFiles = false := by
  intro call hCall
  cases hLast with
  | noEvent e =>
      rw [List.mem_singleton.mp hCall]
      rfl
  | noReply round e =>
      simp only [List.mem_cons, List.not_mem_nil, or_false]
        at hCall
      rcases hCall with rfl | rfl <;> rfl
  | hungUp round revents hEnds =>
      simp only [List.mem_cons, List.not_mem_nil, or_false]
        at hCall
      rcases hCall with rfl | rfl | rfl <;> rfl

/- Unregistering closes both files. -/
theorem deviceFiles_closing
    {calls : List SysCall} {udev : Udev}
    (hFiles : deviceFiles calls = udev.files) :
    deviceFiles (calls ++ udev.closing) = [] := by
  have hSplit : calls ++ udev.closing =
      calls ++ [.close udev.controlFd] ++
        [.close udev.fd] := by
    simp [Udev.closing]
  rw [hSplit, deviceFiles_close, deviceFiles_close, hFiles]
  simp [Udev.files]

/-
  A program that has exited has no file of the device open.
  One that is running, or that ended in a fault, holds the two
  of a device it registered.
-/
inductive HoldsDevice :
    EStateM.Result Fault Process (Option Int) → Prop
| exited (code : Int) (s' : Process) :
    deviceFiles s'.calls = [] →
    HoldsDevice (.ok (some code) s')
| running (udev : Udev) (s' : Process) :
    deviceFiles s'.calls = udev.files →
    HoldsDevice (.ok none s')
| faulted (udev : Udev) (e : Fault) (s' : Process) :
    deviceFiles s'.calls = udev.files →
    HoldsDevice (.error e s')

/- This holds of `main`, whichever of its calls fail. -/
theorem main_closes
    (abi : UdrmAbi) (sys : SysEnv) (env : Env)
    (ev : Nat → UInt8) (fuel : Nat) (s : Process)
    (hNone : deviceFiles s.calls = []) :
    HoldsDevice (mainCalls abi sys env ev fuel s) := by
  have hOutcome : MainOutcome abi env ev fuel s
      (mainCalls abi sys env ev fuel s) :=
    mainCalls_outcome ev fuel s hNone
  generalize mainCalls abi sys env ev fuel s = result
    at hOutcome
  cases hOutcome with
  | noDevice w s' hLeaves => exact .exited 1 s' hLeaves.files
  | served udev bufFd s₁ _ hLeaves hLoop =>
      cases hLoop with
      | running rounds s' _ hCalls _ =>
          refine .running udev s' ?_
          rw [hCalls, deviceFiles_append_still
            (Round.calls_still rounds), hLeaves.files]
      | ended rounds last calls code s' _ hLast hCalls _ =>
          refine .exited code s' ?_
          rw [hCalls]
          apply deviceFiles_closing
          rw [deviceFiles_append_still hLast.calls_still,
            deviceFiles_append_still
              (Round.calls_still rounds), hLeaves.files]
      | faulted rounds data w e s' _ hCalls _ _ =>
          refine .faulted udev e s' ?_
          rw [hCalls, deviceFiles_of_still rfl,
            deviceFiles_append_still
              (Round.calls_still rounds), hLeaves.files]

theorem main_closes_hangingUp :
    ∃ s', mainCalls UdrmAbi.numbered SysEnv.hangingUp
        Env.granting (fun _ => 0) 3 freshProcess =
          .ok (some 0) s' ∧
      deviceFiles s'.calls = [] := by
  rcases mainCalls_hangingUp with ⟨s', hRun, _⟩
  have hClosed := main_closes UdrmAbi.numbered
    SysEnv.hangingUp Env.granting (fun _ => 0) 3
    freshProcess rfl
  rw [hRun] at hClosed
  cases hClosed with
  | exited _ _ hFiles => exact ⟨s', hRun, hFiles⟩

end Utinydrm

------------------------------------------------------------
-- Answering Events
------------------------------------------------------------

namespace Utinydrm

variable {abi : UdrmAbi} {env : Env}

/- The messages of a round. -/
def Round.messages (round : Round) : List Message :=
  [.event round.data, .answer round.ret]

/- Every event has had its answer, but perhaps the last. -/
inductive Answered (rounds : List Round) : List Message → Prop
| all : Answered rounds (rounds.flatMap Round.messages)
| butLast (before : List Round) (round : Round) :
    rounds = before ++ [round] →
    Answered rounds
      (before.flatMap Round.messages ++ [.event round.data])

/- The events of the rounds are among the messages. -/
theorem Answered.mem_event
    {rounds : List Round} {messages : List Message}
    (hAnswered : Answered rounds messages)
    {round : Round} (hMem : round ∈ rounds) :
    .event round.data ∈ messages := by
  cases hAnswered with
  | all =>
      refine List.mem_flatMap.mpr ⟨round, hMem, ?_⟩
      simp [Round.messages]
  | butLast before last hRounds =>
      rw [hRounds] at hMem
      rcases List.mem_append.mp hMem with hBefore | hLast
      · refine List.mem_append_left _
          (List.mem_flatMap.mpr ⟨round, hBefore, ?_⟩)
        simp [Round.messages]
      · rw [List.mem_singleton.mp hLast]
        simp

@[simp] theorem traffic_append (calls more : List SysCall) :
    traffic (calls ++ more) = traffic calls ++ traffic more :=
  List.filterMap_append

theorem traffic_rounds (fd : Int) (rounds : List Round) :
    traffic (rounds.flatMap (Round.calls fd)) =
      rounds.flatMap Round.messages := by
  induction rounds with
  | nil => rfl
  | cons round rest ih =>
      rw [List.flatMap_cons, List.flatMap_cons, traffic_append,
        ih]
      rfl

/- How the last round adds to those before. -/
theorem LastRound.answered
    {fd : Int} {calls : List SysCall} {last : List Round}
    {code : Int} (hLast : LastRound fd calls last code)
    (rounds : List Round) :
    Answered (rounds ++ last)
      (rounds.flatMap Round.messages ++ traffic calls) := by
  cases hLast with
  | noEvent e =>
      simp only [traffic, SysCall.message, List.filterMap,
        List.append_nil]
      exact .all
  | noReply round e => exact .butLast rounds round rfl
  | hungUp round revents hEnds =>
      have hAll : Answered (rounds ++ [round])
          ((rounds ++ [round]).flatMap Round.messages) := .all
      rw [List.flatMap_append, List.flatMap_singleton] at hAll
      exact hAll

/-
  What the messages say of the events: they were handled in
  order, from some state of the driver, and each was answered
  with its own result before the next was read. Only a
  handler that faults leaves its event without an answer.
-/
def Serves
    (abi : UdrmAbi) (env : Env) (ev : Nat → UInt8) (w : World)
    (rounds : List Round) :
    EStateM.Result Fault Process (Option Int) → Prop
| .ok _ s' =>
    Answered rounds (traffic s'.calls) ∧
      WorldRuns abi env mainPanel ev w rounds s'.world
| .error e s' => ∃ data w',
    traffic s'.calls =
        rounds.flatMap Round.messages ++ [.event data] ∧
      WorldRuns abi env mainPanel ev w rounds w' ∧
      mainIteration abi env mainPanel (bufferAfter ev rounds)
        data w' = .error e s'.world

theorem LoopOutcome.serves
    {udev : Udev} {fuel : Nat} {ev : Nat → UInt8}
    {s : Process}
    {result : EStateM.Result Fault Process (Option Int)}
    (hQuiet : traffic s.calls = [])
    (hLoop : LoopOutcome abi env mainPanel udev fuel ev s
      result) :
    ∃ rounds, Serves abi env ev s.world rounds result := by
  cases hLoop with
  | running rounds s' _ hCalls hRuns =>
      refine ⟨rounds, ?_, hRuns⟩
      rw [hCalls, traffic_append, hQuiet, traffic_rounds,
        List.nil_append]
      exact .all
  | ended rounds last calls code s' _ hLast hCalls hRuns =>
      refine ⟨rounds ++ last, ?_, hRuns⟩
      have hClosing : traffic udev.closing = [] := rfl
      rw [hCalls, traffic_append, traffic_append,
        traffic_append, hQuiet, traffic_rounds, hClosing,
        List.nil_append, List.append_nil]
      exact hLast.answered rounds
  | faulted rounds data w e s' _ hCalls hRuns hHandled =>
      refine ⟨rounds, data, w, ?_, hRuns, hHandled⟩
      rw [hCalls, traffic_append, traffic_append, hQuiet,
        traffic_rounds, List.nil_append]
      rfl

end Utinydrm

------------------------------------------------------------
-- Events From Their Own Bytes
------------------------------------------------------------

namespace Utinydrm

variable {abi : UdrmAbi} {env : Env} {mipi : MipiDbi}
variable {buffer : Nat → UInt8}

/- The event of some bytes, and nothing that was read before. -/
def eventOfData (abi : UdrmAbi) (data : List UInt8) : Event :=
  parseEvent abi (readEvent (fun _ => 0) data)

/- The bytes hold the whole record they start. -/
def WholeEvent (abi : UdrmAbi) (data : List UInt8) : Prop :=
  CompleteRecord abi (readEvent (fun _ => 0) data) data.length

theorem readEvent_agree
    (buffer₁ buffer₂ : Nat → UInt8) (data : List UInt8) :
    ∀ i < data.length,
      readEvent buffer₁ data i = readEvent buffer₂ data i := by
  intro i hi
  simp [readEvent, List.getD_eq_getElem?_getD, hi]

/- A whole event is handled alike whatever was read before. -/
theorem utinydrmEvent_own
    (buffer : Nat → UInt8)
    {data : List UInt8} (hWhole : WholeEvent abi data) :
    utinydrmEvent env mipi
        (parseEvent abi (readEvent buffer data)) =
      utinydrmEvent env mipi (eventOfData abi data) :=
  (utinydrmEventBytes_congr env mipi
    (readEvent_agree (fun _ => 0) buffer data) hWhole).symm

theorem eventsOf_snoc
    (buffer : Nat → UInt8) (rounds : List Round)
    (round : Round) :
    eventsOf abi buffer (rounds ++ [round]) =
      eventsOf abi buffer rounds ++
        [(parseEvent abi (readEvent (bufferAfter buffer rounds)
          round.data), round.ret)] := by
  induction rounds generalizing buffer with
  | nil => rfl
  | cons first rest ih =>
      simp only [List.cons_append, eventsOf, ih, bufferAfter,
        List.foldl_cons]

/- What a server does that handles each event by itself. -/
def ServerStep
    (abi : UdrmAbi) (env : Env)
    (w : World) (round : Round) (w' : World) : Prop :=
  EventStep env mainPanel w
    (eventOfData abi round.data, round.ret) w'

/- A run of whole events is one of this server. -/
theorem serverRun_of_worldRuns
    {rounds : List Round} {w w' : World}
    (hWhole : ∀ round ∈ rounds, WholeEvent abi round.data)
    (hRuns : WorldRuns abi env mainPanel buffer w rounds w') :
    Transition.Run (ServerStep abi env) Transition.unguarded w
      rounds w' := by
  induction rounds using List.reverseRecOn generalizing w' with
  | nil =>
      rw [Transition.Run.eq_of_nil hRuns]
      exact .nil
  | append_singleton rounds round ih =>
      unfold WorldRuns at hRuns
      rw [eventsOf_snoc] at hRuns
      rcases hRuns.exists_of_snoc with ⟨w₁, hBefore, _, hStep⟩
      have hFirst := ih
        (fun r hr => hWhole r (List.mem_append_left _ hr))
        hBefore
      have hOwn := hWhole round (by simp)
      have hServed : ServerStep abi env w₁ round w' := by
        unfold ServerStep EventStep
        rw [← utinydrmEvent_own (bufferAfter buffer rounds)
          hOwn]
        exact hStep
      exact .snoc hFirst trivial hServed

/- A line that is low stays low when it is set low. -/
theorem World.afterGpio_low
    {w : World} {line : GpioLine}
    (hLow : w.level line = false) :
    (w.afterGpio env line false).level line = false := by
  simp only [World.afterGpio]
  split
  · rw [Function.update_self]
  · exact hLow

/- Setting the lines leaves a device that was probed. -/
theorem World.Probed.afterLines
    {w : World} (hProbed : w.Probed) (bufFd : Int) :
    World.Probed { w.afterLines env with bufFd } := by
  refine ⟨hProbed.fbs, hProbed.planeFb, hProbed.txBuf,
    hProbed.mspiTxBuf, hProbed.prepared, hProbed.enabled, ?_⟩
  apply World.afterGpio_low
  rw [World.afterGpio_level_ne (by decide),
    World.afterGpio_level_ne (by decide)]
  exact hProbed.led

/-
  When the kernel hands over whole events, `main` is a server
  that starts from a probed device and handles each event by
  itself, whatever it read before into the same buffer.
-/
theorem main_refines_server
    (abi : UdrmAbi) (sys : SysEnv) (env : Env)
    (ev : Nat → UInt8) (fuel : Nat) (s : Process)
    (hNone : deviceFiles s.calls = [])
    (hQuiet : traffic s.calls = [])
    (hProbed : s.world.Probed)
    (code : Option Int) (s' : Process)
    (hMain : mainCalls abi sys env ev fuel s = .ok code s')
    (hWhole : ∀ data, .event data ∈ traffic s'.calls →
      WholeEvent abi data) :
    (code = some 1 ∧ traffic s'.calls = []) ∨
      ∃ w rounds, w.Probed ∧
        Answered rounds (traffic s'.calls) ∧
        Transition.Run (ServerStep abi env)
          Transition.unguarded w rounds s'.world := by
  have hOutcome : MainOutcome abi env ev fuel s
      (mainCalls abi sys env ev fuel s) :=
    mainCalls_outcome ev fuel s hNone
  rw [hMain] at hOutcome
  cases hOutcome with
  | noDevice w _ hLeaves =>
      exact Or.inl ⟨rfl, hLeaves.quiet.trans hQuiet⟩
  | served udev bufFd s₁ _ hLeaves hLoop =>
      rcases hLoop.serves (hLeaves.quiet.trans hQuiet) with
        ⟨rounds, hAnswered, hRuns⟩
      rw [hLeaves.world] at hRuns
      have hOwn : ∀ round ∈ rounds,
          WholeEvent abi round.data :=
        fun round hMem => hWhole _ (hAnswered.mem_event hMem)
      exact Or.inr ⟨_, rounds, hProbed.afterLines bufFd,
        hAnswered, serverRun_of_worldRuns hOwn hRuns⟩

theorem main_refines_server_hangingUp :
    ∃ w rounds w', w.Probed ∧
      Answered rounds
        [.event [2, 0, 0, 0, 0, 0, 0, 0, 1, 0, 0, 0],
          .answer 0] ∧
      Transition.Run
        (ServerStep UdrmAbi.numbered Env.granting)
        Transition.unguarded w rounds w' := by
  rcases mainCalls_hangingUp with ⟨s', hRun, hTraffic⟩
  have hWhole : ∀ data, .event data ∈ traffic s'.calls →
      WholeEvent UdrmAbi.numbered data := by
    intro data hMem
    rw [hTraffic] at hMem
    simp only [List.mem_cons, Message.event.injEq,
      List.not_mem_nil, or_false] at hMem
    rcases hMem with rfl | hAnswer
    · exact ⟨by decide, by decide⟩
    · cases hAnswer
  rcases main_refines_server UdrmAbi.numbered
    SysEnv.hangingUp Env.granting (fun _ => 0) 3 freshProcess
    rfl rfl (World.probed_atProbe _) _ s' hRun hWhole with
    ⟨hCode, _⟩ | ⟨w, rounds, hProbed, hAnswered, hServer⟩
  · cases hCode
  · rw [hTraffic] at hAnswered
    exact ⟨w, rounds, s'.world, hProbed, hAnswered, hServer⟩

end Utinydrm
