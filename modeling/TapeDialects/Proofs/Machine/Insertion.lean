/-
Runs of programs with further commands in front of a place.

A machine and its companion, whose program has the further commands, take the
same steps as long as the cursor of the one has moved to that of the other.  At
the place itself the companion may be in front of the further commands.  It
catches up with the machine by carrying them out, if they lead back to a tape
that is like that of the machine.
-/

import TapeDialects.Proofs.Dialect.Translation
import TapeDialects.Proofs.Loop.Insertion
import TapeDialects.Proofs.Machine.Bisimilar
import TapeDialects.Proofs.Machine.Companion
import TapeDialects.Proofs.Structured.Refinement

namespace TapeDialects

/-- Both runs reach the stop, or both report, with the same message and with pointers that
differ by a shift. -/
inductive Ending.Corresponds (shift : Nat → Nat) : Ending → Ending → Prop where
  | stopped : Corresponds shift .stopped .stopped
  | reported {diagnostic other : Diagnostic} (message : other.message = diagnostic.message)
      (pointer : other.pointer = shift diagnostic.pointer) :
      Corresponds shift (.reported diagnostic) (.reported other)

theorem State.Beside.faultless {alike : Tape → Tape → Prop} {state other : State}
    (beside : state.Beside alike other) (faultless : state.Faultless) : other.Faultless := by
  unfold State.Faultless
  rw [beside.console]
  exact faultless

namespace Machine

/-- What the ends of two runs have in common: all of the console, that is, the bytes
written and read and the number of flushes, and the tape as far as it is alike. -/
structure EndsLike (alike : Tape → Tape → Prop) (shift : Nat → Nat)
    (result answer : Ending × Machine) : Prop where
  ending : result.1.Corresponds shift answer.1
  tape : alike result.2.state.tape answer.2.state.tape
  console : answer.2.state.console = result.2.state.console

structure RunsLike (settings : Settings) (program other : Program)
    (alike : Tape → Tape → Prop) (shift : Nat → Nat) (input : Text) : Prop where
  ends_iff :
    (∃ fuel result, (onInput settings input).run settings program fuel = some result) ↔
      ∃ fuel result, (onInput settings input).run settings other fuel = some result
  agrees : ∀ fuel result otherFuel answer,
    (onInput settings input).run settings program fuel = some result →
    (onInput settings input).run settings other otherFuel = some answer →
      EndsLike alike shift result answer

/-- Two machines with the same console and with tapes that are alike, and with cursors
at places that belong together. -/
structure Beside (settings : Settings) (program : Program) (alike : Tape → Tape → Prop)
    (places : Nat → Nat → Prop) (machine companion : Machine) : Prop where
  sound : machine.Sound settings program
  faultless : machine.state.Faultless
  state : machine.state.Beside alike companion.state
  cursor : places machine.cursor companion.cursor
  running : companion.running = machine.running

variable {settings : Settings} {program other : Program} {machine companion : Machine}
  {alike : Tape → Tape → Prop} {shift : Nat → Nat} {places : Nat → Nat → Prop}

theorem runsLike_of_answered {beside : Machine → Machine → Prop} {input : Text}
    (answered : ∀ {machine companion : Machine}, beside machine companion →
      Answered settings program other beside (EndsLike alike shift) machine companion)
    (here : beside (onInput settings input) (onInput settings input)) :
    RunsLike settings program other alike shift input := by
  have running : (onInput settings input).running = true := rfl
  refine { ends_iff := ?endsIff, agrees := ?agrees }
  case endsIff =>
      simp only [run_of_running running]
      constructor
      · rintro ⟨fuel, result, ran⟩
        obtain ⟨otherFuel, answer, ended, -⟩ := exists_answer_of_runFor answered here ran
        exact ⟨otherFuel, answer, ended⟩
      · rintro ⟨fuel, answer, ran⟩
        obtain ⟨otherFuel, result, ended, -⟩ := exists_run_of_answer answered here ran
        exact ⟨otherFuel, result, ended⟩
  case agrees =>
      intro fuel result otherFuel answer ran otherRan
      rw [run_of_running running] at ran otherRan
      exact alike_of_answered answered here ran otherRan

theorem Beside.endsLike_finish
    (beside : Beside settings program alike places machine companion) :
    EndsLike alike shift machine.finish companion.finish := by
  rw [finish_eq beside.faultless, finish_eq (beside.state.faultless beside.faultless)]
  exact
    { ending := .stopped
      tape := beside.state.tape
      console := congrArg Console.flushed beside.state.console }

theorem endsLike_report (sliceable : program.Sliceable) (otherSliceable : other.Sliceable)
    (shifts : ∀ {tape another : Tape}, alike tape another →
      another.pointer = shift tape.pointer)
    (state : machine.state.Beside alike companion.state)
    (faultless : machine.state.Faultless) (inside : machine.cursor < program.size)
    (otherInside : companion.cursor < other.size) (error : ExecutionError) :
    EndsLike alike shift (machine.report program error) (companion.report other error) := by
  obtain ⟨instruction, found⟩ := Program.exists_instruction?_of_lt program inside
  obtain ⟨another, otherFound⟩ := Program.exists_instruction?_of_lt other otherInside
  obtain ⟨excerpt, placed⟩ := sliceable.diagnostic?_eq found error
  obtain ⟨otherExcerpt, otherPlaced⟩ := otherSliceable.diagnostic?_eq otherFound error
  rw [report_eq faultless placed, report_eq (state.faultless faultless) otherPlaced]
  exact
    { ending := .reported rfl (shifts state.tape)
      tape := state.tape
      console := congrArg (fun console => console.brokeLine.flushed) state.console }

variable {front : Nat} {inserted : List Command}

abbrev Abreast (settings : Settings) (program : Program) (alike : Tape → Tape → Prop)
    (front width : Nat) : Machine → Machine → Prop :=
  Beside settings program alike fun index another =>
    another = Program.moved front width index

theorem carryOut_beside (inserts : program.Inserts front inserted other)
    (bisimilar : Tape.Bisimilar settings alike) (inside : machine.cursor < program.size)
    (state : machine.state.Beside alike companion.state)
    (cursor : companion.cursor = Program.moved front inserted.length machine.cursor)
    (running : companion.running = machine.running) (command : Command) :
    (∃ next later, machine.carryOut settings program command = .done next ∧
        companion.carryOut settings other command = .done later ∧
        next.state.Beside alike later.state ∧
        Program.Follows front inserted.length (next.cursor + 1) (later.cursor + 1) ∧
        later.running = next.running) ∨
      ∃ fault next later, machine.carryOut settings program command = .failed fault next ∧
        companion.carryOut settings other command = .failed fault later ∧
        next.state.Beside alike later.state := by
  have current := bisimilar.current state.tape
  have follows : Program.Follows front inserted.length (machine.cursor + 1)
      (companion.cursor + 1) := by
    rw [cursor]
    exact Program.follows_succ
  by_cases plain : command.IsPlain
  · rw [carryOut_plain plain, carryOut_plain plain]
    have performed := state.perform bisimilar command
    generalize machine.state.perform settings command = outcome at performed ⊢
    generalize companion.state.perform settings command = another at performed ⊢
    cases performed with
    | done same => exact Or.inl ⟨_, _, rfl, rfl, same, follows, running⟩
    | failed same => exact Or.inr ⟨_, _, _, rfl, rfl, same⟩
  · cases command with
    | stop => exact Or.inl ⟨_, _, rfl, rfl, state, follows, rfl⟩
    | loopOpen =>
        by_cases zero : machine.state.tape.current = 0
        · have leaves := inserts.loopExit_follows inside
          rw [← cursor] at leaves
          rw [carryOut_loopOpen_of_zero zero, carryOut_loopOpen_of_zero (current.trans zero)]
          exact Or.inl ⟨_, _, rfl, rfl, state, leaves, running⟩
        · have nonzero : companion.state.tape.current ≠ 0 := by
            rw [current]
            exact zero
          rw [carryOut_loopOpen_of_ne_zero zero, carryOut_loopOpen_of_ne_zero nonzero]
          exact Or.inl ⟨_, _, rfl, rfl, state, follows, running⟩
    | loopClose =>
        by_cases zero : machine.state.tape.current = 0
        · rw [carryOut_loopClose_of_zero zero,
            carryOut_loopClose_of_zero (current.trans zero)]
          exact Or.inl ⟨_, _, rfl, rfl, state, follows, running⟩
        · have nonzero : companion.state.tape.current ≠ 0 := by
            rw [current]
            exact zero
          have entry := inserts.loopEntry?_moved machine.cursor
          rw [← cursor] at entry
          cases found : program.loopEntry? machine.cursor with
          | none =>
              rw [found] at entry
              rw [carryOut_loopClose_of_none zero found,
                carryOut_loopClose_of_none nonzero entry]
              exact Or.inr ⟨_, _, _, rfl, rfl, state⟩
          | some opening =>
              rw [found] at entry
              rw [carryOut_loopClose_of_some zero found,
                carryOut_loopClose_of_some nonzero entry]
              exact Or.inl ⟨_, _, rfl, rfl, state, Program.follows_succ, running⟩
    | _ => exact absurd (by decide) plain

theorem step_beside (inserts : program.Inserts front inserted other)
    (bisimilar : Tape.Bisimilar settings alike)
    (beside : Abreast settings program alike front inserted.length machine companion)
    (running : machine.running = true) :
    (∃ next later, machine.step settings program = .done next ∧
        companion.step settings other = .done later ∧
        Beside settings program alike (Program.Follows front inserted.length) next later) ∨
      ∃ error next later, machine.step settings program = .failed (.execution error) next ∧
        companion.step settings other = .failed (.execution error) later ∧
        next.state.Beside alike later.state := by
  have inside := beside.sound.inside running
  have sound := (step_sound beside.sound inside).1
  have faultless := step_faultless beside.faultless settings program
  have same : other.effective companion.cursor = program.effective machine.cursor := by
    rw [beside.cursor]
    exact inserts.effective_moved machine.cursor
  cases effect : program.effective machine.cursor with
  | error fault =>
      rw [effect] at same
      have failed : machine.step settings program = .failed fault machine :=
        step_of_error effect
      obtain ⟨error, rfl⟩ := exists_execution_of_step_failed beside.faultless inside failed
      exact Or.inr ⟨error, _, _, failed, step_of_error same, beside.state⟩
  | ok command =>
      rw [effect] at same
      rcases carryOut_beside inserts bisimilar inside beside.state beside.cursor
        beside.running command with
        ⟨next, later, carried, otherCarried, state, follows, alsoRunning⟩ |
        ⟨fault, next, later, failed, otherFailed, state⟩
      · have stepped : machine.step settings program = .done next.advance := by
          rw [step_of_ok effect, carried]
          rfl
        have otherStepped : companion.step settings other = .done later.advance := by
          rw [step_of_ok same, otherCarried]
          rfl
        rw [stepped] at sound faultless
        exact Or.inl ⟨_, _, stepped, otherStepped,
          { sound, faultless, state, cursor := follows, running := alsoRunning }⟩
      · have stepped : machine.step settings program = .failed fault next := by
          rw [step_of_ok effect, failed]
          rfl
        have otherStepped : companion.step settings other = .failed fault later := by
          rw [step_of_ok same, otherFailed]
          rfl
        obtain ⟨error, rfl⟩ :=
          exists_execution_of_step_failed beside.faultless inside stepped
        exact Or.inr ⟨error, next, later, stepped, otherStepped, state⟩

theorem answered_of_abreast {beside : Machine → Machine → Prop} {origin : Machine}
    {count : Nat} (inserts : program.Inserts front inserted other)
    (bisimilar : Tape.Bisimilar settings alike)
    (shifts : ∀ {tape another : Tape}, alike tape another →
      another.pointer = shift tape.pointer)
    (sliceable : program.Sliceable) (otherSliceable : other.Sliceable)
    (abreast : Abreast settings program alike front inserted.length machine companion)
    (running : machine.running = true)
    (reached : origin.stepped? settings other count = some companion)
    (goesOn : origin.RunningBefore settings other count)
    (comes : ∀ {next later : Machine}, machine.step settings program = .done next →
      Beside settings program alike (Program.Follows front inserted.length) next later →
        beside next later) :
    Answered settings program other beside (EndsLike alike shift) machine origin := by
  have alsoRunning : companion.running = true := abreast.running.trans running
  rcases step_beside inserts bisimilar abreast running with
    ⟨next, later, stepped, otherStepped, behind⟩ |
    ⟨error, next, later, stepped, otherStepped, state⟩
  · have further := stepped?_succ reached otherStepped
    exact .moves running stepped further (goesOn.succ reached alsoRunning)
      (comes stepped behind)
  · have inside := abreast.sound.inside running
    have otherInside : companion.cursor < other.size := by
      rw [abreast.cursor]
      exact inserts.moved_lt_size inside
    have faultless := step_faultless abreast.faultless settings program
    rw [stepped] at faultless
    have here := (unmoved_of_step_failed stepped).2
    have otherHere := (unmoved_of_step_failed otherStepped).2
    have ended : machine.runFor settings program 1 = some (next.report program error) :=
      runFor_succ_of_execution running stepped 0
    have otherEnded : origin.runFor settings other (count + 1) =
        some (later.report other error) := by
      rw [runFor_add_of_stepped? reached goesOn]
      exact runFor_succ_of_execution alsoRunning otherStepped 0
    rw [← here] at inside
    rw [← otherHere] at otherInside
    exact .ends ended otherEnded
      (endsLike_report sliceable otherSliceable shifts state faultless inside otherInside
        error)

theorem answered_of_halted {behind : Machine → Machine → Prop}
    (beside : Beside settings program alike places machine companion)
    (halted : machine.running = false) :
    Answered settings program other behind (EndsLike alike shift) machine companion :=
  .ends (runFor_succ_of_halted halted 0)
    (runFor_succ_of_halted (beside.running.trans halted) 0) beside.endsLike_finish

end Machine
end TapeDialects
