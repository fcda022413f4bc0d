/-
Failing steps.

Whatever makes a step fail, cursor, tape and the running flag stay as they were.
A step that fails by an execution error has done nothing at all, unless it reads
input: then the output has been flushed and input may be gone.  So a machine
that cannot go on for such an error never can.  A stream error may leave part of
a text on the output; the record of being in the middle of a line is changed
only by a message whose line break has come through.
-/

import TapeDialects.Machine.Stretch
import TapeDialects.Proofs.Machine.Effect
import TapeDialects.Proofs.Machine.Session
import TapeDialects.Proofs.Machine.Step

namespace TapeDialects

namespace Tape

variable {settings : Settings} {tape later : Tape} {error : ExecutionError}

theorem eq_of_moveRight_failed (failed : tape.moveRight settings = .failed error later) :
    later = tape := by
  unfold moveRight at failed
  split at failed
  · cases failed
  · split at failed
    · cases failed
    · cases failed
      rfl

theorem eq_of_moveLeft_failed (failed : tape.moveLeft settings = .failed error later) :
    later = tape := by
  unfold moveLeft at failed
  split at failed
  · cases failed
  · split at failed
    · cases failed
    · cases failed
      rfl

theorem eq_of_store_failed {clamped : Except ExecutionError Int}
    (failed : tape.store clamped = .failed error later) : later = tape := by
  cases clamped with
  | ok value => cases failed
  | error error =>
      cases failed
      rfl

end Tape

namespace State

structure FailedSafely (command : Command) (fault : Fault) (state later : State) : Prop where
  tape : later.tape = state.tape
  unchanged : ∀ error, fault = .execution error → command ≠ .input → later = state
  reads : command = .input → ∃ count,
    later = { state with console := state.console.flushed.consumed count }
  breaksLine : later.console.midLine ≠ state.console.midLine →
    (state.console.midLine = true ∧ later.console.midLine = false) ∧
      command.message?.isSome = true ∧
      ∃ bytes : List UInt8,
        later.console.sink.written = state.console.sink.written.push lineFeed ++ bytes

variable {settings : Settings} {command : Command} {fault : Fault} {state later : State}

theorem FailedSafely.of_unchanged (unread : command ≠ .input) :
    FailedSafely command fault state state :=
  { tape := rfl
    unchanged := fun _ _ _ => rfl
    reads := fun reading => absurd reading unread
    breaksLine := fun changed => absurd rfl changed }

theorem eq_of_onTape_failed {act : Tape → Outcome ExecutionError Tape}
    (keeps : ∀ error tape, act state.tape = .failed error tape → tape = state.tape)
    (failed : state.onTape act = .failed fault later) : later = state := by
  cases state with
  | mk tape console =>
      unfold onTape at failed
      simp only at failed keeps
      cases acted : act tape with
      | done tape =>
          rw [acted] at failed
          cases failed
      | failed error kept =>
          rw [acted] at failed
          cases failed
          rw [keeps error kept acted]

theorem of_onConsole_failed {act : Console → Outcome StreamError Console}
    (failed : state.onConsole act = .failed fault later) :
    ∃ error console, act state.console = .failed error console ∧
      fault = .stream error ∧ later = { state with console } := by
  cases state with
  | mk tape console =>
      unfold onConsole at failed
      simp only at failed
      cases acted : act console with
      | done console =>
          rw [acted] at failed
          cases failed
      | failed error console =>
          rw [acted] at failed
          cases failed
          exact ⟨error, console, rfl, rfl, rfl⟩

theorem output_failedSafely (failed : state.output = .failed fault later) :
    FailedSafely .output fault state later := by
  unfold output at failed
  cases shown : state.tape.character? with
  | none =>
      rw [shown] at failed
      cases failed
      exact .of_unchanged (by decide)
  | some character =>
      rw [shown] at failed
      obtain ⟨error, console, acted, same, left⟩ := of_onConsole_failed failed
      rcases Console.write_cases [character] (character != '\n') state.console with
        done | ⟨bytes, -, cut⟩
      · rw [Console.put, done] at acted
        cases acted
      · rw [Console.put, cut] at acted
        cases acted
        subst same left
        exact
          { tape := rfl
            unchanged := fun error caused => by cases caused
            reads := fun reading => by cases reading
            breaksLine := fun changed => absurd rfl changed }

theorem of_readCell_failed (failed : state.readCell settings = .failed fault later) :
    ∃ count, later = { state with console := state.console.consumed count } := by
  obtain ⟨count, taken⟩ := state.console.readLine_consumes
  refine ⟨count, ?_⟩
  cases state with
  | mk tape console =>
      unfold readCell at failed
      simp only at failed taken ⊢
      cases read : console.readLine with
      | mk line left =>
          rw [read] at failed taken
          rw [← taken]
          cases line with
          | ok line => exact eq_of_onTape_failed (fun _ _ => Tape.eq_of_store_failed) failed
          | error error =>
              cases failed
              rfl

theorem input_failedSafely (failed : state.input settings = .failed fault later) :
    FailedSafely .input fault state later := by
  have left : ∃ count,
      later = { state with console := state.console.flushed.consumed count } := by
    unfold input onConsole at failed
    simp only at failed
    rcases state.console.flush_cases with done | refused
    · rw [done] at failed
      have unread : readCell settings { state with console := state.console.flushed } =
          .failed fault later := failed
      exact of_readCell_failed unread
    · rw [refused] at failed
      cases failed
      exact ⟨0, rfl⟩
  obtain ⟨count, same⟩ := left
  subst same
  exact
    { tape := rfl
      unchanged := fun _ _ unread => absurd rfl unread
      reads := fun _ => ⟨count, rfl⟩
      breaksLine := fun changed => absurd rfl changed }

theorem say_failedSafely {message : String} (unread : command ≠ .input)
    (worded : command.message? = some message)
    (failed : state.onConsole (Console.say message) = .failed fault later) :
    FailedSafely command fault state later := by
  obtain ⟨error, console, acted, same, left⟩ := of_onConsole_failed failed
  subst same left
  refine
    { tape := rfl
      unchanged := nofun
      reads := fun reading => absurd reading unread
      breaksLine := ?_ }
  intro changed
  obtain ⟨bytes, cut | cut⟩ := Console.kept_of_say_failed acted
  · rw [cut] at changed
    exact absurd rfl changed
  · by_cases midLine : state.console.midLine
    · rw [Console.brokeLine, if_pos midLine] at cut
      rw [cut]
      exact ⟨⟨midLine, rfl⟩, by rw [worded]; rfl, bytes, rfl⟩
    · rw [Console.brokeLine, if_neg midLine] at cut
      rw [cut] at changed
      exact absurd rfl changed

theorem perform_failedSafely (failed : state.perform settings command = .failed fault later) :
    FailedSafely command fault state later := by
  have onTape : ∀ act : Tape → Outcome ExecutionError Tape, command ≠ .input →
      (∀ error tape, act state.tape = .failed error tape → tape = state.tape) →
        state.onTape act = .failed fault later → FailedSafely command fault state later := by
    intro act unread keeps acted
    rw [eq_of_onTape_failed keeps acted]
    exact .of_unchanged unread
  cases command with
  | right => exact onTape _ nofun (fun _ _ => Tape.eq_of_moveRight_failed) failed
  | left => exact onTape _ nofun (fun _ _ => Tape.eq_of_moveLeft_failed) failed
  | increment => exact onTape _ nofun (fun _ _ => Tape.eq_of_store_failed) failed
  | decrement => exact onTape _ nofun (fun _ _ => Tape.eq_of_store_failed) failed
  | output => exact output_failedSafely failed
  | input => exact input_failedSafely failed
  | giveFishfood => exact say_failedSafely nofun rfl failed
  | giveBanana => exact say_failedSafely nofun rfl failed
  | start => cases failed
  | stop => cases failed
  | loopOpen => cases failed
  | loopClose => cases failed
  | again => cases failed

end State

namespace Machine

variable {settings : Settings} {program : Program} {machine later : Machine}
  {fault : Fault}

theorem step_failed_cases (failed : machine.step settings program = .failed fault later) :
    (later = machine ∧ program.effective machine.cursor ≠ .ok .input) ∨
      ∃ command state,
        program.effective machine.cursor = .ok command ∧
        machine.state.perform settings command = .failed fault state ∧
        later = { machine with state } := by
  rcases unperformed_or_perform_failed failed with ⟨same, unperformed⟩ | performed
  · refine Or.inl ⟨same, ?_⟩
    intro reading
    rw [reading] at unperformed
    rcases unperformed with other | ⟨other, -⟩
    · cases other
    · cases other
  · exact Or.inr performed

theorem unmoved_of_step_failed (failed : machine.step settings program = .failed fault later) :
    later.state.tape = machine.state.tape ∧ later.cursor = machine.cursor := by
  rcases step_failed_cases failed with ⟨same, -⟩ | ⟨command, state, -, performed, same⟩
  · rw [same]
    exact ⟨rfl, rfl⟩
  · rw [same]
    exact ⟨(State.perform_failedSafely performed).tape, rfl⟩

theorem exists_console_of_execution {error : ExecutionError}
    (failed : machine.step settings program = .failed (.execution error) later) :
    later.state.console = machine.state.console ∨
      ∃ count, later.state.console = machine.state.console.flushed.consumed count := by
  rcases step_failed_cases failed with ⟨same, -⟩ | ⟨command, state, -, performed, same⟩
  · rw [same]
    exact Or.inl rfl
  · have safe := State.perform_failedSafely performed
    rw [same]
    by_cases reading : command = .input
    · obtain ⟨count, left⟩ := safe.reads reading
      rw [left]
      exact Or.inr ⟨count, rfl⟩
    · rw [safe.unchanged error rfl reading]
      exact Or.inl rfl

theorem session_of_step_failed (failed : machine.step settings program = .failed fault machine)
    (count : Nat) :
    machine.session settings program (List.replicate count .step) =
      List.replicate count (.failed fault, machine) := by
  induction count with
  | zero => rfl
  | succ count ih =>
      rw [List.replicate_succ, List.replicate_succ, session, call?, failed]
      simp only
      rw [ih]

structure FailedSafely (settings : Settings) (program : Program) (machine : Machine)
    (fault : Fault) (later : Machine) : Prop where
  cursor : later.cursor = machine.cursor
  tape : later.state.tape = machine.state.tape
  running : later.running = machine.running
  /-- For an execution error outside of input nothing changes, however often it is tried. -/
  repeats : ∀ error, fault = .execution error →
    program.effective machine.cursor ≠ .ok .input →
      later = machine ∧ ∀ count,
        later.session settings program (List.replicate count .step) =
          List.replicate count (.failed fault, later)
  /-- A failed input has been counted as a flush and may have taken bytes. -/
  reads : program.effective machine.cursor = .ok .input → ∃ count,
    later = { machine with
      state := { machine.state with
        console := machine.state.console.flushed.consumed count } }
  /-- The record of the open line changes by a message only, behind its line break. -/
  breaksLine : later.state.console.midLine ≠ machine.state.console.midLine →
    (machine.state.console.midLine = true ∧ later.state.console.midLine = false) ∧
      (∃ command, program.effective machine.cursor = .ok command ∧
        command.message?.isSome = true) ∧
      ∃ bytes : List UInt8, later.state.console.sink.written =
        machine.state.console.sink.written.push lineFeed ++ bytes

theorem step_failedSafely (failed : machine.step settings program = .failed fault later) :
    machine.FailedSafely settings program fault later := by
  rcases step_failed_cases failed with
    ⟨same, unread⟩ | ⟨command, state, effect, performed, same⟩
  · subst same
    exact
      { cursor := rfl
        tape := rfl
        running := rfl
        repeats := fun _ _ _ => ⟨rfl, session_of_step_failed failed⟩
        reads := fun reading => absurd reading unread
        breaksLine := fun changed => absurd rfl changed }
  · have safe := State.perform_failedSafely performed
    refine
      { cursor := ?cursor
        tape := ?tape
        running := ?running
        repeats := ?repeats
        reads := ?reads
        breaksLine := ?breaksLine }
    case cursor => rw [same]
    case tape =>
        rw [same]
        exact safe.tape
    case running => rw [same]
    case repeats =>
        intro error caused unread
        have unreading : command ≠ .input := by
          intro reading
          rw [effect, reading] at unread
          exact unread rfl
        have unchanged : later = machine := by
          rw [same, safe.unchanged error caused unreading]
        rw [unchanged] at failed ⊢
        exact ⟨rfl, session_of_step_failed failed⟩
    case reads =>
        intro reading
        rw [effect] at reading
        obtain ⟨count, left⟩ := safe.reads (Except.ok.inj reading)
        exact ⟨count, by rw [same, left]⟩
    case breaksLine =>
        intro changed
        rw [same] at changed ⊢
        obtain ⟨turned, worded, written⟩ := safe.breaksLine changed
        exact ⟨turned, ⟨command, effect, worded⟩, written⟩

def oneCell : Settings :=
  { Settings.standard with
    tapeLength := 1
    tapeLength_pos := by decide
    tapeLength_lt := by decide }

def messageBehindOutput : Program :=
  Program.ofInstructions [] [.startingAt 0 .output [], .startingAt 0 .giveBanana []]

/-- An output of two bytes takes the character and the line break of the message. -/
theorem messageBehindOutput_failedSafely :
    ∃ later : Machine,
      ((initial oneCell (Source.ofBytes [] none) (Sink.empty (some 2) none)).stretch
          oneCell messageBehindOutput 2).machine.step oneCell messageBehindOutput =
        .failed (.stream .writeFailed) later ∧
      later.state.console.midLine = false ∧
      ((initial oneCell (Source.ofBytes [] none) (Sink.empty (some 2) none)).stretch
          oneCell messageBehindOutput 2).machine.FailedSafely oneCell messageBehindOutput
        (.stream .writeFailed) later :=
  ⟨_, rfl, rfl, step_failedSafely rfl⟩

end Machine
end TapeDialects
