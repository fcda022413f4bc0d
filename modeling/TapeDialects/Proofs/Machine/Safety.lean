/-
No check fails at a machine that steps and runs can reach.

A search for the partner of a loop command counts at most the instructions it
has passed, and goes on only while its count is positive, so the count is never
taken below zero.  Going forward it meets the mark of the stop before it leaves
the program, and going backward the mark of the start.
-/

import TapeDialects.Proofs.Machine.Arithmetic
import TapeDialects.Proofs.Machine.Failure
import TapeDialects.Proofs.Machine.Reachable

namespace TapeDialects

namespace Program

variable {program : Program} {index depth : Nat} {command : Command}

theorem count?_of_eq {value : Int} {number : Nat} (same : value = number)
    (bounded : number ≤ program.size) : program.count? value = some number := by
  unfold count?
  rw [if_pos (by omega), same, Int.toNat_natCast]

theorem word?_of_count? (represented : program.size < UInt64.size) (value : Int)
    (number : Nat) (counted : program.count? value = some number) :
    word? value = some number := by
  unfold count? at counted
  split at counted
  · next fits =>
      cases counted
      exact word?_of_eq (by omega) (by omega)
  · cases counted

theorem checkedDepthAfter_eq (room : depth < program.size)
    (opened : command = .loopClose → 0 < depth) :
    program.checkedDepthAfter command depth = some (command.depthAfter depth) ∧
      command.depthAfter depth ≤ depth + 1 := by
  cases command with
  | loopOpen =>
      rw [checkedDepthAfter, Command.depthAfter]
      exact ⟨count?_of_eq (by omega) room, Nat.le_refl _⟩
  | loopClose =>
      rw [checkedDepthAfter, Command.depthAfter]
      have positive := opened rfl
      exact ⟨count?_of_eq (by omega) (by omega), by omega⟩
  | _ => exact ⟨rfl, Nat.le_succ depth⟩

theorem checkedDepthBefore_eq (room : depth < program.size)
    (closed : command = .loopOpen → 0 < depth) :
    program.checkedDepthBefore command depth = some (command.depthBefore depth) ∧
      command.depthBefore depth ≤ depth + 1 := by
  cases command with
  | loopClose =>
      rw [checkedDepthBefore, Command.depthBefore]
      exact ⟨count?_of_eq (by omega) room, Nat.le_refl _⟩
  | loopOpen =>
      rw [checkedDepthBefore, Command.depthBefore]
      have positive := closed rfl
      exact ⟨count?_of_eq (by omega) (by omega), by omega⟩
  | _ => exact ⟨rfl, Nat.le_succ depth⟩

theorem checkedExitFrom_eq {ahead : Nat} (inside : index < program.size)
    (reaching : index + ahead = program.size) (shallow : depth ≤ index)
    (opened : program.command? index = some .loopClose → 0 < depth) :
    program.checkedExitFrom ahead index depth =
      some (program.exitFrom ahead index depth) := by
  induction ahead generalizing index depth with
  | zero => omega
  | succ ahead ih =>
      obtain ⟨command, found⟩ := exists_command?_of_lt program inside
      rw [checkedExitFrom, found]
      simp only [Option.bind_eq_bind, Option.bind_some]
      by_cases marked : command = .stop
      · subst marked
        have positive := pos_of_ne_start found nofun
        rw [if_pos rfl, exitFrom_succ_of_stop found]
        exact count?_of_eq (by omega) (by omega)
      · have room := succ_lt_size_of_ne_stop found marked
        have counted : program.checkedDepthAfter command depth =
            some (command.depthAfter depth) ∧ command.depthAfter depth ≤ depth + 1 := by
          apply checkedDepthAfter_eq (by omega)
          intro same
          exact opened (by rw [found, same])
        rw [if_neg marked, exitFrom_succ found marked, counted.1, Option.bind_some]
        split
        · rfl
        · next deep =>
            have next : program.count? (index + 1) = some (index + 1) :=
              count?_of_eq (by omega) (by omega)
            rw [next, Option.bind_some]
            apply ih room
            · omega
            · omega
            · intro closes
              exact Nat.pos_of_ne_zero deep

theorem checkedEntryFrom_eq (inside : index < program.size)
    (shallow : index + depth < program.size)
    (closed : program.command? index = some .loopOpen → 0 < depth) :
    program.checkedEntryFrom index depth = some (program.entryFrom? index depth) := by
  induction index generalizing depth with
  | zero =>
      rw [checkedEntryFrom, command?_zero]
      rfl
  | succ index ih =>
      obtain ⟨command, found⟩ := exists_command?_of_lt program inside
      rw [checkedEntryFrom, found]
      simp only [Option.bind_eq_bind, Option.bind_some]
      by_cases marked : command = .start
      · subst marked
        rw [if_pos rfl, entryFrom?_succ_of_start found]
      · have counted : program.checkedDepthBefore command depth =
            some (command.depthBefore depth) ∧ command.depthBefore depth ≤ depth + 1 := by
          apply checkedDepthBefore_eq (by omega)
          intro same
          exact closed (by rw [found, same])
        rw [if_neg marked, entryFrom?_succ found marked, counted.1, Option.bind_some]
        split
        · rfl
        · next deep =>
            apply ih
            · omega
            · omega
            · intro opens
              exact Nat.pos_of_ne_zero deep

theorem checkedRepeated_eq (bounded : index ≤ program.size) :
    program.checkedRepeated index = some (program.repeated? index) := by
  induction index with
  | zero => rfl
  | succ index ih =>
      obtain ⟨command, found⟩ := exists_command?_of_lt program bounded
      rw [checkedRepeated, repeated?, found]
      simp only [Option.bind_eq_bind, Option.bind_some]
      cases command with
      | again => exact ih (Nat.le_of_lt bounded)
      | _ => rfl

theorem checkedEffective_eq (inside : index < program.size) :
    program.checkedEffective index = some (program.effective index) := by
  obtain ⟨command, found⟩ := exists_command?_of_lt program inside
  rw [checkedEffective, effective, found]
  simp only [Option.bind_eq_bind, Option.bind_some]
  cases command with
  | again =>
      rw [if_pos rfl, checkedRepeated_eq (Nat.le_of_lt inside), Option.bind_some]
      cases program.repeated? index <;> rfl
  | _ => rfl

/-- A search from a command that takes effect starts at the command itself, or
at a repetition of it, which counts for nothing. -/
theorem checkedLoopExit_eq (inside : index < program.size)
    (effect : program.effective index = .ok .loopOpen) :
    program.checkedLoopExit index = some (program.loopExit index) := by
  apply checkedExitFrom_eq inside
  · omega
  · exact Nat.zero_le index
  · intro closes
    exact absurd closes (command?_ne_of_effective effect nofun nofun)

theorem checkedLoopEntry_eq (inside : index < program.size)
    (effect : program.effective index = .ok .loopClose) :
    program.checkedEntryFrom index 0 = some (program.loopEntry? index) := by
  apply checkedEntryFrom_eq inside inside
  intro opens
  exact absurd opens (command?_ne_of_effective effect nofun nofun)

end Program

namespace Machine

variable {settings : Settings} {program : Program} {machine : Machine}

theorem checkedCarryOut_plain {command : Command} (plain : command.IsPlain) :
    machine.checkedCarryOut settings program command =
      (machine.state.checkedPerform settings command).bind fun outcome =>
        some (outcome.map fun state => { machine with state }) := by
  obtain ⟨unstopping, unopening, unclosing⟩ := plain
  cases command with
  | stop => exact absurd rfl unstopping
  | loopOpen => exact absurd rfl unopening
  | loopClose => exact absurd rfl unclosing
  | _ => rfl

theorem checkedCarryOut_eq (sound : machine.Sound settings program)
    (inside : machine.cursor < program.size) {command : Command}
    (effect : program.effective machine.cursor = .ok command) :
    machine.checkedCarryOut settings program command =
      some (machine.carryOut settings program command) := by
  have current := sound.tape.checkedCurrent_eq
  cases command with
  | stop => rfl
  | loopOpen =>
      rw [checkedCarryOut, current]
      simp only [Option.bind_eq_bind, Option.bind_some]
      by_cases zero : machine.state.tape.current = 0
      · rw [if_pos zero, Program.checkedLoopExit_eq inside effect, Option.bind_some,
          carryOut_loopOpen_of_zero zero]
      · rw [if_neg zero, carryOut_loopOpen_of_ne_zero zero]
  | loopClose =>
      rw [checkedCarryOut, current]
      simp only [Option.bind_eq_bind, Option.bind_some]
      by_cases zero : machine.state.tape.current = 0
      · rw [if_pos zero, carryOut_loopClose_of_zero zero]
      · rw [if_neg zero, Program.checkedLoopEntry_eq inside effect, Option.bind_some]
        cases found : program.loopEntry? machine.cursor with
        | none => rw [carryOut_loopClose_of_none zero found]
        | some entry => rw [carryOut_loopClose_of_some zero found]
  | _ =>
      rw [checkedCarryOut_plain (by decide), State.checkedPerform_eq sound.tape,
        Option.bind_some, carryOut_plain (by decide)]

theorem checkedStep_eq (sound : machine.Sound settings program)
    (inside : machine.cursor < program.size) :
    machine.checkedStep settings program = some (machine.step settings program) := by
  have stepped := (step_sound sound inside).1
  unfold checkedStep
  rw [Program.checkedEffective_eq inside]
  simp only [Option.bind_eq_bind, Option.bind_some]
  cases effect : program.effective machine.cursor with
  | error fault => rw [step_of_error effect]
  | ok command =>
      rw [step_of_ok effect] at stepped ⊢
      simp only
      rw [checkedCarryOut_eq sound inside effect, Option.bind_some]
      cases outcome : machine.carryOut settings program command with
      | failed fault later => rfl
      | done later =>
          rw [outcome] at stepped
          have bounded : later.cursor + 1 ≤ program.size := stepped.cursor_le
          have advanced : program.count? (later.cursor + 1) = some (later.cursor + 1) :=
            Program.count?_of_eq (by omega) bounded
          simp only
          rw [advanced]
          rfl

theorem checkedReport_eq (inside : machine.cursor < program.size) (error : ExecutionError) :
    machine.checkedReport program error = some (machine.report program error) := by
  obtain ⟨instruction, found⟩ := Program.exists_instruction?_of_lt program inside
  rcases exists_after_onConsole (fun console => console.breakLine.bind Console.flush)
      { machine with running := false } with ⟨console, kept⟩
  unfold checkedReport report
  simp only
  cases outcome : onConsole (fun console => console.breakLine.bind Console.flush)
      { machine with running := false } with
  | failed streamError later => rfl
  | done later =>
      rw [outcome, Outcome.after_done] at kept
      have here : later.cursor = machine.cursor := by rw [kept]
      rw [← here] at found
      simp only [diagnostic?, found, Option.bind_eq_bind, Option.bind_some]
      cases Diagnostic.of? program.text instruction.lexeme instruction.span
        later.state.tape.pointer error.message <;> rfl

theorem checkedRunFor_eq (sound : machine.Sound settings program) (fuel : Nat) :
    machine.checkedRunFor settings program fuel =
      some (machine.runFor settings program fuel) := by
  induction fuel generalizing machine with
  | zero => rfl
  | succ fuel ih =>
      rw [checkedRunFor, runFor]
      split
      · next running =>
          have inside := sound.inside running
          have stepped := (step_sound sound inside).1
          rw [checkedStep_eq sound inside]
          simp only [Option.bind_eq_bind, Option.bind_some]
          cases outcome : machine.step settings program with
          | done later =>
              rw [outcome] at stepped
              exact ih stepped
          | failed fault later =>
              have same := cursor_of_step_failed inside outcome
              cases fault with
              | execution error =>
                  simp only
                  rw [checkedReport_eq (by omega) error]
                  rfl
              | stream error => rfl
              | offProgram => rfl
      · rfl

theorem checkedRun_eq (sound : machine.Sound settings program) (fuel : Nat) :
    machine.checkedRun settings program fuel = some (machine.run settings program fuel) := by
  have sized : program.size = program.length + 2 := rfl
  have counted : program.count? (program.size - 2) = some program.length :=
    Program.count?_of_eq (by omega) (by omega)
  unfold checkedRun run
  split
  · rw [counted]
    exact checkedRunFor_eq sound fuel
  · rfl

/-- Tape and cursor are where they should be, a machine that has stopped stays
so, and the next step or run meets no access outside of tape and program, and no
sum outside of its word, however long it goes on. -/
structure Safe (settings : Settings) (program : Program) (machine : Machine) : Prop where
  length : machine.state.tape.cells.size = settings.tapeLength
  cells : ∀ value ∈ machine.state.tape.cells,
    settings.minimum ≤ value ∧ value ≤ settings.maximum
  pointer_lt : machine.state.tape.pointer < settings.tapeLength
  cursor_le : machine.cursor ≤ program.size
  ended : machine.cursor = program.size → machine.running = false
  step_halted : machine.running = false → machine.cursor < program.size →
    (machine.step settings program).after.running = false
  run_halted : machine.running = false → ∀ fuel ending later,
    machine.run settings program fuel = some (ending, later) → later.running = false
  step_checked : machine.cursor < program.size →
    machine.checkedStep settings program = some (machine.step settings program)
  run_checked : ∀ fuel,
    machine.checkedRun settings program fuel = some (machine.run settings program fuel)
  /-- Where the number of instructions is a word, all that is counted up to it is one. -/
  counts_checked : program.size < UInt64.size → ∀ value number,
    program.count? value = some number → word? value = some number

theorem safe_of_reachable (reached : Reachable settings program machine) :
    machine.Safe settings program := by
  have sound := reached.sound
  refine
    { length := sound.tape.length
      cells := sound.tape.admitted
      pointer_lt := sound.tape.pointer_lt
      cursor_le := sound.cursor_le
      ended := sound.halted
      step_halted := ?stepHalted
      run_halted := ?runHalted
      step_checked := checkedStep_eq sound
      run_checked := checkedRun_eq sound
      counts_checked := Program.word?_of_count? }
  case stepHalted =>
      intro halted inside
      exact (step_sound sound inside).2 halted
  case runHalted =>
      intro halted fuel ending later ended
      exact (run_sound sound ended).2 halted

def outputTwiceAndStop : Program :=
  Program.ofInstructions []
    [.startingAt 0 .decrement [], .startingAt 0 .output [], .startingAt 0 .output [],
      .startingAt 0 .stop [], .startingAt 0 .again []]

def boundless : StreamLimits :=
  { capacity? := none, flushLimit? := none, sourceLimit? := none }

/-- The second character is cut inside, and written in full on an output that has room again.
The machine has then stopped inside the program, where it may still be told to step. -/
theorem haltedBehindRetry_safe :
    ∃ failed halted : Machine,
      (initial oneCell (Source.ofBytes [] none) (Sink.empty (some 3) none)).run oneCell
          outputTwiceAndStop 8 = some (.interrupted .writeFailed, failed) ∧
        failed.state.console.sink.written = #[0xC3, 0xBF, 0xC3] ∧
        (failed.relimited boundless).run oneCell outputTwiceAndStop 8 =
          some (.stopped, halted) ∧
        halted.state.console.sink.written = #[0xC3, 0xBF, 0xC3, 0xC3, 0xBF] ∧
        halted.running = false ∧ halted.cursor < outputTwiceAndStop.size ∧
        halted.Safe oneCell outputTwiceAndStop := by
  have ran : ∃ failed halted : Machine,
      (initial oneCell (Source.ofBytes [] none) (Sink.empty (some 3) none)).run oneCell
          outputTwiceAndStop 8 = some (.interrupted .writeFailed, failed) ∧
        failed.state.console.sink.written = #[0xC3, 0xBF, 0xC3] ∧
        (failed.relimited boundless).run oneCell outputTwiceAndStop 8 =
          some (.stopped, halted) ∧
        halted.state.console.sink.written = #[0xC3, 0xBF, 0xC3, 0xC3, 0xBF] ∧
        halted.running = false ∧ halted.cursor < outputTwiceAndStop.size :=
    ⟨_, _, rfl, rfl, rfl, rfl, rfl, by decide⟩
  obtain ⟨failed, halted, cut, kept, ended, written, stopped, inside⟩ := ran
  have reached : Reachable oneCell outputTwiceAndStop halted :=
    .run (.relimited (.run (.fresh _ _) cut) boundless) ended
  exact ⟨failed, halted, cut, kept, ended, written, stopped, inside, safe_of_reachable reached⟩

end Machine
end TapeDialects
