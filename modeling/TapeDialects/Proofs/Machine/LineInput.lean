/-
Input line by line.

Each command of input that takes effect flushes the output and takes one line,
the next of those that are left, whatever the program has done before and
whether the character of the line fits into a cell or not.  Nothing else takes
bytes from the input, and nothing else flushes but the end of a run.  So the
number of commands of input that have taken effect says which lines are gone,
which one comes next, and how often the output has been flushed.
-/

import TapeDialects.Proofs.Machine.BrokenLine
import TapeDialects.Proofs.Machine.Ending
import TapeDialects.Proofs.Machine.Period
import TapeDialects.Proofs.Machine.Stepping
import TapeDialects.Proofs.Structured.Refinement
import TapeDialects.Proofs.Text.InputLine

namespace TapeDialects

namespace Tape

variable {settings : Settings} {tape : Tape}

structure Sets (value : Int) (before after : Tape) : Prop where
  pointer : after.pointer = before.pointer
  length : after.cells.size = before.cells.size
  current : after.cells[before.pointer]? = some value
  others : ∀ index, index ≠ before.pointer → after.cells[index]? = before.cells[index]?

theorem Sound.sets_write (sound : tape.Sound settings) (value : Int) :
    Sets value tape (tape.write value) :=
  { pointer := rfl
    length := Array.size_setIfInBounds
    current := by
      unfold Tape.write
      rw [Array.getElem?_setIfInBounds_self, if_pos sound.inside]
    others := by
      intro index other
      exact Array.getElem?_setIfInBounds_ne other.symm }

end Tape

/-- How a code is stored in the current cell: as it is, as the value that stands for it, or
not at all. -/
inductive Settings.Stores (settings : Settings) (code : Int) (before : Tape) :
    Option Fault → Tape → Prop where
  | fits {after : Tape} (low : code ≤ settings.maximum) (sets : before.Sets code after) :
      Stores settings code before none after
  | wraps {after : Tape} {value : Int} (beyond : settings.maximum < code)
      (wrapping : settings.wrapping = true) (low : settings.minimum ≤ value)
      (high : value ≤ settings.maximum)
      (congruent : value % (settings.maximum - settings.minimum + 1) =
        code % (settings.maximum - settings.minimum + 1))
      (sets : before.Sets value after) : Stores settings code before none after
  | fails (beyond : settings.maximum < code) (unwrapped : settings.wrapping = false) :
      Stores settings code before
        (some (.execution (.valueTooHigh code settings.maximum))) before

theorem Tape.Sound.stores {settings : Settings} {tape : Tape} (sound : tape.Sound settings)
    (character : Char) :
    settings.Stores character.toNat tape
      ((tape.storeCharacter settings character).error?.map Fault.execution)
      (tape.storeCharacter settings character).after := by
  have lowest := settings.minimum_nonpos
  unfold Tape.storeCharacter
  by_cases fits : (character.toNat : Int) ≤ settings.maximum
  · have kept : settings.clampHigh character.toNat = .ok (character.toNat : Int) := if_pos fits
    rw [kept]
    exact .fits fits (sound.sets_write _)
  · have beyond := Int.lt_of_not_ge fits
    cases wrapping : settings.wrapping with
    | true =>
        have low : settings.minimum ≤ character.toNat := by omega
        obtain ⟨value, clamped, represents⟩ := Settings.exists_clampHigh_eq (Or.inl wrapping) low
        rw [clamped]
        exact .wraps beyond wrapping represents.admitted.1 represents.admitted.2
          represents.congruent (sound.sets_write value)
    | false =>
        have refused : settings.clampHigh character.toNat =
            .error (.valueTooHigh character.toNat settings.maximum) := by
          unfold Settings.clampHigh
          rw [if_neg fits, wrapping]
          rfl
        rw [refused]
        exact .fails beyond wrapping

/-! ### Lines of consoles -/

namespace Console

variable {console other : Console} {input : Text} {count closings : Nat}

/-- So many lines of the input have been taken, with a flush for each of them, and so many
runs have come to their ends, with a flush for each of these. -/
structure HasRead (input : Text) (count closings : Nat) (console : Console) : Prop where
  faultless : console.Faultless
  left : ∃ left : Text, console.source.rest = left.encode ∧
    Text.lines left = (Text.lines input).drop count ∧
    console.source.consumed + left.size = input.size
  flushes : console.sink.flushes = count + closings

theorem ofStreams_hasRead (input : Text) :
    (ofStreams (Source.ofBytes input.encode none) (Sink.empty none none)).HasRead input 0 0 :=
  { faultless := ofStreams_faultless input
    left := ⟨input, rfl, rfl, Nat.zero_add _⟩
    flushes := rfl }

namespace HasRead

theorem of_same (read : console.HasRead input count closings)
    (faultless : other.Faultless) (source : other.source = console.source)
    (flushes : other.sink.flushes = console.sink.flushes) :
    other.HasRead input count closings :=
  { faultless
    left := by
      rw [source]
      exact read.left
    flushes := flushes.trans read.flushes }

theorem flushed (read : console.HasRead input count closings) :
    console.flushed.HasRead input count (closings + 1) :=
  { faultless := read.faultless.flushed
    left := read.left
    flushes := congrArg (· + 1) read.flushes }

theorem brokeLine (read : console.HasRead input count closings) :
    console.brokeLine.HasRead input count closings := by
  apply read.of_same read.faultless.brokeLine (source_brokeLine console)
  unfold Console.brokeLine
  split <;> rfl

theorem prompted (read : console.HasRead input count closings) :
    console.prompted.HasRead input (count + 1) closings := by
  obtain ⟨left, rest, lines, sized⟩ := read.left
  have taken : Source.firstLine console.source.rest = left.firstLine.encode := by
    rw [rest, Source.firstLine_encode]
  have same : console.prompted = console.flushed.consumed left.firstLine.size := by
    unfold Console.prompted Source.skipLine
    rw [taken, Text.length_encode]
    rfl
  rw [same]
  refine
    { faultless := read.faultless.flushed.consumed rest
      left := ⟨left.afterLine, Faultless.rest_consumed rest, ?lines, ?sized⟩
      flushes := ?flushes }
  case lines => rw [Text.lines_afterLine, lines, List.drop_drop]
  case sized =>
      have whole := congrArg Text.size left.firstLine_append_afterLine
      rw [Text.size_append] at whole
      change console.source.consumed + left.firstLine.size + left.afterLine.size = input.size
      omega
  case flushes =>
      change console.sink.flushes + 1 = count + 1 + closings
      rw [read.flushes]
      omega

theorem decode?_firstLine (read : console.HasRead input count closings) :
    Text.decode? (Source.firstLine console.source.rest) =
      some ((Text.lines input)[count]?.getD []) := by
  obtain ⟨left, rest, lines, -⟩ := read.left
  have next : left.firstLine = (Text.lines input)[count]?.getD [] := by
    rw [Text.firstLine_eq_head, lines, List.headD_eq_head?_getD, List.head?_drop]
  rw [rest, Source.firstLine_encode, Text.decode?_encode, next]

theorem rest_eq (read : console.HasRead input count closings) :
    console.source.rest = Text.encode ((Text.lines input).drop count).flatten := by
  obtain ⟨left, rest, lines, -⟩ := read.left
  rw [rest, ← lines, Text.flatten_lines]

theorem consumed_eq (read : console.HasRead input count closings) :
    console.source.consumed = Text.size ((Text.lines input).take count).flatten := by
  obtain ⟨left, -, lines, sized⟩ := read.left
  have whole : ((Text.lines input).take count).flatten ++ left = input := by
    rw [← Text.flatten_lines left, lines, ← List.flatten_append, List.take_append_drop,
      Text.flatten_lines]
  have parts := congrArg Text.size whole
  rw [Text.size_append] at parts
  omega

end HasRead

theorem Writes.flushes_after {act : Console → Outcome StreamError Console}
    (writes : Writes act) (console : Console) :
    (act console).after.sink.flushes = console.sink.flushes := by
  have written : ∀ (text : Text) (midLine : Bool) (console : Console),
      (console.write text midLine).after.sink.flushes = console.sink.flushes := by
    intro text midLine console
    rcases write_cases text midLine console with done | ⟨bytes, -, failed⟩
    · rw [done]
      rfl
    · rw [failed]
      rfl
  cases writes with
  | put character => exact written _ _ console
  | say message =>
      rw [Console.say]
      rcases breakLine_cases console with broke | ⟨bytes, failed⟩
      · rw [broke, Outcome.bind_done, written]
        unfold brokeLine
        split <;> rfl
      · rw [failed]
        rfl

end Console

namespace State

variable {settings : Settings} {state : State} {input : Text} {count closings : Nat}

theorem error?_onTape (act : Tape → Outcome ExecutionError Tape) (state : State) :
    (state.onTape act).error? = (act state.tape).error?.map Fault.execution := by
  cases state with
  | mk tape console =>
      unfold onTape
      simp only
      cases act tape <;> rfl

theorem input_eq_of_hasRead (settings : Settings)
    (read : state.console.HasRead input count closings) :
    state.input settings = (state.rewired Console.prompted).onTape
      (Tape.storeCharacter settings
        (Text.inputCharacter ((Text.lines input)[count]?.getD []))) :=
  input_eq_of_unlimited state read.faultless.flushLimit read.faultless.limit
    read.decode?_firstLine

theorem unread_of_ne_input {command : Command} (other : command ≠ .input)
    (settings : Settings) (state : State) :
    (state.perform settings command).after.console.source = state.console.source ∧
      (state.perform settings command).after.console.sink.flushes =
        state.console.sink.flushes := by
  cases state with
  | mk tape console =>
      rcases perform_cases other settings tape with ⟨act, acts⟩ | ⟨act, writes, acts⟩
      · rw [acts, console_after_onTape]
        exact ⟨rfl, rfl⟩
      · rw [acts, console_after_onConsole]
        exact ⟨writes.source_after console, writes.flushes_after console⟩

end State

namespace Machine

variable {settings : Settings} {program : Program} {machine final : Machine}
  {input : Text} {count closings : Nat} {ended : Bool} {ending : Ending}

/-! ### How often input takes effect -/

def inputs (program : Program) (machine : Machine) : Nat :=
  match program.effective machine.cursor with
  | .ok .input => 1
  | _ => 0

def inputsFor (settings : Settings) (program : Program) : Nat → Machine → Nat
  | 0, _ => 0
  | fuel + 1, machine =>
      if machine.running then
        machine.inputs program +
          match machine.step settings program with
          | .done later => inputsFor settings program fuel later
          | .failed _ _ => 0
      else
        0

/-- Calls lead to the machine from a fresh one on the input.  Commands of input have taken
effect so many times on the way, and a run has come to its end or not. -/
inductive Reads (settings : Settings) (program : Program) (input : Text) :
    Nat → Bool → Machine → Prop where
  | fresh :
      Reads settings program input 0 false
        (initial settings (Source.ofBytes input.encode none) (Sink.empty none none))
  | step {count : Nat} {ended : Bool} {machine : Machine}
      (reached : Reads settings program input count ended machine)
      (inside : machine.cursor < program.size) :
      Reads settings program input (count + machine.inputs program) ended
        (machine.step settings program).after
  | run {count fuel : Nat} {ended : Bool} {machine later : Machine} {ending : Ending}
      (reached : Reads settings program input count ended machine)
      (ran : machine.run settings program fuel = some (ending, later)) :
      Reads settings program input (count + machine.inputsFor settings program fuel)
        (ended || machine.running) later

theorem inputs_of_ne_input (other : program.effective machine.cursor ≠ .ok .input) :
    machine.inputs program = 0 := by
  unfold inputs
  split
  · next reading => exact absurd reading other
  · rfl

theorem error?_step_of_plain {command : Command}
    (effect : program.effective machine.cursor = .ok command) (plain : command.IsPlain) :
    (machine.step settings program).error? =
      (machine.state.perform settings command).error? := by
  cases performed : machine.state.perform settings command with
  | done state =>
      rw [step_done_of_plain effect plain performed]
      rfl
  | failed fault state =>
      rw [step_failed_of_plain effect plain performed]
      rfl

theorem step_hasRead (settings : Settings) (program : Program)
    (read : machine.state.console.HasRead input count closings) :
    (machine.step settings program).after.state.console.HasRead input
      (count + machine.inputs program) closings := by
  have faultless : (machine.step settings program).after.state.console.Faultless :=
    step_faultless read.faultless settings program
  by_cases reading : program.effective machine.cursor = .ok .input
  · have once : machine.inputs program = 1 := by
      unfold inputs
      rw [reading]
    rw [once, state_after_step reading, State.perform, State.input_eq_of_hasRead settings read,
      State.console_after_onTape]
    exact read.prompted
  · rw [inputs_of_ne_input reading]
    cases effect : program.effective machine.cursor with
    | error fault =>
        rw [step_of_error effect]
        exact read
    | ok command =>
        have other : command ≠ .input := by
          intro same
          rw [effect, same] at reading
          exact reading rfl
        rw [state_after_step effect] at faultless ⊢
        obtain ⟨source, flushes⟩ := State.unread_of_ne_input other settings machine.state
        exact read.of_same faultless source flushes

theorem runFor_hasRead {fuel : Nat} (sound : machine.Sound settings program)
    (read : machine.state.console.HasRead input count closings)
    (ran : machine.runFor settings program fuel = some (ending, final)) :
    final.state.console.HasRead input (count + machine.inputsFor settings program fuel)
        (closings + 1) ∧
      final.running = false := by
  induction fuel generalizing machine count with
  | zero => cases ran
  | succ fuel ih =>
      rw [inputsFor]
      cases running : machine.running with
      | false =>
          rw [runFor_succ_of_halted running, finish_eq read.faultless] at ran
          cases ran
          exact ⟨read.flushed, running⟩
      | true =>
          have kept := step_hasRead settings program read
          have inside := sound.inside running
          have soundBehind := (step_sound sound inside).1
          rw [if_pos rfl]
          rcases runFor_succ_cases running ran with ⟨later, stepped, further⟩ |
            ⟨error, later, stepped, reported⟩ | ⟨error, stepped, -⟩ | ⟨stepped, -⟩
          · rw [stepped] at kept soundBehind
            simp only [stepped]
            rw [← Nat.add_assoc]
            exact ih soundBehind kept further
          · rw [stepped, Outcome.after_failed] at kept
            have takes : later.state.console.TakesAll :=
              ⟨kept.faultless.capacity, kept.faultless.flushLimit⟩
            rw [TakesAll.report_eq takes] at reported
            cases reported
            simp only [stepped]
            exact ⟨kept.brokeLine.flushed, rfl⟩
          · exact absurd stepped (step_ne_stream read.faultless error final)
          · exact absurd stepped (step_ne_offProgram read.faultless inside final)

theorem Reads.sound (reached : Reads settings program input count ended machine) :
    machine.Sound settings program := by
  induction reached with
  | fresh => exact initial_sound settings program _ _
  | step _ inside ih => exact (step_sound ih inside).1
  | run _ ran ih => exact (run_sound ih ran).1

theorem Reads.hasRead (reached : Reads settings program input count ended machine) :
    machine.state.console.HasRead input count (if ended then 1 else 0) ∧
      (ended = true → machine.running = false) := by
  induction reached with
  | fresh => exact ⟨Console.ofStreams_hasRead input, nofun⟩
  | step reached inside ih =>
      obtain ⟨read, halts⟩ := ih
      refine ⟨step_hasRead settings program read, ?_⟩
      intro closed
      exact (step_sound reached.sound inside).2 (halts closed)
  | @run count fuel ended machine later ending reached ran ih =>
      obtain ⟨read, halts⟩ := ih
      cases running : machine.running with
      | false =>
          have none : machine.inputsFor settings program fuel = 0 := by
            cases fuel with
            | zero => rfl
            | succ fuel =>
                rw [inputsFor, running]
                rfl
          rw [run_of_halted running] at ran
          cases ran
          rw [none, Bool.or_false]
          exact ⟨read, fun _ => running⟩
      | true =>
          have going : ended = false := by
            cases closed : ended with
            | false => rfl
            | true =>
                rw [halts closed] at running
                cases running
          rw [run_of_running running] at ran
          rw [going] at read ⊢
          obtain ⟨behind, halted⟩ := runFor_hasRead reached.sound read ran
          exact ⟨behind, fun _ => halted⟩

/-! ### What the count of inputs tells -/

structure ReadsByLine (settings : Settings) (program : Program) (input : Text) (count : Nat)
    (ended : Bool) (machine : Machine) : Prop where
  /-- As many lines are gone, all of them if there are no more. -/
  consumed : machine.state.console.source.consumed =
    Text.size ((Text.lines input).take count).flatten
  rest : machine.state.console.source.rest =
    Text.encode ((Text.lines input).drop count).flatten
  flushes : machine.state.console.sink.flushes = count + if ended then 1 else 0
  /-- If the next step is one of input, it stores the one character that the next line is
  read as. -/
  next : program.effective machine.cursor = .ok .input →
    ∃ character : Char,
      (∀ other, Text.ReadAs ((Text.lines input)[count]?.getD []) other ↔ other = character) ∧
      settings.Stores character.toNat machine.state.tape
        (machine.step settings program).error?
        (machine.step settings program).after.state.tape

theorem step_input_stores (sound : machine.Sound settings program)
    (read : machine.state.console.HasRead input count closings)
    (reading : program.effective machine.cursor = .ok .input) :
    settings.Stores (Text.inputCharacter ((Text.lines input)[count]?.getD [])).toNat
      machine.state.tape (machine.step settings program).error?
      (machine.step settings program).after.state.tape := by
  have stores := sound.tape.stores
    (Text.inputCharacter ((Text.lines input)[count]?.getD []))
  rw [error?_step_of_plain reading (by decide), state_after_step reading, State.perform,
    State.input_eq_of_hasRead settings read, State.error?_onTape, State.tape_after_onTape]
  exact stores

theorem Reads.readsByLine (reached : Reads settings program input count ended machine) :
    ReadsByLine settings program input count ended machine := by
  obtain ⟨read, -⟩ := reached.hasRead
  exact
    { consumed := read.consumed_eq
      rest := read.rest_eq
      flushes := read.flushes
      next := fun reading =>
        ⟨_, fun _ => Text.readAs_iff, step_input_stores reached.sound read reading⟩ }

def inputTwice : Program :=
  Program.ofInstructions ",,".toList
    [.startingAt 0 .input [','], .startingAt 1 .again [',']]

/-- The letter of the second line has a code that no cell can hold, and its line is gone
all the same. -/
theorem inputTwice_readsByLine :
    ∃ machine : Machine,
      Reads Program.twoStrictCells inputTwice "A\r\n ж\nB".toList 2 false machine ∧
        machine.cursor = 2 ∧
        machine.state.tape.cells = #[65, 0] ∧
        machine.state.console.source.consumed = 7 ∧
        ReadsByLine Program.twoStrictCells inputTwice "A\r\n ж\nB".toList 2 false
          machine := by
  have begun : Reads Program.twoStrictCells inputTwice "A\r\n ж\nB".toList 0 false _ := .fresh
  have entered := begun.step (by decide)
  have first := entered.step (by decide)
  have second := first.step (by decide)
  exact ⟨_, second, rfl, rfl, rfl, Reads.readsByLine second⟩

end Machine
end TapeDialects
