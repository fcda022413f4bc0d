/-
The causes of execution errors.

Each error is met under one condition only: the errors of the pointer at the ends
of a tape that is not looped, those of the values at the bounds of cells that do
not wrap, that of the output at a value that is no character, and the two errors
of the program where its loops or its first instruction make no sense.  So a
program whose loops are never closed before they are opened, and that does not
begin with a repetition, meets no error at all on a looped tape of unsigned cells
that wrap below the first surrogate.
-/

import TapeDialects.Proofs.Loop.Repetition
import TapeDialects.Proofs.Machine.Reachable
import TapeDialects.Proofs.Machine.Stepping

namespace TapeDialects

/-- Some front of the instructions closes more loops than it opens. -/
def ClosesTooMany (instructions : List Instruction) : Prop :=
  ∃ count, ((instructions.take count).map Instruction.command).count .loopOpen <
    ((instructions.take count).map Instruction.command).count .loopClose

/-- What an execution error tells of the instructions, of the command that has
taken effect and of the tape that it has been met on. -/
def ExecutionError.Cause (settings : Settings) (instructions : List Instruction)
    (effect : Except Fault Command) (tape : Tape) : ExecutionError → Prop
  | pointerTooHigh pointer last =>
      settings.looped = false ∧ pointer = settings.tapeLength ∧
        last = settings.tapeLength - 1
  | pointerTooLow => settings.looped = false ∧ tape.pointer = 0
  | valueTooHigh value maximum =>
      settings.wrapping = false ∧ maximum = settings.maximum ∧ settings.maximum < value ∧
        (effect ≠ .ok .input → value = settings.maximum + 1)
  | valueTooLow value minimum =>
      settings.wrapping = false ∧ minimum = settings.minimum ∧
        value = settings.minimum - 1
  | outOfUnicodeRange value =>
      value = tape.current ∧
        (value < 0 ∨ (0xD800 ≤ value ∧ value ≤ 0xDFFF) ∨ 0x10FFFF ≤ value)
  | unmatchedLoopClose => ClosesTooMany instructions
  | noPreviousCommand =>
      ∃ first rest, instructions = first :: rest ∧ first.command = .again

namespace Tape

variable {settings : Settings} {tape later : Tape} {error : ExecutionError}

theorem of_moveRight_failed (sound : tape.Sound settings)
    (failed : tape.moveRight settings = .failed error later) :
    settings.looped = false ∧
      error = .pointerTooHigh settings.tapeLength (settings.tapeLength - 1) := by
  have within := sound.pointer_lt
  unfold moveRight at failed
  split at failed
  · cases failed
  · next last =>
      split at failed
      · cases failed
      · next unlooped =>
          have reached : tape.pointer + 1 = settings.tapeLength := by omega
          rw [reached] at failed
          cases failed
          exact ⟨Bool.eq_false_iff.mpr unlooped, rfl⟩

theorem of_moveLeft_failed (failed : tape.moveLeft settings = .failed error later) :
    settings.looped = false ∧ tape.pointer = 0 ∧ error = .pointerTooLow := by
  unfold moveLeft at failed
  split at failed
  · cases failed
  · next first =>
      split at failed
      · cases failed
      · next unlooped =>
          cases failed
          exact ⟨Bool.eq_false_iff.mpr unlooped, Nat.eq_zero_of_not_pos first, rfl⟩

theorem of_store_failed {clamped : Except ExecutionError Int}
    (failed : tape.store clamped = .failed error later) : clamped = .error error := by
  cases clamped with
  | ok value => cases failed
  | error error =>
      cases failed
      rfl

theorem of_increment_failed (sound : tape.Sound settings)
    (failed : tape.increment settings = .failed error later) :
    settings.wrapping = false ∧
      error = .valueTooHigh (settings.maximum + 1) settings.maximum := by
  have high := sound.current_admitted.2
  obtain ⟨⟨unwrapped, beyond⟩, same⟩ :=
    Settings.clampHigh_eq_error_iff.mp (of_store_failed failed)
  have next : tape.current + 1 = settings.maximum + 1 := by omega
  rw [next] at same
  exact ⟨unwrapped, same⟩

theorem of_decrement_failed (sound : tape.Sound settings)
    (failed : tape.decrement settings = .failed error later) :
    settings.wrapping = false ∧
      error = .valueTooLow (settings.minimum - 1) settings.minimum := by
  have low := sound.current_admitted.1
  obtain ⟨⟨unwrapped, below⟩, same⟩ :=
    Settings.clampLow_eq_error_iff.mp (of_store_failed failed)
  have next : tape.current - 1 = settings.minimum - 1 := by omega
  rw [next] at same
  exact ⟨unwrapped, same⟩

theorem unwritable_of_character?_eq_none (missing : tape.character? = none) :
    tape.current < 0 ∨ (0xD800 ≤ tape.current ∧ tape.current ≤ 0xDFFF) ∨
      0x10FFFF ≤ tape.current := by
  unfold character? at missing
  simp only at missing
  split at missing
  · cases missing
  · next outside =>
      unfold unicodeBound Nat.isValidChar at outside
      omega

end Tape

namespace State

variable {settings : Settings} {command : Command} {state later : State}
  {error : ExecutionError}

theorem of_onTape_failed {act : Tape → Outcome ExecutionError Tape}
    (failed : state.onTape act = .failed (.execution error) later) :
    ∃ tape, act state.tape = .failed error tape := by
  cases state with
  | mk tape console =>
      unfold onTape at failed
      simp only at failed ⊢
      cases acted : act tape with
      | done kept =>
          rw [acted] at failed
          cases failed
      | failed reason kept =>
          rw [acted] at failed
          cases failed
          exact ⟨kept, rfl⟩

theorem onConsole_ne_execution (act : Console → Outcome StreamError Console) :
    state.onConsole act ≠ .failed (.execution error) later := by
  intro failed
  obtain ⟨reason, console, -, same, -⟩ := of_onConsole_failed failed
  cases same

theorem of_output_failed (failed : state.output = .failed (.execution error) later) :
    state.tape.character? = none ∧ error = .outOfUnicodeRange state.tape.current := by
  unfold output at failed
  split at failed
  · exact absurd failed (onConsole_ne_execution _)
  · next missing =>
      cases failed
      exact ⟨missing, rfl⟩

theorem of_input_failed (failed : state.input settings = .failed (.execution error) later) :
    ∃ character : Char, settings.clampHigh character.toNat = .error error := by
  unfold input at failed
  cases flushed : state.onConsole Console.flush with
  | failed fault kept =>
      rw [flushed, Outcome.bind_failed] at failed
      cases failed
      exact absurd flushed (onConsole_ne_execution _)
  | done kept =>
      rw [flushed, Outcome.bind_done] at failed
      cases kept with
      | mk tape console =>
          unfold readCell at failed
          simp only at failed
          split at failed
          · obtain ⟨tape, stored⟩ := of_onTape_failed failed
            exact ⟨_, Tape.of_store_failed stored⟩
          · cases failed

theorem perform_failed_cause (sound : state.tape.Sound settings)
    (failed : state.perform settings command = .failed (.execution error) later)
    (instructions : List Instruction) :
    error.Cause settings instructions (.ok command) state.tape := by
  cases command with
  | right =>
      obtain ⟨tape, moved⟩ := of_onTape_failed failed
      obtain ⟨unlooped, same⟩ := Tape.of_moveRight_failed sound moved
      rw [same]
      exact ⟨unlooped, rfl, rfl⟩
  | left =>
      obtain ⟨tape, moved⟩ := of_onTape_failed failed
      obtain ⟨unlooped, first, same⟩ := Tape.of_moveLeft_failed moved
      rw [same]
      exact ⟨unlooped, first⟩
  | increment =>
      obtain ⟨tape, raised⟩ := of_onTape_failed failed
      obtain ⟨unwrapped, same⟩ := Tape.of_increment_failed sound raised
      rw [same]
      exact ⟨unwrapped, rfl, Int.lt_succ settings.maximum, fun _ => rfl⟩
  | decrement =>
      obtain ⟨tape, lowered⟩ := of_onTape_failed failed
      obtain ⟨unwrapped, same⟩ := Tape.of_decrement_failed sound lowered
      rw [same]
      exact ⟨unwrapped, rfl, rfl⟩
  | output =>
      obtain ⟨missing, same⟩ := of_output_failed failed
      rw [same]
      exact ⟨rfl, Tape.unwritable_of_character?_eq_none missing⟩
  | input =>
      obtain ⟨character, clamped⟩ := of_input_failed failed
      obtain ⟨⟨unwrapped, beyond⟩, same⟩ := Settings.clampHigh_eq_error_iff.mp clamped
      rw [same]
      exact ⟨unwrapped, rfl, beyond, fun unread => absurd rfl unread⟩
  | giveFishfood => exact absurd failed (onConsole_ne_execution _)
  | giveBanana => exact absurd failed (onConsole_ne_execution _)
  | start => cases failed
  | stop => cases failed
  | loopOpen => cases failed
  | loopClose => cases failed
  | again => cases failed

end State

namespace Program

variable {text : Text} {instructions : List Instruction} {index : Nat}

theorem height_ofInstructions_succ (text : Text) (bounded : index ≤ instructions.length) :
    (ofInstructions text instructions).height (index + 1) =
      Command.totalRise ((instructions.take index).map Instruction.command) := by
  have listed : (ofInstructions text instructions).commands =
      .start :: (instructions.map Instruction.command ++ [.stop]) := by
    simp [commands, Program.instructions, ofInstructions, startMark, stopMark]
  rw [height, listed, List.take_succ_cons, List.take_append_of_le_length (by simpa),
    Command.totalRise, List.map_take]
  exact Int.zero_add _

/-- Without a partner a closing has been reached by closing more than was opened. -/
theorem closesTooMany_of_loopEntry?_eq_none (unmarked : Unmarked instructions)
    (closes : (ofInstructions text instructions).command? index = some .loopClose)
    (missing : loopEntry? (ofInstructions text instructions) index = none) :
    ClosesTooMany instructions := by
  have bounded := le_length_of_loopClose closes
  rcases exists_opening_or_above closes with ⟨opening, partners⟩ | above
  · rw [loopEntry?_eq_of_opensAt unmarked partners.opensAt] at missing
    cases missing
  · have low := above 0 (Nat.zero_le index)
    have start : (ofInstructions text instructions).height 0 = 0 := rfl
    rw [start, height_ofInstructions_succ text bounded, Command.totalRise_eq_count] at low
    exact ⟨index, by omega⟩

theorem head_again_of_repeated?_eq_none (unmarked : Unmarked instructions)
    (again : (ofInstructions text instructions).command? index = some .again)
    (missing : (ofInstructions text instructions).repeated? index = none) :
    ∃ first rest, instructions = first :: rest ∧ first.command = .again := by
  have inside := succ_lt_size_of_ne_stop again nofun
  rw [size_ofInstructions] at inside
  obtain ⟨index, rfl⟩ : ∃ before, index = before + 1 :=
    ⟨index - 1, (Nat.sub_add_cancel (pos_of_ne_start again nofun)).symm⟩
  have bounded : index < instructions.length := by omega
  rw [command?_succ_eq_some_iff bounded] at again
  rw [repeated?_succ_eq_lastDirect? text unmarked (Nat.le_of_lt bounded)] at missing
  cases instructions with
  | nil => exact absurd bounded (Nat.not_lt_zero index)
  | cons first rest =>
      refine ⟨first, rest, rfl, ?_⟩
      cases index with
      | zero => exact again
      | succ index =>
          exact Instruction.command_of_lastDirect?_eq_none missing List.mem_cons_self

end Program
namespace Machine

variable {settings : Settings} {program : Program} {machine later : Machine}
  {error : ExecutionError} {text : Text} {instructions : List Instruction}

theorem unrepeatable_of_effective_error {index : Nat}
    (effect : program.effective index = .error (.execution error)) :
    error = .noPreviousCommand ∧ program.command? index = some .again ∧
      program.repeated? index = none := by
  unfold Program.effective at effect
  split at effect
  · cases effect
  · next again =>
      cases repeats : program.repeated? index with
      | some command =>
          rw [repeats] at effect
          cases effect
      | none =>
          rw [repeats] at effect
          cases effect
          exact ⟨rfl, again, rfl⟩
  · cases effect

theorem step_failed_cause (unmarked : Unmarked instructions)
    (sound : machine.Sound settings (Program.ofInstructions text instructions))
    (failed : machine.step settings (Program.ofInstructions text instructions) =
      .failed (.execution error) later) :
    error.Cause settings instructions
      ((Program.ofInstructions text instructions).effective machine.cursor)
      machine.state.tape := by
  rcases unperformed_or_perform_failed failed with
    ⟨-, effect | ⟨closing, missing, same⟩⟩ | ⟨command, state, effect, performed, -⟩
  · obtain ⟨same, again, missing⟩ := unrepeatable_of_effective_error effect
    rw [same]
    exact Program.head_again_of_repeated?_eq_none unmarked again missing
  · cases same
    -- A repetition would have found itself as the start of its loop.
    rcases Program.command?_of_effective closing with found | again
    · exact Program.closesTooMany_of_loopEntry?_eq_none unmarked found missing
    · rw [Program.loopEntry?_eq_of_again again] at missing
      cases missing
  · rw [effect]
    exact State.perform_failed_cause sound.tape performed instructions

theorem Reachable.of_stepped? {count : Nat} (reached : Reachable settings program machine)
    (steps : machine.stepped? settings program count = some later)
    (running : machine.RunningBefore settings program count) :
    Reachable settings program later := by
  refine holds_of_stepped? ?_ reached steps running
  intro before behind known goesOn stepped
  have next := Reachable.step known (known.sound.inside goesOn)
  rw [stepped] at next
  exact next

/-- The instructions and the settings leave no error a cause. -/
structure Sturdy (settings : Settings) (instructions : List Instruction) : Prop where
  begins : ∀ first rest, instructions = first :: rest → first.command ≠ .again
  opens : ∀ count,
    ((instructions.take count).map Instruction.command).count .loopClose ≤
      ((instructions.take count).map Instruction.command).count .loopOpen
  looped : settings.looped = true
  unsigned : settings.signed = false
  wrapping : settings.wrapping = true
  variants_le : settings.variants ≤ 0xD800

theorem Sturdy.not_cause (sturdy : Sturdy settings instructions) {tape : Tape}
    (sound : tape.Sound settings) {effect : Except Fault Command} :
    ¬ error.Cause settings instructions effect tape := by
  intro cause
  cases error with
  | pointerTooHigh pointer last => exact Bool.noConfusion (sturdy.looped.symm.trans cause.1)
  | pointerTooLow => exact Bool.noConfusion (sturdy.looped.symm.trans cause.1)
  | valueTooHigh value maximum =>
      exact Bool.noConfusion (sturdy.wrapping.symm.trans cause.1)
  | valueTooLow value minimum =>
      exact Bool.noConfusion (sturdy.wrapping.symm.trans cause.1)
  | outOfUnicodeRange value =>
      have few := sturdy.variants_le
      have low : 0 ≤ tape.current := by
        have bounded := sound.current_admitted.1
        unfold Settings.minimum at bounded
        rwa [if_neg (by rw [sturdy.unsigned]; nofun)] at bounded
      have high : tape.current ≤ settings.variants - 1 := sound.current_admitted.2
      obtain ⟨same, outside⟩ := cause
      omega
  | unmatchedLoopClose =>
      obtain ⟨count, closes⟩ := cause
      have opens := sturdy.opens count
      omega
  | noPreviousCommand =>
      obtain ⟨first, rest, listed, again⟩ := cause
      exact sturdy.begins first rest listed again

structure FailsForCause (settings : Settings) (text : Text)
    (instructions : List Instruction) : Prop where
  causes : ∀ (machine later : Machine) (error : ExecutionError),
    Reachable settings (Program.ofInstructions text instructions) machine →
    machine.step settings (Program.ofInstructions text instructions) =
      .failed (.execution error) later →
    error.Cause settings instructions
      ((Program.ofInstructions text instructions).effective machine.cursor)
      machine.state.tape
  /-- Where no error has a cause, no step fails by one and no run reports one. -/
  unfailing : Sturdy settings instructions → ∀ machine : Machine,
    Reachable settings (Program.ofInstructions text instructions) machine →
      (∀ error later, machine.step settings (Program.ofInstructions text instructions) ≠
        .failed (.execution error) later) ∧
      ∀ fuel diagnostic final,
        machine.run settings (Program.ofInstructions text instructions) fuel ≠
          some (.reported diagnostic, final)

theorem failsForCause (settings : Settings) (text : Text) (unmarked : Unmarked instructions) :
    FailsForCause settings text instructions := by
  have causes : ∀ (machine later : Machine) (error : ExecutionError),
      Reachable settings (Program.ofInstructions text instructions) machine →
      machine.step settings (Program.ofInstructions text instructions) =
        .failed (.execution error) later →
      error.Cause settings instructions
        ((Program.ofInstructions text instructions).effective machine.cursor)
        machine.state.tape := by
    intro machine later error reached failed
    exact step_failed_cause unmarked reached.sound failed
  refine { causes, unfailing := ?_ }
  intro sturdy machine reached
  constructor
  · intro error later failed
    exact sturdy.not_cause reached.sound.tape (causes machine later error reached failed)
  · intro fuel diagnostic final ended
    cases running : machine.running with
    | false =>
        rw [run_of_halted running] at ended
        cases ended
    | true =>
        rw [run_of_running running] at ended
        obtain ⟨count, failing, error, failed, steps, goesOn, fails⟩ :=
          exists_failing_of_reported ended
        have arrived := reached.of_stepped? steps (goesOn.mono (Nat.le_succ count))
        exact sturdy.not_cause arrived.sound.tape
          (causes failing failed error arrived fails)

def closedUnopened : List Instruction :=
  [.startingAt 0 .increment ['+'], .startingAt 1 .loopClose [']']]

def readAndCountDown : List Instruction :=
  [.startingAt 0 .input [','], .startingAt 1 .loopOpen ['['],
    .startingAt 2 .decrement ['-'], .startingAt 3 .loopClose [']']]

/-- The loop without a start fails in a cell that is not zero, and for its cause; the
instructions with both ends of their loop leave no error a cause. -/
theorem closedUnopened_failsForCause :
    (Unmarked closedUnopened ∧ Unmarked readAndCountDown) ∧
      (∃ failing failed : Machine,
        Reachable oneCell (Program.ofInstructions "+]".toList closedUnopened) failing ∧
          failing.step oneCell (Program.ofInstructions "+]".toList closedUnopened) =
            .failed (.execution .unmatchedLoopClose) failed) ∧
      ClosesTooMany closedUnopened ∧
      FailsForCause oneCell "+]".toList closedUnopened ∧
      Sturdy oneCell readAndCountDown ∧
      FailsForCause oneCell ",[-]".toList readAndCountDown := by
  have sturdy : Sturdy oneCell readAndCountDown := by
    refine
      { begins := ?begins
        opens := ?opens
        looped := rfl
        unsigned := rfl
        wrapping := rfl
        variants_le := by decide }
    case begins =>
        intro first rest same
        cases same
        decide
    case opens =>
        intro count
        match count with
        | 0 | 1 | 2 | 3 => decide
        | count + 4 =>
            rw [List.take_of_length_le (Nat.le_add_left 4 count)]
            decide
  have begun : Reachable oneCell (Program.ofInstructions "+]".toList closedUnopened)
      (initial oneCell (Source.ofBytes [] none) (Sink.empty none none)) := .fresh _ _
  have failing := Reachable.step (Reachable.step begun (by decide)) (by decide)
  exact ⟨⟨by decide, by decide⟩, ⟨_, _, failing, rfl⟩, ⟨2, by decide⟩,
    failsForCause oneCell _ (by decide), sturdy, failsForCause oneCell _ (by decide)⟩

end Machine
end TapeDialects
