/-
What no action on a console ends, no step of a machine ends.

Every action on a console adds to what is written, counts a flush, takes bytes
from the input or notes whether a line is open.  A property of consoles that
each of these keeps is kept by every command, whether it fails or not, and so by
every step.
-/

import TapeDialects.Proofs.Machine.Effect
import TapeDialects.Proofs.Machine.Step

namespace TapeDialects

namespace Console

/-- The property holds of a console behind every change if it has held before. -/
structure Framed (holds : Console → Prop) : Prop where
  wrote : ∀ {console : Console}, holds console → ∀ (text : Text) (midLine : Bool),
    holds (console.wrote text midLine)
  kept : ∀ {console : Console}, holds console → ∀ bytes : List UInt8,
    holds (console.kept bytes)
  flushed : ∀ {console : Console}, holds console → holds console.flushed
  consumed : ∀ {console : Console}, holds console → ∀ count : Nat,
    holds (console.consumed count)

namespace Framed

variable {holds : Console → Prop} {console : Console}

theorem write (framed : Framed holds) (held : holds console) (text : Text)
    (midLine : Bool) : holds (console.write text midLine).after := by
  rcases write_cases text midLine console with done | ⟨bytes, -, failed⟩
  · rw [done]
    exact framed.wrote held text midLine
  · rw [failed]
    exact framed.kept held bytes

theorem flush (framed : Framed holds) (held : holds console) :
    holds console.flush.after := by
  rcases flush_cases console with done | failed
  · rw [done]
    exact framed.flushed held
  · rw [failed]
    exact framed.flushed held

theorem breakLine (framed : Framed holds) (held : holds console) :
    holds console.breakLine.after := by
  unfold Console.breakLine
  split
  · exact framed.write held _ _
  · exact held

theorem say (framed : Framed holds) (held : holds console) (message : String) :
    holds (console.say message).after := by
  have broken := framed.breakLine held
  unfold Console.say
  cases broke : console.breakLine with
  | done later =>
      rw [broke] at broken
      exact framed.write broken _ _
  | failed error later =>
      rw [broke] at broken
      exact broken

end Framed

/-! ### Outputs that cannot fail -/

/-- The output takes every byte and every flush. -/
def TakesAll (console : Console) : Prop :=
  console.sink.capacity? = none ∧ console.sink.flushLimit? = none

theorem takesAll_framed : Framed TakesAll :=
  { wrote := fun takes _ _ => takes
    kept := fun takes _ => takes
    flushed := fun takes => takes
    consumed := fun takes _ => takes }

variable {console : Console}

theorem TakesAll.flush_brokeLine_eq (takes : console.TakesAll) :
    console.breakLine.bind flush = .done console.brokeLine.flushed := by
  have broken : console.brokeLine.TakesAll := by
    unfold brokeLine
    split
    · exact takesAll_framed.wrote takes _ _
    · exact takes
  rw [breakLine_eq_brokeLine takes.1, Outcome.bind_done, flush_eq_flushed broken.2]

end Console

namespace State

variable {holds : Console → Prop} {state : State}

theorem console_after_onTape (act : Tape → Outcome ExecutionError Tape) (state : State) :
    (state.onTape act).after.console = state.console := by
  cases state with
  | mk tape console =>
      unfold onTape
      simp only
      cases act tape <;> rfl

theorem console_after_onConsole (act : Console → Outcome StreamError Console)
    (state : State) :
    (state.onConsole act).after.console = (act state.console).after := by
  cases state with
  | mk tape console =>
      unfold onConsole
      simp only
      cases act console <;> rfl

theorem output_framed (framed : Console.Framed holds) (held : holds state.console) :
    holds state.output.after.console := by
  unfold output
  split
  · rw [console_after_onConsole]
    exact framed.write held _ _
  · exact held

theorem console_after_readCell (settings : Settings) (state : State) :
    ∃ count, (state.readCell settings).after.console = state.console.consumed count := by
  obtain ⟨count, taken⟩ := state.console.readLine_consumes
  refine ⟨count, ?_⟩
  cases state with
  | mk tape console =>
      unfold readCell
      simp only at taken ⊢
      split
      · next read =>
          rw [read] at taken
          rw [console_after_onTape]
          exact taken
      · next read =>
          rw [read] at taken
          exact taken

theorem console_after_input (settings : Settings) (state : State) :
    ∃ count, (state.input settings).after.console =
      state.console.flushed.consumed count := by
  have flushes := console_after_onConsole Console.flush state
  have flushed : state.console.flush.after = state.console.flushed := by
    rcases state.console.flush_cases with done | failed
    · rw [done]
      rfl
    · rw [failed]
      rfl
  rw [flushed] at flushes
  unfold input
  cases outcome : state.onConsole Console.flush with
  | done later =>
      rw [outcome] at flushes
      obtain ⟨count, taken⟩ := console_after_readCell settings later
      exact ⟨count, by rw [Outcome.bind_done, taken, ← flushes]; rfl⟩
  | failed fault later =>
      rw [outcome] at flushes
      exact ⟨0, flushes⟩

theorem perform_framed (framed : Console.Framed holds) (held : holds state.console)
    (settings : Settings) (command : Command) :
    holds (state.perform settings command).after.console := by
  have onTape : ∀ act, holds (state.onTape act).after.console := by
    intro act
    rw [console_after_onTape]
    exact held
  have spoken : ∀ message : String,
      holds (state.onConsole (Console.say message)).after.console := by
    intro message
    rw [console_after_onConsole]
    exact framed.say held message
  cases command with
  | right => exact onTape _
  | left => exact onTape _
  | increment => exact onTape _
  | decrement => exact onTape _
  | output => exact output_framed framed held
  | input =>
      obtain ⟨count, taken⟩ := console_after_input settings state
      rw [perform, taken]
      exact framed.consumed (framed.flushed held) count
  | giveFishfood => exact spoken _
  | giveBanana => exact spoken _
  | start => exact held
  | stop => exact held
  | loopOpen => exact held
  | loopClose => exact held
  | again => exact held

end State

namespace Machine

variable {settings : Settings} {program : Program} {machine : Machine}

theorem state_after_carryOut (settings : Settings) (program : Program) (command : Command)
    (machine : Machine) :
    (machine.carryOut settings program command).after.state =
      (machine.state.perform settings command).after := by
  by_cases plain : command.IsPlain
  · rw [carryOut_plain plain]
    cases machine.state.perform settings command <;> rfl
  · rw [State.perform_of_direct plain]
    rcases carryOut_direct_cases plain settings program machine with
      ⟨cursor, running, done⟩ | ⟨-, -, unmatched⟩
    · rw [done]
      rfl
    · rw [unmatched]
      rfl

theorem state_after_step {command : Command}
    (effect : program.effective machine.cursor = .ok command) :
    (machine.step settings program).after.state =
      (machine.state.perform settings command).after := by
  rw [step_of_ok effect, ← state_after_carryOut settings program]
  cases machine.carryOut settings program command <;> rfl

theorem step_framed {holds : Console → Prop} (framed : Console.Framed holds)
    (held : holds machine.state.console) (settings : Settings) (program : Program) :
    holds (machine.step settings program).after.state.console := by
  cases effect : program.effective machine.cursor with
  | error fault =>
      rw [step_of_error effect]
      exact held
  | ok command =>
      rw [state_after_step effect]
      exact State.perform_framed framed held settings command

end Machine
end TapeDialects
