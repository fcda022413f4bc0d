/-
Machines that differ in their states alone, side by side.

A step asks a state for its current value and performs commands on it.  So a
change of the state that keeps the current value, and that a command performs
alike before it and behind it, is a change that the step keeps.

Whatever state it is, a command other than input acts on the tape or writes to
the console, and which of the two, and what, is a matter of the tape alone.
-/

import TapeDialects.Proofs.Machine.Step

namespace TapeDialects

inductive Console.Writes : (Console → Outcome StreamError Console) → Prop where
  | put (character : Char) : Writes (Console.put character)
  | say (message : String) : Writes (Console.say message)

namespace State

def rewired (change : Console → Console) (state : State) : State :=
  { state with console := change state.console }

theorem onTape_rewired (change : Console → Console)
    (act : Tape → Outcome ExecutionError Tape) (state : State) :
    (state.rewired change).onTape act = (state.onTape act).map (rewired change) := by
  cases state with
  | mk tape console =>
      unfold onTape rewired
      simp only
      cases act tape <;> rfl

theorem onConsole_rewired {change : Console → Console}
    {act : Console → Outcome StreamError Console} {state : State}
    (same : act (change state.console) = (act state.console).map change) :
    (state.rewired change).onConsole act = (state.onConsole act).map (rewired change) := by
  cases state with
  | mk tape console =>
      unfold onConsole rewired
      simp only at same ⊢
      rw [same]
      cases act console <;> rfl

theorem perform_cases {command : Command} (other : command ≠ .input) (settings : Settings)
    (tape : Tape) :
    (∃ act : Tape → Outcome ExecutionError Tape, ∀ console,
        perform settings command { tape, console } = onTape act { tape, console }) ∨
      ∃ act : Console → Outcome StreamError Console, Console.Writes act ∧ ∀ console,
        perform settings command { tape, console } = onConsole act { tape, console } := by
  cases command with
  | right => exact Or.inl ⟨_, fun _ => rfl⟩
  | left => exact Or.inl ⟨_, fun _ => rfl⟩
  | increment => exact Or.inl ⟨_, fun _ => rfl⟩
  | decrement => exact Or.inl ⟨_, fun _ => rfl⟩
  | output =>
      cases shown : tape.character? with
      | none =>
          refine Or.inl ⟨fun tape => .failed (.outOfUnicodeRange tape.current) tape, ?_⟩
          intro console
          unfold perform output
          simp only [shown]
          rfl
      | some character =>
          refine Or.inr ⟨_, .put character, ?_⟩
          intro console
          unfold perform output
          simp only [shown]
  | input => exact absurd rfl other
  | giveFishfood => exact Or.inr ⟨_, .say _, fun _ => rfl⟩
  | giveBanana => exact Or.inr ⟨_, .say _, fun _ => rfl⟩
  | start => exact Or.inl ⟨.done, fun _ => rfl⟩
  | stop => exact Or.inl ⟨.done, fun _ => rfl⟩
  | loopOpen => exact Or.inl ⟨.done, fun _ => rfl⟩
  | loopClose => exact Or.inl ⟨.done, fun _ => rfl⟩
  | again => exact Or.inl ⟨.done, fun _ => rfl⟩

end State

namespace Machine

def changed (change : State → State) (machine : Machine) : Machine :=
  { machine with state := change machine.state }

variable {settings other : Settings} {program : Program} {machine : Machine}
  {change after : State → State} {command : Command}

theorem carryOut_changed_of_direct (settings : Settings) (direct : ¬ command.IsPlain)
    (current : (change machine.state).tape.current = machine.state.tape.current) :
    (machine.changed change).carryOut other program command =
      (machine.carryOut settings program command).map (changed change) := by
  have here : (machine.changed change).state.tape.current = machine.state.tape.current :=
    current
  cases command with
  | stop => rfl
  | loopOpen =>
      by_cases zero : machine.state.tape.current = 0
      · rw [carryOut_loopOpen_of_zero zero, carryOut_loopOpen_of_zero (here.trans zero)]
        rfl
      · rw [carryOut_loopOpen_of_ne_zero zero,
          carryOut_loopOpen_of_ne_zero (by rw [here]; exact zero)]
        rfl
  | loopClose =>
      by_cases zero : machine.state.tape.current = 0
      · rw [carryOut_loopClose_of_zero zero, carryOut_loopClose_of_zero (here.trans zero)]
        rfl
      · have nonzero : (machine.changed change).state.tape.current ≠ 0 := by
          rw [here]
          exact zero
        cases found : program.loopEntry? machine.cursor with
        | some entry =>
            rw [carryOut_loopClose_of_some zero found,
              carryOut_loopClose_of_some nonzero found]
            rfl
        | none =>
            rw [carryOut_loopClose_of_none zero found,
              carryOut_loopClose_of_none nonzero found]
            rfl
  | _ => exact absurd (by decide) direct

/-- The change behind the command may be another one than before it. -/
theorem step_changed (effect : program.effective machine.cursor = .ok command)
    (current : (change machine.state).tape.current = machine.state.tape.current)
    (performed : (change machine.state).perform other command =
      (machine.state.perform settings command).map after) :
    (machine.changed change).step other program =
      (machine.step settings program).map (changed after) := by
  have changedEffect : program.effective (machine.changed change).cursor = .ok command :=
    effect
  rw [step_of_ok effect, step_of_ok changedEffect]
  by_cases plain : command.IsPlain
  · have same : (machine.changed change).state.perform other command =
        (machine.state.perform settings command).map after := performed
    rw [carryOut_plain plain, carryOut_plain plain, same]
    cases machine.state.perform settings command <;> rfl
  · rw [State.perform_of_direct plain, State.perform_of_direct plain, Outcome.map_done,
      Outcome.done.injEq] at performed
    rw [carryOut_changed_of_direct settings plain current]
    rcases carryOut_direct_cases plain settings program machine with
      ⟨cursor, running, done⟩ | ⟨-, -, unmatched⟩
    · rw [done]
      unfold changed
      simp only [Outcome.map_done, Outcome.bind_done, performed]
      rfl
    · rw [unmatched]
      unfold changed
      simp only [Outcome.map_failed, Outcome.bind_failed, performed]

end Machine
end TapeDialects
