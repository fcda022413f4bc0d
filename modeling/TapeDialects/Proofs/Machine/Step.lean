/-
What one step of a machine can do, told by the command that takes effect at its
cursor.

A command either directs the run, that is, it stops the machine or moves the
cursor to its partner, or it is performed on tape and console and the cursor
moves on by one.  What is proved about steps elsewhere goes through these
equations.
-/

import TapeDialects.Machine.Step

namespace TapeDialects

/-- Commands that act on the state alone, and leave the cursor to the step. -/
def Command.IsPlain (command : Command) : Prop :=
  command ≠ .stop ∧ command ≠ .loopOpen ∧ command ≠ .loopClose

instance (command : Command) : Decidable command.IsPlain :=
  inferInstanceAs (Decidable (_ ∧ _))

theorem State.perform_of_direct {settings : Settings} {command : Command} {state : State}
    (direct : ¬ command.IsPlain) : state.perform settings command = .done state := by
  cases command with
  | stop => rfl
  | loopOpen => rfl
  | loopClose => rfl
  | _ => exact absurd (by decide) direct

theorem Command.isPlain_of_perform_failed {settings : Settings} {command : Command}
    {fault : Fault} {state later : State}
    (failed : state.perform settings command = .failed fault later) : command.IsPlain := by
  by_cases plain : command.IsPlain
  · exact plain
  · rw [State.perform_of_direct plain] at failed
    cases failed

namespace Program

variable {program : Program} {index : Nat}

theorem effective_eq_ok {command : Command}
    (found : program.command? index = some command) (direct : command ≠ .again) :
    program.effective index = .ok command := by
  rw [effective, found]
  cases command <;> first | rfl | exact absurd rfl direct

theorem effective_ne_stream {error : StreamError} :
    program.effective index ≠ .error (.stream error) := by
  unfold effective
  split
  · nofun
  · split
    · nofun
    · nofun
  · nofun

end Program

namespace Machine

variable {settings : Settings} {program : Program} {machine : Machine}

theorem carryOut_stop :
    machine.carryOut settings program .stop = .done { machine with running := false } := rfl

theorem carryOut_loopOpen_of_zero (zero : machine.state.tape.current = 0) :
    machine.carryOut settings program .loopOpen =
      .done { machine with cursor := program.loopExit machine.cursor } := by
  simp only [carryOut, if_pos zero]

theorem carryOut_loopOpen_of_ne_zero (nonzero : machine.state.tape.current ≠ 0) :
    machine.carryOut settings program .loopOpen = .done machine := by
  simp only [carryOut, if_neg nonzero]

theorem carryOut_loopClose_of_zero (zero : machine.state.tape.current = 0) :
    machine.carryOut settings program .loopClose = .done machine := by
  simp only [carryOut, if_pos zero]

theorem carryOut_loopClose_of_some (nonzero : machine.state.tape.current ≠ 0)
    {entry : Nat} (found : program.loopEntry? machine.cursor = some entry) :
    machine.carryOut settings program .loopClose =
      .done { machine with cursor := entry } := by
  simp only [carryOut, if_neg nonzero, found]

theorem carryOut_loopClose_of_none (nonzero : machine.state.tape.current ≠ 0)
    (missing : program.loopEntry? machine.cursor = none) :
    machine.carryOut settings program .loopClose =
      .failed (.execution .unmatchedLoopClose) machine := by
  simp only [carryOut, if_neg nonzero, missing]

theorem carryOut_plain {command : Command} (plain : command.IsPlain) :
    machine.carryOut settings program command =
      (machine.state.perform settings command).map fun state =>
        { machine with state } := by
  obtain ⟨unstopping, unopening, unclosing⟩ := plain
  cases command with
  | stop => exact absurd rfl unstopping
  | loopOpen => exact absurd rfl unopening
  | loopClose => exact absurd rfl unclosing
  | _ => rfl

theorem carryOut_direct_cases {command : Command} (direct : ¬ command.IsPlain)
    (settings : Settings) (program : Program) (machine : Machine) :
    (∃ cursor running, machine.carryOut settings program command =
        .done { machine with cursor, running }) ∨
      (command = .loopClose ∧ program.loopEntry? machine.cursor = none ∧
        machine.carryOut settings program command =
          .failed (.execution .unmatchedLoopClose) machine) := by
  cases command with
  | stop => exact Or.inl ⟨_, _, carryOut_stop⟩
  | loopOpen =>
      by_cases zero : machine.state.tape.current = 0
      · exact Or.inl ⟨_, _, carryOut_loopOpen_of_zero zero⟩
      · exact Or.inl ⟨_, _, carryOut_loopOpen_of_ne_zero zero⟩
  | loopClose =>
      by_cases zero : machine.state.tape.current = 0
      · exact Or.inl ⟨_, _, carryOut_loopClose_of_zero zero⟩
      · cases found : program.loopEntry? machine.cursor with
        | some entry => exact Or.inl ⟨_, _, carryOut_loopClose_of_some zero found⟩
        | none => exact Or.inr ⟨rfl, rfl, carryOut_loopClose_of_none zero found⟩
  | _ => exact absurd (by decide) direct

theorem step_of_ok {command : Command}
    (effect : program.effective machine.cursor = .ok command) :
    machine.step settings program =
      (machine.carryOut settings program command).bind fun later => .done later.advance := by
  rw [step, effect]

theorem step_of_error {fault : Fault}
    (effect : program.effective machine.cursor = .error fault) :
    machine.step settings program = .failed fault machine := by
  rw [step, effect]

theorem step_done_of_plain {command : Command} {state : State}
    (effect : program.effective machine.cursor = .ok command) (plain : command.IsPlain)
    (performed : machine.state.perform settings command = .done state) :
    machine.step settings program =
      .done { machine with state, cursor := machine.cursor + 1 } := by
  rw [step_of_ok effect, carryOut_plain plain, performed]
  rfl

theorem step_failed_of_plain {command : Command} {fault : Fault} {state : State}
    (effect : program.effective machine.cursor = .ok command) (plain : command.IsPlain)
    (performed : machine.state.perform settings command = .failed fault state) :
    machine.step settings program = .failed fault { machine with state } := by
  rw [step_of_ok effect, carryOut_plain plain, performed]
  rfl

theorem step_initial (settings : Settings) (program : Program) (source : Source) (sink : Sink) :
    (initial settings source sink).step settings program =
      .done { initial settings source sink with cursor := 1 } :=
  step_done_of_plain (Program.effective_eq_ok program.command?_zero nofun) (by decide) rfl

/-- All that a step can fail by: no command takes effect, or a loop has no start, or
what the command performs fails. -/
theorem unperformed_or_perform_failed {fault : Fault} {later : Machine}
    (failed : machine.step settings program = .failed fault later) :
    (later = machine ∧
        (program.effective machine.cursor = .error fault ∨
          (program.effective machine.cursor = .ok .loopClose ∧
            program.loopEntry? machine.cursor = none ∧
            fault = .execution .unmatchedLoopClose))) ∨
      ∃ command state,
        program.effective machine.cursor = .ok command ∧
        machine.state.perform settings command = .failed fault state ∧
        later = { machine with state } := by
  cases effect : program.effective machine.cursor with
  | error error =>
      rw [step_of_error effect] at failed
      cases failed
      exact Or.inl ⟨rfl, Or.inl rfl⟩
  | ok command =>
      by_cases plain : command.IsPlain
      · cases performed : machine.state.perform settings command with
        | done state =>
            rw [step_done_of_plain effect plain performed] at failed
            cases failed
        | failed error state =>
            rw [step_failed_of_plain effect plain performed] at failed
            cases failed
            exact Or.inr ⟨command, state, rfl, performed, rfl⟩
      · rw [step_of_ok effect] at failed
        rcases carryOut_direct_cases plain settings program machine with
          ⟨cursor, running, done⟩ | ⟨closes, missing, unmatched⟩
        · rw [done] at failed
          cases failed
        · rw [unmatched] at failed
          cases failed
          exact Or.inl ⟨rfl, Or.inr ⟨by rw [closes], missing, rfl⟩⟩

end Machine
end TapeDialects
