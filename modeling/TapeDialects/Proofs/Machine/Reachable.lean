/-
The machines that steps and runs lead to from a fresh one.

A step either leaves its machine alone, or stops it and moves on, or moves the
cursor to a place of the program, or performs a command on tape and console and
moves on inside the program.  Whether a run ends by the program, by an error or
by a stream, all it adds to its steps is something on the console, and perhaps
that the machine stops.  Where the streams fail is nothing to tape and cursor, and
may change from one call to the next.
-/

import TapeDialects.Proofs.Machine.Session
import TapeDialects.Proofs.Machine.Sound

namespace TapeDialects

namespace Program

variable {program : Program} {index : Nat} {command : Command}

theorem exitFrom_succ_lt_size {ahead depth : Nat} (inside : index < program.size)
    (reaching : index + ahead = program.size) :
    program.exitFrom ahead index depth + 1 < program.size := by
  induction ahead generalizing index depth with
  | zero => omega
  | succ ahead ih =>
      obtain ⟨command, found⟩ := exists_command?_of_lt program inside
      by_cases marked : command = .stop
      · subst marked
        have positive := pos_of_ne_start found nofun
        rw [exitFrom_succ_of_stop found]
        omega
      · have room := succ_lt_size_of_ne_stop found marked
        rw [exitFrom_succ found marked]
        split
        · exact room
        · exact ih room (by omega)

theorem loopExit_succ_lt_size (inside : index < program.size) :
    program.loopExit index + 1 < program.size :=
  exitFrom_succ_lt_size inside (by omega)

theorem entryFrom?_le {depth entry : Nat} (inside : index < program.size)
    (found : program.entryFrom? index depth = some entry) : entry ≤ index := by
  induction index generalizing depth with
  | zero => cases found
  | succ index ih =>
      obtain ⟨command, here⟩ := exists_command?_of_lt program inside
      by_cases marked : command = .start
      · subst marked
        rw [entryFrom?_succ_of_start here] at found
        cases found
      · rw [entryFrom?_succ here marked] at found
        split at found
        · cases found
          exact Nat.le_refl _
        · have earlier := ih (by omega) found
          omega

theorem command?_of_effective (effect : program.effective index = .ok command) :
    program.command? index = some command ∨ program.command? index = some .again := by
  unfold effective at effect
  split at effect
  · cases effect
  · next again => exact Or.inr again
  · next other _ found =>
      cases effect
      exact Or.inl found

theorem command?_ne_of_effective {other : Command}
    (effect : program.effective index = .ok command) (different : other ≠ command)
    (direct : other ≠ .again) : program.command? index ≠ some other := by
  intro found
  rcases command?_of_effective effect with same | again
  · exact different (Option.some.inj (found.symm.trans same))
  · exact direct (Option.some.inj (found.symm.trans again))

end Program

namespace Machine

variable {settings : Settings} {program : Program} {machine : Machine}

structure Sound (settings : Settings) (program : Program) (machine : Machine) : Prop where
  tape : machine.state.tape.Sound settings
  cursor_le : machine.cursor ≤ program.size
  halted : machine.cursor = program.size → machine.running = false

theorem initial_sound (settings : Settings) (program : Program) (source : Source)
    (sink : Sink) : (initial settings source sink).Sound settings program := by
  refine { tape := Tape.blank_sound settings, cursor_le := Nat.zero_le _, halted := ?halted }
  case halted =>
      intro same
      cases same

theorem Sound.inside (sound : machine.Sound settings program)
    (running : machine.running = true) : machine.cursor < program.size := by
  rcases Nat.lt_or_eq_of_le sound.cursor_le with inside | last
  · exact inside
  · rw [sound.halted last] at running
    cases running

theorem step_cases (settings : Settings) (inside : machine.cursor < program.size) :
    (∃ fault, machine.step settings program = .failed fault machine) ∨
      (machine.step settings program =
        .done { machine with cursor := machine.cursor + 1, running := false }) ∨
      (∃ cursor, cursor < program.size ∧
        machine.step settings program = .done { machine with cursor }) ∨
      (∃ command : Command, machine.cursor + 1 < program.size ∧
        machine.step settings program =
          ((machine.state.perform settings command).map fun state =>
            { machine with state }).bind fun later => .done later.advance) := by
  cases effect : program.effective machine.cursor with
  | error fault => exact Or.inl ⟨fault, step_of_error effect⟩
  | ok command =>
      rw [step_of_ok effect]
      by_cases stops : command = .stop
      · subst stops
        exact Or.inr (Or.inl rfl)
      · have room : machine.cursor + 1 < program.size := by
          rcases Program.command?_of_effective effect with found | again
          · exact Program.succ_lt_size_of_ne_stop found stops
          · exact Program.succ_lt_size_of_ne_stop again nofun
        by_cases opens : command = .loopOpen
        · subst opens
          refine Or.inr (Or.inr (Or.inl ?_))
          by_cases zero : machine.state.tape.current = 0
          · rw [carryOut_loopOpen_of_zero zero]
            exact ⟨_, Program.loopExit_succ_lt_size inside, rfl⟩
          · rw [carryOut_loopOpen_of_ne_zero zero]
            exact ⟨_, room, rfl⟩
        · by_cases closes : command = .loopClose
          · subst closes
            by_cases zero : machine.state.tape.current = 0
            · rw [carryOut_loopClose_of_zero zero]
              exact Or.inr (Or.inr (Or.inl ⟨_, room, rfl⟩))
            · cases found : program.loopEntry? machine.cursor with
              | none =>
                  rw [carryOut_loopClose_of_none zero found]
                  exact Or.inl ⟨_, rfl⟩
              | some entry =>
                  have earlier := Program.entryFrom?_le inside found
                  have back : entry + 1 < program.size := by omega
                  rw [carryOut_loopClose_of_some zero found]
                  exact Or.inr (Or.inr (Or.inl ⟨_, back, rfl⟩))
          · rw [carryOut_plain ⟨stops, opens, closes⟩]
            exact Or.inr (Or.inr (Or.inr ⟨command, room, rfl⟩))

theorem step_sound (sound : machine.Sound settings program)
    (inside : machine.cursor < program.size) :
    (machine.step settings program).after.Sound settings program ∧
      (machine.running = false →
        (machine.step settings program).after.running = false) := by
  rcases step_cases settings inside with
    ⟨fault, stepped⟩ | stepped | ⟨cursor, within, stepped⟩ | ⟨command, room, stepped⟩
  · rw [stepped]
    exact ⟨sound, id⟩
  · rw [stepped]
    exact ⟨{ tape := sound.tape, cursor_le := inside, halted := fun _ => rfl }, fun _ => rfl⟩
  · rw [stepped]
    refine ⟨{ tape := sound.tape, cursor_le := Nat.le_of_lt within, halted := ?_ }, id⟩
    intro last
    exact absurd last (Nat.ne_of_lt within)
  · have performed := State.perform_sound sound.tape command
    rw [stepped]
    cases outcome : machine.state.perform settings command with
    | done state =>
        rw [outcome] at performed
        refine ⟨{ tape := performed, cursor_le := Nat.le_of_lt room, halted := ?_ }, id⟩
        intro last
        exact absurd last (Nat.ne_of_lt room)
    | failed fault state =>
        rw [outcome] at performed
        exact ⟨{ tape := performed, cursor_le := sound.cursor_le, halted := sound.halted }, id⟩

theorem cursor_of_step_failed (inside : machine.cursor < program.size) {fault : Fault}
    {later : Machine} (failed : machine.step settings program = .failed fault later) :
    later.cursor = machine.cursor := by
  rcases step_cases settings inside with
    ⟨fault, stepped⟩ | stepped | ⟨cursor, within, stepped⟩ | ⟨command, room, stepped⟩
  · rw [stepped] at failed
    cases failed
    rfl
  · rw [stepped] at failed
    cases failed
  · rw [stepped] at failed
    cases failed
  · rw [stepped] at failed
    cases outcome : machine.state.perform settings command with
    | done state =>
        rw [outcome] at failed
        cases failed
    | failed fault state =>
        rw [outcome] at failed
        cases failed
        rfl

theorem exists_after_onConsole (act : Console → Outcome StreamError Console)
    (machine : Machine) :
    ∃ console, (machine.onConsole act).after =
      { machine with state := { machine.state with console } } := by
  cases machine with
  | mk state cursor running =>
      cases state with
      | mk tape console =>
          unfold onConsole
          simp only
          cases act console with
          | done later => exact ⟨later, rfl⟩
          | failed error later => exact ⟨later, rfl⟩

theorem onConsole_sound (sound : machine.Sound settings program)
    (act : Console → Outcome StreamError Console) :
    (machine.onConsole act).after.Sound settings program := by
  rcases exists_after_onConsole act machine with ⟨console, same⟩
  rw [same]
  exact { tape := sound.tape, cursor_le := sound.cursor_le, halted := sound.halted }

theorem report_sound (sound : machine.Sound settings program) (error : ExecutionError) :
    (machine.report program error).2.Sound settings program := by
  have stopped : Sound settings program { machine with running := false } :=
    { tape := sound.tape, cursor_le := sound.cursor_le, halted := fun _ => rfl }
  have kept := onConsole_sound stopped fun console => console.breakLine.bind Console.flush
  unfold report
  simp only
  split
  · next failed =>
      rw [failed] at kept
      exact kept
  · next done =>
      rw [done] at kept
      split <;> exact kept

theorem finish_sound (sound : machine.Sound settings program) :
    machine.finish.2.Sound settings program := by
  have kept := onConsole_sound sound Console.flush
  unfold finish
  split
  · next done =>
      rw [done] at kept
      exact kept
  · next failed =>
      rw [failed] at kept
      exact kept

theorem runFor_sound {fuel : Nat} {ending : Ending} {later : Machine}
    (sound : machine.Sound settings program)
    (ended : machine.runFor settings program fuel = some (ending, later)) :
    later.Sound settings program := by
  induction fuel generalizing machine with
  | zero => cases ended
  | succ fuel ih =>
      rw [runFor] at ended
      split at ended
      · next running =>
          have stepped := (step_sound sound (sound.inside running)).1
          split at ended
          · next outcome =>
              rw [outcome] at stepped
              exact ih stepped ended
          · next error failed outcome =>
              rw [outcome, Outcome.after_failed] at stepped
              have reported := report_sound stepped error
              rw [Option.some.inj ended] at reported
              exact reported
          · next outcome =>
              rw [outcome] at stepped
              cases ended
              exact stepped
          · next outcome =>
              rw [outcome] at stepped
              cases ended
              exact stepped
      · have finished := finish_sound sound
        rw [Option.some.inj ended] at finished
        exact finished

theorem run_sound {fuel : Nat} {ending : Ending} {later : Machine}
    (sound : machine.Sound settings program)
    (ended : machine.run settings program fuel = some (ending, later)) :
    later.Sound settings program ∧ (machine.running = false → later.running = false) := by
  unfold run at ended
  split at ended
  · next running =>
      refine ⟨runFor_sound sound ended, ?_⟩
      intro halted
      rw [halted] at running
      cases running
  · cases ended
    exact ⟨sound, id⟩

/-! ### Reachable machines -/

theorem relimited_sound (sound : machine.Sound settings program) (limits : StreamLimits) :
    (machine.relimited limits).Sound settings program :=
  { tape := sound.tape
    cursor_le := sound.cursor_le
    halted := sound.halted }

/-- A step is only taken where the cursor is on an instruction; a run may be
started anywhere.  Between two calls the streams may come to fail elsewhere. -/
inductive Reachable (settings : Settings) (program : Program) : Machine → Prop where
  | fresh (source : Source) (sink : Sink) :
      Reachable settings program (initial settings source sink)
  | step {machine : Machine} (reached : Reachable settings program machine)
      (inside : machine.cursor < program.size) :
      Reachable settings program (machine.step settings program).after
  | run {machine later : Machine} {fuel : Nat} {ending : Ending}
      (reached : Reachable settings program machine)
      (ended : machine.run settings program fuel = some (ending, later)) :
      Reachable settings program later
  | relimited {machine : Machine} (reached : Reachable settings program machine)
      (limits : StreamLimits) : Reachable settings program (machine.relimited limits)

theorem Reachable.sound (reached : Reachable settings program machine) :
    machine.Sound settings program := by
  induction reached with
  | fresh source sink => exact initial_sound settings program source sink
  | step _ inside ih => exact (step_sound ih inside).1
  | run _ ended ih => exact (run_sound ih ended).1
  | relimited _ limits ih => exact relimited_sound ih limits

end Machine
end TapeDialects
