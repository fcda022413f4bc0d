/-
How a running machine ends, whatever the fuel.

A run takes one step after the other, so where a machine ends is where the
machine after its next step ends.  Statements about endings need no account of
the fuel; where an argument has to count steps, it counts what fuel is left.
-/

import TapeDialects.Machine.Run
import TapeDialects.Proofs.Machine.Frame

namespace TapeDialects.Machine

def Ends (settings : Settings) (program : Program) (machine : Machine)
    (ending : Ending) (final : Machine) : Prop :=
  ∃ fuel, machine.runFor settings program fuel = some (ending, final)

variable {settings : Settings} {program : Program} {machine later : Machine}
  {ending : Ending} {final : Machine}

theorem run_of_running (running : machine.running = true) (fuel : Nat) :
    machine.run settings program fuel = machine.runFor settings program fuel :=
  if_pos running

theorem runFor_succ_of_done (running : machine.running = true)
    (stepped : machine.step settings program = .done later) (fuel : Nat) :
    machine.runFor settings program (fuel + 1) = later.runFor settings program fuel := by
  rw [runFor, if_pos running, stepped]

theorem runFor_succ_of_execution (running : machine.running = true) {error : ExecutionError}
    (stepped : machine.step settings program = .failed (.execution error) later)
    (fuel : Nat) :
    machine.runFor settings program (fuel + 1) = some (later.report program error) := by
  rw [runFor, if_pos running, stepped]

theorem runFor_succ_of_stream (running : machine.running = true) {error : StreamError}
    (stepped : machine.step settings program = .failed (.stream error) later) (fuel : Nat) :
    machine.runFor settings program (fuel + 1) = some (.interrupted error, later) := by
  rw [runFor, if_pos running, stepped]

theorem runFor_succ_of_offProgram (running : machine.running = true)
    (stepped : machine.step settings program = .failed .offProgram later) (fuel : Nat) :
    machine.runFor settings program (fuel + 1) = some (.astray, later) := by
  rw [runFor, if_pos running, stepped]

theorem runFor_succ_of_halted (halted : machine.running = false) (fuel : Nat) :
    machine.runFor settings program (fuel + 1) = some machine.finish := by
  rw [runFor, if_neg (by rw [halted]; exact Bool.false_ne_true)]

theorem ends_iff_of_done (running : machine.running = true)
    (stepped : machine.step settings program = .done later) :
    machine.Ends settings program ending final ↔
      later.Ends settings program ending final := by
  constructor
  · intro ends
    obtain ⟨fuel, ran⟩ := ends
    cases fuel with
    | zero => cases ran
    | succ fuel =>
        rw [runFor_succ_of_done running stepped] at ran
        exact ⟨fuel, ran⟩
  · intro ends
    obtain ⟨fuel, ran⟩ := ends
    refine ⟨fuel + 1, ?_⟩
    rw [runFor_succ_of_done running stepped]
    exact ran

theorem ends_iff_of_runFor_succ {result : Ending × Machine}
    (ran : ∀ fuel, machine.runFor settings program (fuel + 1) = some result) :
    machine.Ends settings program ending final ↔ result = (ending, final) := by
  constructor
  · intro ends
    obtain ⟨fuel, found⟩ := ends
    cases fuel with
    | zero => cases found
    | succ fuel =>
        rw [ran fuel] at found
        exact Option.some.inj found
  · intro same
    refine ⟨1, ?_⟩
    rw [ran 0, same]

theorem ends_iff_of_execution (running : machine.running = true) {error : ExecutionError}
    (stepped : machine.step settings program = .failed (.execution error) later) :
    machine.Ends settings program ending final ↔
      later.report program error = (ending, final) :=
  ends_iff_of_runFor_succ (runFor_succ_of_execution running stepped)

theorem ends_iff_of_halted (halted : machine.running = false) :
    machine.Ends settings program ending final ↔ machine.finish = (ending, final) :=
  ends_iff_of_runFor_succ (runFor_succ_of_halted halted)

theorem runFor_succ_cases {fuel : Nat} (running : machine.running = true)
    (ran : machine.runFor settings program (fuel + 1) = some (ending, final)) :
    (∃ later, machine.step settings program = .done later ∧
        later.runFor settings program fuel = some (ending, final)) ∨
      (∃ error later, machine.step settings program = .failed (.execution error) later ∧
        later.report program error = (ending, final)) ∨
      (∃ error, machine.step settings program = .failed (.stream error) final ∧
        ending = .interrupted error) ∨
      (machine.step settings program = .failed .offProgram final ∧ ending = .astray) := by
  cases stepped : machine.step settings program with
  | done later =>
      rw [runFor_succ_of_done running stepped] at ran
      exact Or.inl ⟨later, rfl, ran⟩
  | failed fault later =>
      cases fault with
      | execution error =>
          rw [runFor_succ_of_execution running stepped] at ran
          exact Or.inr (Or.inl ⟨error, later, rfl, Option.some.inj ran⟩)
      | stream error =>
          rw [runFor_succ_of_stream running stepped] at ran
          cases ran
          exact Or.inr (Or.inr (Or.inl ⟨error, rfl, rfl⟩))
      | offProgram =>
          rw [runFor_succ_of_offProgram running stepped] at ran
          cases ran
          exact Or.inr (Or.inr (Or.inr ⟨rfl, rfl⟩))

theorem runFor_add {fuel : Nat}
    (ran : machine.runFor settings program fuel = some (ending, final)) (extra : Nat) :
    machine.runFor settings program (fuel + extra) = some (ending, final) := by
  induction fuel generalizing machine with
  | zero => cases ran
  | succ fuel ih =>
      rw [Nat.add_right_comm]
      cases running : machine.running with
      | false =>
          rw [runFor_succ_of_halted running] at ran ⊢
          exact ran
      | true =>
          rcases runFor_succ_cases running ran with ⟨later, stepped, further⟩ |
            ⟨error, later, stepped, reported⟩ | ⟨error, stepped, rfl⟩ | ⟨stepped, rfl⟩
          · rw [runFor_succ_of_done running stepped]
            exact ih further
          · rw [runFor_succ_of_execution running stepped, reported]
          · rw [runFor_succ_of_stream running stepped]
          · rw [runFor_succ_of_offProgram running stepped]

theorem Ends.exists_run (ends : machine.Ends settings program ending final)
    (running : machine.running = true) :
    ∃ enough, ∀ fuel ≥ enough, machine.run settings program fuel = some (ending, final) := by
  obtain ⟨enough, ran⟩ := ends
  refine ⟨enough, ?_⟩
  intro fuel more
  obtain ⟨extra, rfl⟩ := Nat.exists_eq_add_of_le more
  rw [run_of_running running]
  exact runFor_add ran extra

/-! ### What no ending changes -/

theorem console_after_onConsole (act : Console → Outcome StreamError Console)
    (machine : Machine) :
    (machine.onConsole act).after.state.console = (act machine.state.console).after := by
  cases machine with
  | mk state cursor running =>
      cases state with
      | mk tape console =>
          unfold onConsole
          simp only
          cases act console <;> rfl

variable {holds : Console → Prop}

theorem finish_framed (framed : Console.Framed holds) (held : holds machine.state.console) :
    holds machine.finish.2.state.console := by
  have kept := framed.flush held
  rw [← console_after_onConsole] at kept
  unfold finish
  split
  · next flushed =>
      rw [flushed] at kept
      exact kept
  · next refused =>
      rw [refused] at kept
      exact kept

theorem report_framed (framed : Console.Framed holds) (held : holds machine.state.console)
    (program : Program) (error : ExecutionError) :
    holds (machine.report program error).2.state.console := by
  have kept : holds (machine.state.console.breakLine.bind Console.flush).after := by
    have broken := framed.breakLine held
    cases broke : machine.state.console.breakLine with
    | done later =>
        rw [broke] at broken
        exact framed.flush broken
    | failed error later =>
        rw [broke] at broken
        exact broken
  have after := console_after_onConsole
    (fun console => console.breakLine.bind Console.flush) { machine with running := false }
  rw [← after] at kept
  unfold report
  simp only
  split
  · next acted =>
      rw [acted] at kept
      exact kept
  · next acted =>
      rw [acted] at kept
      split <;> exact kept

theorem framed_of_step {fuel : Nat} (framed : Console.Framed holds)
    (running : machine.running = true)
    (held : holds (machine.step settings program).after.state.console)
    (goesOn : ∀ later : Machine, holds later.state.console →
      later.runFor settings program fuel = some (ending, final) → holds final.state.console)
    (ran : machine.runFor settings program (fuel + 1) = some (ending, final)) :
    holds final.state.console := by
  rcases runFor_succ_cases running ran with ⟨later, stepped, further⟩ |
    ⟨error, later, stepped, reported⟩ | ⟨error, stepped, -⟩ | ⟨stepped, -⟩
  all_goals rw [stepped] at held
  · exact goesOn later held further
  · have kept := report_framed framed held program error
    rw [Outcome.after_failed, reported] at kept
    exact kept
  · exact held
  · exact held

theorem runFor_framed {fuel : Nat} (framed : Console.Framed holds)
    (held : holds machine.state.console)
    (ran : machine.runFor settings program fuel = some (ending, final)) :
    holds final.state.console := by
  induction fuel generalizing machine with
  | zero => cases ran
  | succ fuel ih =>
      cases running : machine.running with
      | false =>
          have kept := finish_framed framed held
          rw [runFor_succ_of_halted running] at ran
          rw [Option.some.inj ran] at kept
          exact kept
      | true =>
          exact framed_of_step framed running (step_framed framed held settings program)
            (fun _ held further => ih held further) ran

/-! ### Endings on outputs and streams that cannot fail -/

theorem onConsole_of_done {act : Console → Outcome StreamError Console} {console : Console}
    (acted : act machine.state.console = .done console) :
    machine.onConsole act =
      .done { machine with state := { machine.state with console } } := by
  unfold onConsole
  simp only
  rw [acted]
  rfl

theorem onConsole_of_failed {act : Console → Outcome StreamError Console} {error : StreamError}
    {console : Console} (acted : act machine.state.console = .failed error console) :
    machine.onConsole act =
      .failed error { machine with state := { machine.state with console } } := by
  unfold onConsole
  simp only
  rw [acted]
  rfl

theorem TakesAll.finish_eq (takes : machine.state.console.TakesAll) :
    machine.finish =
      (.stopped, { machine with
        state := { machine.state with console := machine.state.console.flushed } }) := by
  unfold finish
  rw [onConsole_of_done (Console.flush_eq_flushed takes.2)]

def afterReport (machine : Machine) : Machine :=
  { machine with
    state := { machine.state with console := machine.state.console.brokeLine.flushed }
    running := false }

theorem TakesAll.report_eq (takes : machine.state.console.TakesAll) (program : Program)
    (error : ExecutionError) :
    machine.report program error =
      ((machine.diagnostic? program error).elim .astray .reported, machine.afterReport) := by
  have acted : ({ machine with running := false } : Machine).onConsole
      (fun console => console.breakLine.bind Console.flush) = .done machine.afterReport :=
    onConsole_of_done takes.flush_brokeLine_eq
  have placed : machine.afterReport.diagnostic? program error =
      machine.diagnostic? program error := rfl
  unfold report
  simp only [acted, placed]
  cases machine.diagnostic? program error <;> rfl

theorem finish_ne_interrupted (takes : machine.state.console.TakesAll) (error : StreamError) :
    machine.finish.1 ≠ .interrupted error := by
  rw [TakesAll.finish_eq takes]
  nofun

theorem report_ne_interrupted (takes : machine.state.console.TakesAll) (program : Program)
    (reason : ExecutionError) (error : StreamError) :
    (machine.report program reason).1 ≠ .interrupted error := by
  rw [TakesAll.report_eq takes]
  cases machine.diagnostic? program reason <;> nofun

theorem source_finish (takes : machine.state.console.TakesAll) :
    machine.finish.2.state.console.source = machine.state.console.source := by
  rw [TakesAll.finish_eq takes]
  rfl

theorem source_report (takes : machine.state.console.TakesAll) (program : Program)
    (error : ExecutionError) :
    (machine.report program error).2.state.console.source =
      machine.state.console.source := by
  rw [TakesAll.report_eq takes]
  exact Console.source_brokeLine machine.state.console

theorem finish_eq (faultless : machine.state.Faultless) :
    machine.finish =
      (.stopped, { machine with
        state := { machine.state with console := machine.state.console.flushed } }) :=
  TakesAll.finish_eq ⟨faultless.capacity, faultless.flushLimit⟩

theorem report_eq (faultless : machine.state.Faultless) {error : ExecutionError}
    {diagnostic : Diagnostic}
    (placed : machine.diagnostic? program error = some diagnostic) :
    machine.report program error =
      (.reported diagnostic, { machine with
        state := { machine.state with console := machine.state.console.brokeLine.flushed }
        running := false }) := by
  have takes : machine.state.console.TakesAll := ⟨faultless.capacity, faultless.flushLimit⟩
  rw [TakesAll.report_eq takes, placed]
  rfl

theorem step_faultless (faultless : machine.state.Faultless) (settings : Settings)
    (program : Program) : (machine.step settings program).after.state.Faultless := by
  cases effect : program.effective machine.cursor with
  | error fault =>
      rw [step_of_error effect]
      exact faultless
  | ok command =>
      have settles := State.perform_settles faultless settings command
      rw [state_after_step effect]
      cases performed : machine.state.perform settings command with
      | done state =>
          rw [performed] at settles
          exact settles
      | failed fault state =>
          rw [performed] at settles
          cases fault with
          | execution error => exact settles
          | stream error => exact settles.elim
          | offProgram => exact settles.elim

theorem step_ne_stream (faultless : machine.state.Faultless) (error : StreamError)
    (later : Machine) : machine.step settings program ≠ .failed (.stream error) later := by
  intro failed
  rcases unperformed_or_perform_failed failed with
    ⟨-, effect | ⟨-, -, other⟩⟩ | ⟨command, state, -, performed, -⟩
  · exact Program.effective_ne_stream effect
  · cases other
  · have settles := State.perform_settles faultless settings command
    rw [performed] at settles
    exact settles

end TapeDialects.Machine
