/-
A run is its steps, one after the other, and then one flush or one report.

Steps can be taken from outside, one at a time, and a run takes the same ones.
Where they lead to a machine that has stopped, the run ends with that machine
and one more flush.  Where the next one fails by an execution error, the run ends
with the report of it, which shows the instruction and the pointer that the step
has found, and ends the line that the output was in the middle of.
-/

import TapeDialects.Proofs.Dialect.Standing
import TapeDialects.Proofs.Machine.Ending
import TapeDialects.Proofs.Machine.Failure
import TapeDialects.Proofs.Machine.OpenLine
import TapeDialects.Proofs.Machine.Reachable

namespace TapeDialects

theorem Program.effective_ne_offProgram {program : Program} {index : Nat}
    (inside : index < program.size) : program.effective index ≠ .error .offProgram := by
  obtain ⟨command, found⟩ := exists_command?_of_lt program inside
  unfold effective
  rw [found]
  split
  · next missing => cases missing
  · split
    · nofun
    · nofun
  · nofun

namespace Machine

/-- The machine after so many steps, if none of them fails. -/
def stepped? (settings : Settings) (program : Program) : Nat → Machine → Option Machine
  | 0, machine => some machine
  | count + 1, machine =>
      match machine.step settings program with
      | .done later => stepped? settings program count later
      | .failed _ _ => none

/-- None of the machines before so many steps has stopped. -/
def RunningBefore (settings : Settings) (program : Program) (count : Nat)
    (machine : Machine) : Prop :=
  ∀ earlier < count, ∀ between, machine.stepped? settings program earlier = some between →
    between.running = true

variable {settings : Settings} {program : Program} {machine later : Machine}
  {count : Nat}

theorem stepped?_succ_of_done (stepped : machine.step settings program = .done later)
    (count : Nat) :
    machine.stepped? settings program (count + 1) =
      later.stepped? settings program count := by
  rw [stepped?, stepped]

theorem exists_done_of_stepped?_succ
    (reached : machine.stepped? settings program (count + 1) = some later) :
    ∃ next, machine.step settings program = .done next ∧
      next.stepped? settings program count = some later := by
  rw [stepped?] at reached
  split at reached
  · next next stepped => exact ⟨next, stepped, reached⟩
  · cases reached

theorem RunningBefore.now (running : machine.RunningBefore settings program (count + 1)) :
    machine.running = true :=
  running 0 (Nat.succ_pos count) machine rfl

theorem RunningBefore.behind (running : machine.RunningBefore settings program (count + 1))
    (stepped : machine.step settings program = .done later) :
    later.RunningBefore settings program count := by
  intro earlier early between reached
  apply running (earlier + 1) (Nat.succ_lt_succ early) between
  rw [stepped?_succ_of_done stepped]
  exact reached

theorem RunningBefore.one (running : machine.running = true) :
    machine.RunningBefore settings program 1 := by
  intro earlier early between reached
  rw [Nat.lt_one_iff.mp early] at reached
  cases reached
  exact running

theorem RunningBefore.before (running : machine.running = true)
    (stepped : machine.step settings program = .done later)
    (further : later.RunningBefore settings program count) :
    machine.RunningBefore settings program (count + 1) := by
  intro earlier early between reached
  cases earlier with
  | zero =>
      cases reached
      exact running
  | succ earlier =>
      rw [stepped?_succ_of_done stepped] at reached
      exact further earlier (Nat.lt_of_succ_lt_succ early) between reached

theorem RunningBefore.mono {fewer : Nat}
    (running : machine.RunningBefore settings program count) (less : fewer ≤ count) :
    machine.RunningBefore settings program fewer := by
  intro earlier early
  exact running earlier (Nat.lt_of_lt_of_le early less)

theorem holds_of_stepped? {holds : Machine → Prop}
    (kept : ∀ {machine later : Machine}, holds machine → machine.running = true →
      machine.step settings program = .done later → holds later)
    (start : holds machine) (reached : machine.stepped? settings program count = some later)
    (running : machine.RunningBefore settings program count) : holds later := by
  induction count generalizing machine with
  | zero =>
      cases reached
      exact start
  | succ count ih =>
      obtain ⟨next, stepped, further⟩ := exists_done_of_stepped?_succ reached
      exact ih (kept start running.now stepped) further (running.behind stepped)

theorem stepped?_add (reached : machine.stepped? settings program count = some later)
    (more : Nat) :
    machine.stepped? settings program (count + more) = later.stepped? settings program more := by
  induction count generalizing machine with
  | zero =>
      cases reached
      rw [Nat.zero_add]
  | succ count ih =>
      obtain ⟨next, stepped, further⟩ := exists_done_of_stepped?_succ reached
      rw [Nat.add_right_comm, stepped?_succ_of_done stepped]
      exact ih further

theorem RunningBefore.succ (running : machine.RunningBefore settings program count)
    (reached : machine.stepped? settings program count = some later)
    (goesOn : later.running = true) : machine.RunningBefore settings program (count + 1) := by
  intro earlier early between arrived
  rcases Nat.lt_succ_iff_lt_or_eq.mp early with before | rfl
  · exact running earlier before between arrived
  · rw [reached] at arrived
    cases arrived
    exact goesOn

theorem runFor_add_of_stepped? (reached : machine.stepped? settings program count = some later)
    (running : machine.RunningBefore settings program count) (fuel : Nat) :
    machine.runFor settings program (count + fuel) = later.runFor settings program fuel := by
  induction count generalizing machine with
  | zero =>
      cases reached
      rw [Nat.zero_add]
  | succ count ih =>
      obtain ⟨next, stepped, further⟩ := exists_done_of_stepped?_succ reached
      rw [Nat.add_right_comm, runFor_succ_of_done running.now stepped]
      exact ih further (running.behind stepped)

theorem stepped?_succ {next : Machine}
    (reached : machine.stepped? settings program count = some later)
    (stepped : later.step settings program = .done next) :
    machine.stepped? settings program (count + 1) = some next := by
  rw [stepped?_add reached, stepped?_succ_of_done stepped]
  rfl

theorem run_eq_finish {halted : Machine} {fuel : Nat}
    (reached : machine.stepped? settings program count = some later)
    (running : machine.RunningBefore settings program (count + 1))
    (stepped : later.step settings program = .done halted) (stopped : halted.running = false)
    (enough : count + 1 < fuel) :
    machine.run settings program fuel = some halted.finish := by
  obtain ⟨extra, rfl⟩ := Nat.exists_eq_add_of_lt enough
  have whole : count + 1 + extra + 1 = count + (extra + 1 + 1) := by omega
  rw [whole, run_of_running running.now,
    runFor_add_of_stepped? reached (running.mono (Nat.le_succ count)),
    runFor_succ_of_done (running count (Nat.lt_succ_self count) later reached) stepped,
    runFor_succ_of_halted stopped]

theorem run_eq_report {failed : Machine} {error : ExecutionError} {fuel : Nat}
    (reached : machine.stepped? settings program count = some later)
    (running : machine.RunningBefore settings program (count + 1))
    (stepped : later.step settings program = .failed (.execution error) failed)
    (enough : count < fuel) :
    machine.run settings program fuel = some (failed.report program error) := by
  obtain ⟨extra, rfl⟩ := Nat.exists_eq_add_of_lt enough
  rw [run_of_running running.now, Nat.add_assoc,
    runFor_add_of_stepped? reached (running.mono (Nat.le_succ count)),
    runFor_succ_of_execution (running count (Nat.lt_succ_self count) later reached) stepped]

theorem step_ne_offProgram (faultless : machine.state.Faultless)
    (inside : machine.cursor < program.size) (later : Machine) :
    machine.step settings program ≠ .failed .offProgram later := by
  intro failed
  rcases unperformed_or_perform_failed failed with
    ⟨-, effect | ⟨-, -, other⟩⟩ | ⟨command, state, -, performed, -⟩
  · exact Program.effective_ne_offProgram inside effect
  · cases other
  · have settles := State.perform_settles faultless settings command
    rw [performed] at settles
    exact settles

theorem exists_execution_of_step_failed {fault : Fault} (faultless : machine.state.Faultless)
    (inside : machine.cursor < program.size)
    (failed : machine.step settings program = .failed fault later) :
    ∃ error, fault = .execution error := by
  cases fault with
  | execution error => exact ⟨error, rfl⟩
  | stream error => exact absurd failed (step_ne_stream faultless error later)
  | offProgram => exact absurd failed (step_ne_offProgram faultless inside later)

theorem finish_ne_reported (machine : Machine) (diagnostic : Diagnostic) :
    machine.finish.1 ≠ .reported diagnostic := by
  unfold finish
  split
  · nofun
  · nofun

theorem exists_failing_of_reported {fuel : Nat} {diagnostic : Diagnostic} {final : Machine}
    (ended : machine.runFor settings program fuel = some (.reported diagnostic, final)) :
    ∃ count failing error failed,
      machine.stepped? settings program count = some failing ∧
      machine.RunningBefore settings program (count + 1) ∧
      failing.step settings program = .failed (.execution error) failed := by
  induction fuel generalizing machine with
  | zero => cases ended
  | succ fuel ih =>
      cases running : machine.running with
      | false =>
          rw [runFor_succ_of_halted running] at ended
          exact absurd (congrArg Prod.fst (Option.some.inj ended))
            (machine.finish_ne_reported diagnostic)
      | true =>
          rcases runFor_succ_cases running ended with ⟨later, stepped, further⟩ |
            ⟨error, later, stepped, -⟩ | ⟨error, -, other⟩ | ⟨-, other⟩
          · obtain ⟨count, failing, error, failed, reached, goesOn, fails⟩ := ih further
            refine ⟨count + 1, failing, error, failed, ?_, ?_, fails⟩
            · rw [stepped?_succ_of_done stepped]
              exact reached
            · exact .before running stepped goesOn
          · exact ⟨0, machine, error, later, rfl, .one running, stepped⟩
          · cases other
          · cases other

structure OnWay (settings : Settings) (program : Program) (machine : Machine) : Prop where
  sound : machine.Sound settings program
  takes : machine.state.console.TakesAll
  tracks : machine.state.console.TracksLine

theorem initial_onWay (settings : Settings) (program : Program) (source : Source) :
    (initial settings source (Sink.empty none none)).OnWay settings program :=
  { sound := initial_sound settings program source _
    takes := ⟨rfl, rfl⟩
    tracks := Console.ofStreams_tracksLine source none none }

theorem OnWay.step (onWay : machine.OnWay settings program) (running : machine.running = true)
    (stepped : machine.step settings program = .done later) :
    later.OnWay settings program := by
  have sound := (step_sound onWay.sound (onWay.sound.inside running)).1
  have takes := step_framed Console.takesAll_framed onWay.takes settings program
  have tracks := step_tracksLine settings program onWay.tracks
  rw [stepped] at sound takes tracks
  exact { sound, takes, tracks := tracks nofun }

/-! ### What a report leaves and what it shows -/

theorem written_afterReport (machine : Machine) :
    machine.afterReport.state.console.sink.written =
      machine.state.console.sink.written ++
        (if machine.state.console.midLine then [lineFeed] else []) :=
  Console.written_brokeLine machine.state.console

theorem flushes_afterReport (machine : Machine) :
    machine.afterReport.state.console.sink.flushes =
      machine.state.console.sink.flushes + 1 := by
  unfold afterReport Console.flushed Console.brokeLine
  split <;> rfl

theorem run_of_halted (halted : machine.running = false) (fuel : Nat) :
    machine.run settings program fuel = some (.refused, machine) := by
  rw [run, halted]
  rfl

theorem diagnostic?_eq_map {instruction : Instruction}
    (found : program.instruction? machine.cursor = some instruction)
    (error : ExecutionError) :
    machine.diagnostic? program error =
      (Excerpt.of? program.text instruction.span).map fun excerpt =>
        { lexeme := instruction.lexeme
          excerpt
          pointer := machine.state.tape.pointer
          message := error.message } := by
  rw [diagnostic?, found]
  rfl

theorem exists_excerpt_of_sliceable (sliceable : program.Sliceable) {index : Nat}
    {instruction : Instruction} (found : program.instruction? index = some instruction) :
    ∃ excerpt, Excerpt.of? program.text instruction.span = some excerpt := by
  rw [Program.instruction?_eq_getElem?] at found
  obtain ⟨cut, sliced⟩ :=
    Option.isSome_iff_exists.mp (sliceable instruction (List.mem_of_getElem? found))
  exact ⟨Excerpt.ofCut cut, by rw [Excerpt.of?, sliced]; rfl⟩

theorem exists_instruction?_of_step_execution {error : ExecutionError}
    (failed : machine.step settings program = .failed (.execution error) later) :
    ∃ instruction, program.instruction? machine.cursor = some instruction := by
  cases found : program.instruction? machine.cursor with
  | some instruction => exact ⟨instruction, rfl⟩
  | none =>
      have missing : program.effective machine.cursor = .error .offProgram := by
        unfold Program.effective Program.command?
        rw [found]
        rfl
      unfold step at failed
      rw [missing] at failed
      cases failed

theorem exists_cut_of_step_execution (sliceable : program.Sliceable) {error : ExecutionError}
    (failed : machine.step settings program = .failed (.execution error) later) :
    ∃ instruction cut, program.instruction? machine.cursor = some instruction ∧
      program.text.cut? instruction.span = some cut ∧
      later.diagnostic? program error =
        some { lexeme := instruction.lexeme
               excerpt := Excerpt.ofCut cut
               pointer := machine.state.tape.pointer
               message := error.message } := by
  obtain ⟨instruction, found⟩ := exists_instruction?_of_step_execution failed
  obtain ⟨sameTape, sameCursor⟩ := unmoved_of_step_failed failed
  have member : instruction ∈ program.instructions := by
    rw [Program.instruction?_eq_getElem?] at found
    exact List.mem_of_getElem? found
  obtain ⟨cut, sliced⟩ := Option.isSome_iff_exists.mp (sliceable instruction member)
  refine ⟨instruction, cut, found, sliced, ?_⟩
  unfold diagnostic? Diagnostic.of? Excerpt.of?
  rw [sameCursor, found, Option.bind_some, sliced, sameTape]
  rfl

/-! ### Runs and steps -/

/-- How a run ends whose next step, behind so many others, fails by an execution error. -/
structure ReportsStep (settings : Settings) (program : Program) (fresh : Machine)
    (count : Nat) (failing : Machine) (error : ExecutionError) (failed final : Machine)
    (instruction : Instruction) : Prop where
  found : program.instruction? failing.cursor = some instruction
  placed : program.Sliceable →
    ∃ excerpt, Excerpt.of? program.text instruction.span = some excerpt
  reported : ∀ excerpt, Excerpt.of? program.text instruction.span = some excerpt →
    ∀ fuel, count < fuel → fresh.run settings program fuel =
      some (.reported
        { lexeme := instruction.lexeme
          excerpt
          pointer := failing.state.tape.pointer
          message := error.message }, final)
  tape : final.state.tape = failing.state.tape
  cursor : final.cursor = failing.cursor
  halted : final.running = false
  /-- The output gets a line break if it is in the middle of a line, and no other byte. -/
  written : final.state.console.sink.written =
    failing.state.console.sink.written ++
      (if failing.state.console.sink.isOpen then [lineFeed] else [])
  flushes : final.state.console.sink.flushes = failed.state.console.sink.flushes + 1
  source : final.state.console.source = failed.state.console.source
  refuses : ∀ fuel, final.run settings program fuel = some (.refused, final)

structure RunsBySteps (settings : Settings) (program : Program) (fresh : Machine) : Prop where
  /-- The first machine that has stopped ends the run, with one more flush. -/
  stops : ∀ (count : Nat) (halted : Machine),
    fresh.stepped? settings program count = some halted →
    fresh.RunningBefore settings program count → halted.running = false →
      ∃ final : Machine,
        final = { halted with
          state := { halted.state with console := halted.state.console.flushed } } ∧
        (∀ fuel, count < fuel → fresh.run settings program fuel = some (.stopped, final)) ∧
        ∀ fuel, final.run settings program fuel = some (.refused, final)
  /-- The first step that fails by an execution error ends the run with its report. -/
  reports : ∀ (count : Nat) (failing failed : Machine) (error : ExecutionError),
    fresh.stepped? settings program count = some failing →
    fresh.RunningBefore settings program (count + 1) →
    failing.step settings program = .failed (.execution error) failed →
      ∃ final instruction,
        ReportsStep settings program fresh count failing error failed final instruction
  refusal : Ending.refusal = "Program is already ended."

theorem reportsStep_of_failed {failing failed : Machine} {error : ExecutionError}
    (onWay : machine.OnWay settings program)
    (reached : machine.stepped? settings program count = some failing)
    (running : machine.RunningBefore settings program (count + 1))
    (stepped : failing.step settings program = .failed (.execution error) failed) :
    ∃ instruction, ReportsStep settings program machine count failing error failed
      failed.afterReport instruction := by
  have before := running.mono (Nat.le_succ count)
  have arrived : failing.OnWay settings program :=
    holds_of_stepped? OnWay.step onWay reached before
  have goesOn : failing.running = true :=
    running count (Nat.lt_succ_self count) failing reached
  obtain ⟨sameTape, sameCursor⟩ := unmoved_of_step_failed stepped
  have takes := step_framed Console.takesAll_framed arrived.takes settings program
  rw [stepped, Outcome.after_failed] at takes
  have inside := arrived.sound.inside goesOn
  obtain ⟨instruction, found⟩ := Program.exists_instruction?_of_lt program inside
  have untouched : failed.state.console.sink.written =
        failing.state.console.sink.written ∧
      failed.state.console.midLine = failing.state.console.sink.isOpen := by
    have tracks : failing.state.console.midLine = failing.state.console.sink.isOpen :=
      arrived.tracks
    rcases exists_console_of_execution stepped with same | ⟨taken, left⟩
    · rw [same]
      exact ⟨rfl, tracks⟩
    · rw [left]
      exact ⟨rfl, tracks⟩
  refine ⟨instruction,
    { found
      placed := fun sliceable => exists_excerpt_of_sliceable sliceable found
      reported := ?reported
      tape := sameTape
      cursor := sameCursor
      halted := rfl
      written := ?written
      flushes := flushes_afterReport failed
      source := Console.source_brokeLine failed.state.console
      refuses := run_of_halted rfl }⟩
  case reported =>
      intro excerpt cut fuel enough
      have here : program.instruction? failed.cursor = some instruction := by
        rw [sameCursor]
        exact found
      rw [run_eq_report reached running stepped enough, TakesAll.report_eq takes,
        diagnostic?_eq_map here, cut, sameTape]
      rfl
  case written =>
      rw [written_afterReport, untouched.1, untouched.2]

theorem run_by_steps (settings : Settings) (program : Program) (source : Source) :
    RunsBySteps settings program (initial settings source (Sink.empty none none)) := by
  have onWay := initial_onWay settings program source
  refine { stops := ?stops, reports := ?reports, refusal := rfl }
  case stops =>
      intro count halted reached running stopped
      have arrived : halted.OnWay settings program :=
        holds_of_stepped? OnWay.step onWay reached running
      refine ⟨_, rfl, ?_, run_of_halted stopped⟩
      intro fuel enough
      obtain ⟨extra, rfl⟩ := Nat.exists_eq_add_of_lt enough
      rw [run_of_running rfl, Nat.add_assoc, runFor_add_of_stepped? reached running,
        runFor_succ_of_halted stopped,
        TakesAll.finish_eq arrived.takes]
  case reports =>
      intro count failing failed error reached running stepped
      obtain ⟨instruction, reports⟩ := reportsStep_of_failed onWay reached running stepped
      exact ⟨_, instruction, reports⟩

end Machine
end TapeDialects
