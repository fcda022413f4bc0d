/-
Strict settings change no run that meets none of their bounds.

Such a run is the same run under wider settings, to its last step and ending.
Where the output cannot fail, a run that meets a bound says so in its report.  If
the report itself fails, the stream error hides the bound: then the two runs end
alike and need not have anything else in common.
-/

import TapeDialects.Machine.Stretch
import TapeDialects.Proofs.Machine.Ending
import TapeDialects.Proofs.Machine.Frame
import TapeDialects.Proofs.Machine.Reachable
import TapeDialects.Proofs.Machine.Widening

namespace TapeDialects

namespace Stretch

def extended (zeros : Nat) (stretch : Stretch) : Stretch :=
  { stretch with machine := stretch.machine.extended zeros }

end Stretch

/-- Nothing is reported, or no error of a bound, and what is reported has its place. -/
def Ending.ReportsNoBound (ending : Ending) : Prop :=
  ending ≠ .astray ∧ ∀ (diagnostic : Diagnostic) (error : ExecutionError),
    ending = .reported diagnostic → error.isBound = true →
      diagnostic.message ≠ error.message

namespace Machine

variable {settings wider : Settings} {program : Program} {machine later : Machine}
  {fault : Fault}

theorem stretch_succ_of_failed (stepped : machine.step settings program = .failed fault later)
    (count : Nat) :
    machine.stretch settings program (count + 1) =
      { snapshots := [], fault? := some fault, machine := later } := by
  rw [stretch, stepped]

theorem stretch_succ_of_running (stepped : machine.step settings program = .done later)
    (running : later.running = true) (count : Nat) :
    machine.stretch settings program (count + 1) =
      { later.stretch settings program count with
        snapshots :=
          later.snapshot :: (later.stretch settings program count).snapshots } := by
  rw [stretch, stepped]
  exact if_pos running

theorem stretch_succ_of_halted (stepped : machine.step settings program = .done later)
    (halted : later.running = false) (count : Nat) :
    machine.stretch settings program (count + 1) =
      { snapshots := [later.snapshot], fault? := none, machine := later } := by
  rw [stretch, stepped]
  exact if_neg (by rw [halted]; exact Bool.false_ne_true)

/-! ### Runs that meet no bound -/

/-- No step from the machine on fails at a bound of tape or cells. -/
def MeetsNoBound (settings : Settings) (program : Program) (machine : Machine) : Prop :=
  ∀ count fault, (machine.stretch settings program count).fault? = some fault →
    fault.isBound = false

theorem MeetsNoBound.step (meets : machine.MeetsNoBound settings program) :
    (machine.step settings program).Avoids Fault.isBound := by
  cases stepped : machine.step settings program with
  | done later => trivial
  | failed fault later =>
      apply meets 1 fault
      rw [stretch_succ_of_failed stepped]

theorem MeetsNoBound.behind (meets : machine.MeetsNoBound settings program)
    (stepped : machine.step settings program = .done later)
    (running : later.running = true) : later.MeetsNoBound settings program := by
  intro count fault found
  apply meets (count + 1) fault
  rw [stretch_succ_of_running stepped running]
  exact found

theorem stretch_extended (strict : settings.StrictIn wider) (zeros : Nat)
    (sound : machine.Sound settings program) (running : machine.running = true)
    (meets : machine.MeetsNoBound settings program) (count : Nat) :
    (machine.extended zeros).stretch wider program count =
      (machine.stretch settings program count).extended zeros := by
  induction count generalizing machine with
  | zero => rfl
  | succ count ih =>
      have same := step_extended strict zeros sound.tape.inside meets.step
      have kept := (step_sound sound (sound.inside running)).1
      cases stepped : machine.step settings program with
      | failed fault later =>
          rw [stepped] at same
          rw [stretch_succ_of_failed stepped, stretch_succ_of_failed same]
          rfl
      | done later =>
          rw [stepped] at same kept
          rw [Outcome.after_done] at kept
          have snapshot : (later.extended zeros).snapshot = later.snapshot := by
            have current := later.state.tape.current_extended zeros
            unfold Machine.snapshot
            rw [← current]
            rfl
          cases goesOn : later.running with
          | false =>
              have widerHalted : (later.extended zeros).running = false := goesOn
              rw [stretch_succ_of_halted stepped goesOn,
                stretch_succ_of_halted same widerHalted, snapshot]
              rfl
          | true =>
              have widerRunning : (later.extended zeros).running = true := goesOn
              rw [stretch_succ_of_running stepped goesOn,
                stretch_succ_of_running same widerRunning, snapshot,
                ih kept goesOn (meets.behind stepped goesOn)]
              rfl

theorem runFor_extended (strict : settings.StrictIn wider) (zeros : Nat)
    (sound : machine.Sound settings program)
    (meets : machine.running = true → machine.MeetsNoBound settings program) (fuel : Nat) :
    (machine.extended zeros).runFor wider program fuel =
      (machine.runFor settings program fuel).map (Prod.map id (extended zeros)) := by
  induction fuel generalizing machine with
  | zero => rfl
  | succ fuel ih =>
      cases goesOn : machine.running with
      | false =>
          have widerHalted : (machine.extended zeros).running = false := goesOn
          rw [runFor_succ_of_halted goesOn, runFor_succ_of_halted widerHalted, finish_extended]
          rfl
      | true =>
          have widerRunning : (machine.extended zeros).running = true := goesOn
          have same := step_extended strict zeros sound.tape.inside (meets goesOn).step
          have kept := (step_sound sound (sound.inside goesOn)).1
          cases stepped : machine.step settings program with
          | done later =>
              rw [stepped] at same kept
              rw [Outcome.after_done] at kept
              rw [runFor_succ_of_done goesOn stepped, runFor_succ_of_done widerRunning same]
              exact ih kept ((meets goesOn).behind stepped)
          | failed fault later =>
              rw [stepped] at same
              cases fault with
              | execution error =>
                  rw [runFor_succ_of_execution goesOn stepped,
                    runFor_succ_of_execution widerRunning same, report_extended]
                  rfl
              | stream error =>
                  rw [runFor_succ_of_stream goesOn stepped,
                    runFor_succ_of_stream widerRunning same]
                  rfl
              | offProgram =>
                  rw [runFor_succ_of_offProgram goesOn stepped,
                    runFor_succ_of_offProgram widerRunning same]
                  rfl

/-! ### Bounds and reports -/

theorem report_cases (takes : machine.state.console.TakesAll) (program : Program)
    (error : ExecutionError) :
    (machine.report program error).1 = .astray ∨
      ∃ diagnostic, (machine.report program error).1 = .reported diagnostic ∧
        diagnostic.message = error.message := by
  rw [TakesAll.report_eq takes]
  cases placed : machine.diagnostic? program error with
  | none => exact Or.inl rfl
  | some diagnostic =>
      refine Or.inr ⟨diagnostic, rfl, ?_⟩
      rw [diagnostic?, Option.bind_eq_some_iff] at placed
      obtain ⟨instruction, -, shown⟩ := placed
      rw [Diagnostic.of?, Option.map_eq_some_iff] at shown
      obtain ⟨excerpt, -, same⟩ := shown
      rw [← same]

theorem meetsNoBound_of_ended {fuel : Nat} {ending : Ending} {final : Machine}
    (takes : machine.state.console.TakesAll) (running : machine.running = true)
    (ended : machine.runFor settings program fuel = some (ending, final))
    (unreported : ending.ReportsNoBound) : machine.MeetsNoBound settings program := by
  induction fuel generalizing machine with
  | zero => cases ended
  | succ fuel ih =>
      intro count fault found
      cases count with
      | zero => cases found
      | succ count =>
          have left := step_framed Console.takesAll_framed takes settings program
          cases stepped : machine.step settings program with
          | failed reason later =>
              rw [stretch_succ_of_failed stepped] at found
              cases found
              cases fault with
              | execution error =>
                  rw [stepped, Outcome.after_failed] at left
                  rw [runFor_succ_of_execution running stepped] at ended
                  have reported := report_cases left program error
                  rw [Option.some.inj ended] at reported
                  rcases reported with lost | ⟨diagnostic, shown, worded⟩
                  · exact absurd lost unreported.1
                  · rw [← Bool.not_eq_true]
                    intro bound
                    exact unreported.2 diagnostic error shown bound worded
              | stream error => rfl
              | offProgram => rfl
          | done later =>
              cases goesOn : later.running with
              | false =>
                  rw [stretch_succ_of_halted stepped goesOn] at found
                  cases found
              | true =>
                  rw [stepped, Outcome.after_done] at left
                  rw [runFor_succ_of_done running stepped] at ended
                  rw [stretch_succ_of_running stepped goesOn] at found
                  exact ih left goesOn ended count fault found

/-- A run under the first settings has another under the second beside it: from step
to step they differ by the zeros behind the tape, and they end in the same way. -/
structure RunsBeside (settings wider : Settings) (program : Program) (source : Source)
    (sink : Sink) (fuel : Nat) (ending : Ending) (final : Machine) : Prop where
  stretches : ∀ count,
    (initial wider source sink).stretch wider program count =
      ((initial settings source sink).stretch settings program count).extended
        (wider.tapeLength - settings.tapeLength)
  ends : (initial wider source sink).run wider program fuel =
    some (ending, final.extended (wider.tapeLength - settings.tapeLength))

structure Conservative (settings wider : Settings) (program : Program) (source : Source)
    (sink : Sink) : Prop where
  /-- A run that meets no bound, on any streams. -/
  unmet : ∀ (fuel : Nat) (ending : Ending) (final : Machine),
    (initial settings source sink).run settings program fuel = some (ending, final) →
    (initial settings source sink).MeetsNoBound settings program →
      RunsBeside settings wider program source sink fuel ending final
  /-- A run that reports no bound, on an output that cannot fail. -/
  unreported : (Console.ofStreams source sink).TakesAll →
    ∀ (fuel : Nat) (ending : Ending) (final : Machine),
      (initial settings source sink).run settings program fuel = some (ending, final) →
      ending.ReportsNoBound →
        RunsBeside settings wider program source sink fuel ending final

theorem runsBeside_of_meetsNoBound (strict : settings.StrictIn wider) {source : Source}
    {sink : Sink} {fuel : Nat} {ending : Ending} {final : Machine}
    (ended : (initial settings source sink).run settings program fuel = some (ending, final))
    (meets : (initial settings source sink).MeetsNoBound settings program) :
    RunsBeside settings wider program source sink fuel ending final := by
  have sound := initial_sound settings program source sink
  rw [run_of_running rfl] at ended
  refine { stretches := ?stretches, ends := ?ends }
  case stretches =>
      intro count
      rw [← initial_extended strict]
      exact stretch_extended strict _ sound rfl meets count
  case ends =>
      rw [run_of_running rfl, ← initial_extended strict,
        runFor_extended strict _ sound (fun _ => meets), ended]
      rfl

theorem conservative_of_strictIn (strict : settings.StrictIn wider) (program : Program)
    (source : Source) (sink : Sink) : Conservative settings wider program source sink := by
  refine { unmet := ?unmet, unreported := ?unreported }
  case unmet =>
      intro fuel ending final ended meets
      exact runsBeside_of_meetsNoBound strict ended meets
  case unreported =>
      intro takes fuel ending final ended unreported
      have ran := ended
      rw [run_of_running rfl] at ran
      exact runsBeside_of_meetsNoBound strict ended
        (meetsNoBound_of_ended takes rfl ran unreported)

def threeStrictCells : Settings :=
  { Settings.standard with
    tapeLength := 3
    looped := false
    wrapping := false
    tapeLength_pos := by decide
    tapeLength_lt := by decide }

def fourLooseCells : Settings :=
  { Settings.standard with
    tapeLength := 4
    variants := 300
    signed := true
    tapeLength_pos := by decide
    tapeLength_lt := by decide
    two_le_variants := by decide
    variants_le := by decide }

theorem threeStrictCells_strictIn : threeStrictCells.StrictIn fourLooseCells :=
  { unlooped := rfl
    unwrapped := rfl
    tapeLength_le := by decide
    variants_le := by decide
    signed := nofun }

def readIntoSecond : Program :=
  Program.ofInstructions "+>,".toList
    [.startingAt 0 .increment ['+'], .startingAt 1 .right ['>'],
      .startingAt 2 .input [',']]

/-- A byte that is no text ends both runs, with the first cell increased. -/
theorem readIntoSecond_runsBeside :
    threeStrictCells.StrictIn fourLooseCells ∧
      ∃ final : Machine,
        (initial threeStrictCells (Source.ofBytes [255] none) (Sink.empty none none)).run
            threeStrictCells readIntoSecond 4 = some (.interrupted .invalidText, final) ∧
          final.state.tape = { cells := #[1, 0, 0], pointer := 1 } ∧
          RunsBeside threeStrictCells fourLooseCells readIntoSecond (Source.ofBytes [255] none)
            (Sink.empty none none) 4 (.interrupted .invalidText) final :=
  ⟨threeStrictCells_strictIn, _, rfl, rfl,
    (conservative_of_strictIn threeStrictCells_strictIn readIntoSecond
      (Source.ofBytes [255] none) (Sink.empty none none)).unreported
      ⟨rfl, rfl⟩ 4 _ _ rfl ⟨nofun, nofun⟩⟩

def stepOffAndWrite : Program :=
  Program.ofInstructions "<.".toList
    [.startingAt 0 .left ['<'], .startingAt 1 .output ['.']]

/-- An output that refuses to be flushed hides the bound that a run has met: it is not
reported, and yet the looped tape lets the other run go on and write. -/
theorem stepOffAndWrite_runsApart :
    threeStrictCells.StrictIn fourLooseCells ∧
      (Ending.interrupted .flushFailed).ReportsNoBound ∧
      ∃ final later : Machine,
        (initial threeStrictCells (Source.ofBytes [] none) (Sink.empty none (some 0))).run
            threeStrictCells stepOffAndWrite 5 = some (.interrupted .flushFailed, final) ∧
          (initial fourLooseCells (Source.ofBytes [] none) (Sink.empty none (some 0))).run
            fourLooseCells stepOffAndWrite 5 = some (.interrupted .flushFailed, later) ∧
          (final.cursor = 1 ∧ later.cursor = 4) ∧
          (final.state.tape.pointer = 0 ∧ later.state.tape.pointer = 3) ∧
          (final.state.console.sink.written = #[] ∧
            later.state.console.sink.written = #[0]) ∧
          ¬ RunsBeside threeStrictCells fourLooseCells stepOffAndWrite (Source.ofBytes [] none)
            (Sink.empty none (some 0)) 5 (.interrupted .flushFailed) final := by
  refine ⟨threeStrictCells_strictIn, ⟨nofun, nofun⟩, _, _, rfl, rfl, ⟨rfl, rfl⟩,
    ⟨rfl, rfl⟩, ⟨rfl, rfl⟩, ?_⟩
  intro beside
  exact absurd beside.ends (by decide)

end Machine
end TapeDialects
