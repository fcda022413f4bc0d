/-
Runs that are called again behind each line of input that is no text.

Such a line ends a run and leaves its machine running, at the instruction that
has asked for the line.  So the next run goes on from there with the next line.
Called for as long as they end like that, the runs come to the same end as one
run on the input without these lines: same tape, same output, and one more flush
for each of them.
-/

import TapeDialects.Proofs.Machine.BrokenLine
import TapeDialects.Proofs.Machine.Ending
import TapeDialects.Proofs.Machine.Failure

namespace TapeDialects.Machine

/-- Run the machine, and again for as long as runs end at a line that is no text: how
many have ended so, and how another one has.  There is no result if a run gets out of
fuel, or if all of so many calls end so. -/
def runAgain (settings : Settings) (program : Program) (fuel : Nat) :
    Nat → Machine → Option (Nat × Ending × Machine)
  | 0, _ => none
  | calls + 1, machine =>
      match machine.run settings program fuel with
      | some (.interrupted .invalidText, later) =>
          (runAgain settings program fuel calls later).map fun (failures, ended) =>
            (failures + 1, ended)
      | some ended => some (0, ended)
      | none => none

variable {settings : Settings} {program : Program} {machine later final : Machine}
  {ending : Ending} {source : Source} {failures : Nat}

/-! ### Runs that are called again, whatever the fuel -/

/-- With enough fuel for each of them, so many runs end at a line that is no text, and
the next one ends otherwise. -/
inductive Persists (settings : Settings) (program : Program) :
    Nat → Machine → Ending → Machine → Prop where
  | ends {machine final : Machine} {ending : Ending}
      (ends : machine.Ends settings program ending final)
      (other : ending ≠ .interrupted .invalidText) :
      Persists settings program 0 machine ending final
  | again {failures : Nat} {machine later final : Machine} {ending : Ending}
      (interrupted : machine.Ends settings program (.interrupted .invalidText) later)
      (running : later.running = true)
      (persists : Persists settings program failures later ending final) :
      Persists settings program (failures + 1) machine ending final

theorem Persists.of_done (running : machine.running = true)
    (stepped : machine.step settings program = .done later)
    (persists : Persists settings program failures later ending final) :
    Persists settings program failures machine ending final := by
  cases persists with
  | ends ends other => exact .ends ((ends_iff_of_done running stepped).mpr ends) other
  | again interrupted goesOn persists =>
      exact .again ((ends_iff_of_done running stepped).mpr interrupted) goesOn persists

theorem Persists.of_failed (running : machine.running = true)
    (stepped : machine.step settings program = .failed (.stream .invalidText) later)
    (goesOn : later.running = true)
    (persists : Persists settings program failures later ending final) :
    Persists settings program (failures + 1) machine ending final :=
  .again ⟨1, runFor_succ_of_stream running stepped 0⟩ goesOn persists

theorem Persists.exists_runAgain
    (persists : Persists settings program failures machine ending final)
    (running : machine.running = true) :
    ∃ enough, ∀ fuel ≥ enough, ∀ calls > failures,
      machine.runAgain settings program fuel calls = some (failures, ending, final) := by
  induction persists with
  | ends ends other =>
      obtain ⟨enough, ran⟩ := ends.exists_run running
      refine ⟨enough, ?_⟩
      intro fuel more calls left
      obtain ⟨calls, rfl⟩ := Nat.exists_eq_add_of_lt left
      rw [Nat.zero_add, runAgain, ran fuel more]
      split
      · next same =>
          cases same
          exact absurd rfl other
      · next same =>
          cases same
          rfl
      · next same => cases same
  | again interrupted goesOn _ ih =>
      obtain ⟨enough, ran⟩ := interrupted.exists_run running
      obtain ⟨further, ended⟩ := ih goesOn
      refine ⟨max enough further, ?_⟩
      intro fuel more calls left
      have first := ran fuel (Nat.le_trans (Nat.le_max_left _ _) more)
      have rest := ended fuel (Nat.le_trans (Nat.le_max_right _ _) more)
      cases calls with
      | zero => exact absurd left (Nat.not_lt_zero _)
      | succ calls =>
          rw [runAgain, first]
          simp only
          rw [rest calls (Nat.lt_of_succ_lt_succ left)]
          rfl

def fedBy (source : Source) (failures : Nat) (machine : Machine) : Machine :=
  machine.changed (State.rewired (Console.fedBy source failures))

variable {taken : List (List UInt8)}

theorem exists_step_fedBy (settings : Settings) (failures : Nat)
    (faultless : machine.state.Faultless)
    (cleans : machine.state.console.source.Cleans source)
    (ready : program.effective machine.cursor = .ok .input →
      Source.isText (Source.firstLine source.rest) = true) :
    ∃ next taken,
      (machine.fedBy source failures).step settings program =
        (machine.step settings program).map (fedBy next failures) ∧
      (machine.step settings program).after.state.console.source.Cleans next ∧
      Source.Took taken source next ∧ Source.brokenLines taken = 0 := by
  cases effect : program.effective machine.cursor with
  | error fault =>
      have fedEffect : program.effective (machine.fedBy source failures).cursor =
          .error fault := effect
      rw [step_of_error effect, step_of_error fedEffect]
      exact ⟨source, [], rfl, cleans, .nothing source, rfl⟩
  | ok command =>
      rw [state_after_step effect]
      by_cases reading : command = .input
      · subst reading
        have text := ready effect
        obtain ⟨same, console⟩ :=
          State.input_fedBy_of_text settings failures faultless cleans text
        refine ⟨source.skipLine, _, step_changed effect rfl same, ?_,
          Source.took_skipLine source, Source.brokenLines_of_text text⟩
        rw [State.perform, console]
        exact cleans.skipLine text
      · obtain ⟨same, kept⟩ :=
          State.perform_fedBy_of_ne_input reading settings source failures machine.state
        refine ⟨source, [], step_changed effect rfl same, ?_, .nothing source, rfl⟩
        rw [kept]
        exact cleans

theorem step_fedBy_of_broken (faultless : machine.state.Faultless)
    (cleans : machine.state.console.source.Cleans source)
    (reading : program.effective machine.cursor = .ok .input)
    (broken : Source.isText (Source.firstLine source.rest) = false) :
    (machine.fedBy source failures).step settings program =
      .failed (.stream .invalidText) (machine.fedBy source.skipLine (failures + 1)) :=
  step_failed_of_plain reading (by decide)
    (State.input_fedBy_of_broken faultless cleans broken)

theorem finish_fedBy (takes : machine.state.console.TakesAll) (source : Source)
    (failures : Nat) :
    (machine.fedBy source failures).finish = machine.finish.map id (fedBy source failures) := by
  have fedTakes : (machine.fedBy source failures).state.console.TakesAll := takes
  have flushed : (machine.fedBy source failures).state.console.flushed =
      machine.state.console.flushed.fedBy source failures :=
    Console.flushed_fedBy machine.state.console
  rw [TakesAll.finish_eq takes, TakesAll.finish_eq fedTakes, flushed]
  rfl

theorem afterReport_fedBy (machine : Machine) :
    (machine.fedBy source failures).afterReport =
      machine.afterReport.fedBy source failures := by
  have flushed : (machine.fedBy source failures).state.console.brokeLine.flushed =
      machine.state.console.brokeLine.flushed.fedBy source failures := by
    rw [← Console.flushed_fedBy, ← Console.brokeLine_fedBy]
    rfl
  unfold afterReport
  rw [flushed]
  rfl

theorem report_fedBy (takes : machine.state.console.TakesAll) (program : Program)
    (error : ExecutionError) (source : Source) (failures : Nat) :
    (machine.fedBy source failures).report program error =
      (machine.report program error).map id (fedBy source failures) := by
  have fedTakes : (machine.fedBy source failures).state.console.TakesAll := takes
  have placed : (machine.fedBy source failures).diagnostic? program error =
      machine.diagnostic? program error := rfl
  rw [TakesAll.report_eq takes, TakesAll.report_eq fedTakes, placed, afterReport_fedBy]
  rfl

/-! ### Runs on the two inputs -/

def ComesTo (settings : Settings) (program : Program) (machine : Machine) (source : Source)
    (failures : Nat) (ending : Ending) (final : Machine) : Prop :=
  ∃ next taken, Source.Took taken source next ∧
    final.state.console.source.Cleans next ∧
    Persists settings program (Source.brokenLines taken) (machine.fedBy source failures)
      ending (final.fedBy next (failures + Source.brokenLines taken))

variable {next : Source}

theorem ComesTo.of_ends (took : Source.Took taken source next)
    (unbroken : Source.brokenLines taken = 0)
    (cleans : final.state.console.source.Cleans next)
    (ends : (machine.fedBy source failures).Ends settings program ending
      (final.fedBy next failures))
    (other : ending ≠ .interrupted .invalidText) :
    ComesTo settings program machine source failures ending final := by
  refine ⟨next, taken, took, cleans, ?_⟩
  rw [unbroken]
  exact .ends ends other

theorem ComesTo.of_done (running : machine.running = true)
    (stepped : (machine.fedBy source failures).step settings program =
      .done (later.fedBy next failures))
    (took : Source.Took taken source next) (unbroken : Source.brokenLines taken = 0)
    (comes : ComesTo settings program later next failures ending final) :
    ComesTo settings program machine source failures ending final := by
  obtain ⟨last, others, tookOthers, cleans, persists⟩ := comes
  refine ⟨last, taken ++ others, took.append tookOthers, cleans, ?_⟩
  rw [Source.brokenLines_append, unbroken, Nat.zero_add]
  exact persists.of_done running stepped

theorem ComesTo.of_broken (running : machine.running = true)
    (faultless : machine.state.Faultless)
    (cleans : machine.state.console.source.Cleans source)
    (reading : program.effective machine.cursor = .ok .input)
    (broken : Source.isText (Source.firstLine source.rest) = false)
    (comes : ComesTo settings program machine source.skipLine (failures + 1) ending final) :
    ComesTo settings program machine source failures ending final := by
  obtain ⟨next, taken, took, lastCleans, persists⟩ := comes
  refine ⟨next, _, (Source.took_skipLine source).append took, lastCleans, ?_⟩
  rw [Source.brokenLines_append, Source.brokenLines_of_not_text broken, ← Nat.add_assoc,
    Nat.add_comm 1 (Source.brokenLines taken)]
  exact persists.of_failed running (step_fedBy_of_broken faultless cleans reading broken)
    running

theorem ComesTo.of_ready (running : machine.running = true)
    (faultless : machine.state.Faultless)
    (cleans : machine.state.console.source.Cleans source)
    (comes : ∀ ready failures, machine.state.console.source.Cleans ready →
      (program.effective machine.cursor = .ok .input →
        Source.isText (Source.firstLine ready.rest) = true) →
      ComesTo settings program machine ready failures ending final) :
    ComesTo settings program machine source failures ending final := by
  generalize ahead : Source.lines source.rest = remaining
  induction remaining generalizing source failures with
  | nil =>
      have ended : source.rest = [] := by
        rw [← Source.flatten_lines source.rest, ahead, List.flatten_nil]
      apply comes source failures cleans
      intro _
      rw [ended]
      exact Source.isText_nil
  | cons line remaining ih =>
      by_cases ready : program.effective machine.cursor = .ok .input →
          Source.isText (Source.firstLine source.rest) = true
      · exact comes source failures cleans ready
      · obtain ⟨reading, unread⟩ := Classical.not_imp.mp ready
        have broken := eq_false_of_ne_true unread
        have cut := Source.lines_eq_cons (Source.ne_nil_of_not_text broken)
        rw [ahead] at cut
        have behind : Source.lines source.skipLine.rest = remaining :=
          (List.cons.inj cut).2.symm
        exact .of_broken running faultless cleans reading broken
          (ih (cleans.skipBroken broken) behind)

theorem comesTo_of_runFor {fuel : Nat} (failures : Nat) (faultless : machine.state.Faultless)
    (cleans : machine.state.console.source.Cleans source)
    (ran : machine.runFor settings program fuel = some (ending, final)) :
    ComesTo settings program machine source failures ending final := by
  induction fuel generalizing machine source failures with
  | zero => cases ran
  | succ fuel ih =>
      have takes : machine.state.console.TakesAll := ⟨faultless.capacity, faultless.flushLimit⟩
      cases running : machine.running with
      | false =>
          have halted : (machine.fedBy source failures).running = false := running
          have other := finish_ne_interrupted takes .invalidText
          have left := source_finish takes
          have fed := finish_fedBy takes source failures
          rw [runFor_succ_of_halted running] at ran
          rw [Option.some.inj ran] at other left fed
          rw [← left] at cleans
          exact .of_ends (.nothing source) rfl cleans ((ends_iff_of_halted halted).mpr fed)
            other
      | true =>
          refine .of_ready running faultless cleans ?_
          intro ready failures cleans isReady
          have goesOn : (machine.fedBy ready failures).running = true := running
          obtain ⟨next, taken, fed, nextCleans, took, unbroken⟩ :=
            exists_step_fedBy settings failures faultless cleans isReady
          have kept := step_faultless faultless settings program
          rcases runFor_succ_cases running ran with ⟨later, stepped, further⟩ |
            ⟨error, later, stepped, reported⟩ | ⟨error, stepped, -⟩ | ⟨stepped, rfl⟩
          · rw [stepped] at fed nextCleans kept
            exact .of_done goesOn fed took unbroken (ih failures kept nextCleans further)
          · rw [stepped] at fed nextCleans kept
            have takes : later.state.console.TakesAll := ⟨kept.capacity, kept.flushLimit⟩
            have other := report_ne_interrupted takes program error .invalidText
            have left := source_report takes program error
            have fedReported := report_fedBy takes program error next failures
            rw [reported] at other left fedReported
            rw [Outcome.after_failed, ← left] at nextCleans
            exact .of_ends took unbroken nextCleans
              ((ends_iff_of_execution goesOn fed).mpr fedReported) other
          · exact absurd stepped (step_ne_stream faultless error final)
          · rw [stepped] at fed nextCleans
            exact .of_ends took unbroken nextCleans
              ⟨1, runFor_succ_of_offProgram goesOn fed 0⟩ nofun

/-! ### From the first call to the last -/

/-- What the calls from a fresh machine come to, beside a single run on the decodable lines. -/
structure ResumesTo (settings : Settings) (program : Program) (bytes : List UInt8)
    (ending : Ending) (final : Machine) (taken : List (List UInt8)) (last : Machine) :
    Prop where
  /-- One call fails at each broken line that is consumed, and the next one ends alike. -/
  ends : ∃ enough, ∀ fuel ≥ enough, ∀ calls > Source.brokenLines taken,
    (initial settings (Source.ofBytes bytes none) (Sink.empty none none)).runAgain settings
      program fuel calls = some (Source.brokenLines taken, ending, last)
  tape : last.state.tape = final.state.tape
  cursor : last.cursor = final.cursor
  running : last.running = final.running
  written : last.state.console.sink.written = final.state.console.sink.written
  flushes : last.state.console.sink.flushes =
    final.state.console.sink.flushes + Source.brokenLines taken
  lines : Source.lines bytes = taken ++ Source.lines last.state.console.source.rest
  consumed : last.state.console.source.consumed = taken.flatten.length
  left : final.state.console.source.rest =
    Source.decodable last.state.console.source.rest
  message : StreamError.invalidText.message = "stream did not contain valid UTF-8"

theorem exists_resumesTo_of_run (settings : Settings) (program : Program) (bytes : List UInt8)
    {fuel : Nat}
    (ran : (initial settings (Source.ofBytes (Source.decodable bytes) none)
      (Sink.empty none none)).run settings program fuel = some (ending, final)) :
    ∃ taken last, ResumesTo settings program bytes ending final taken last := by
  have faultless : (initial settings (Source.ofBytes (Source.decodable bytes) none)
      (Sink.empty none none)).state.Faultless := by
    obtain ⟨text, encoded⟩ := Source.exists_encode_eq_decodable bytes
    rw [encoded]
    exact Console.ofStreams_faultless text
  have cleans : (Source.ofBytes (Source.decodable bytes) none).Cleans
      (Source.ofBytes bytes none) := { limit := rfl, rest := rfl }
  rw [run_of_running rfl] at ran
  obtain ⟨next, taken, took, lastCleans, persists⟩ :=
    comesTo_of_runFor 0 faultless cleans ran
  rw [Nat.zero_add] at persists
  exact ⟨taken, final.fedBy next (Source.brokenLines taken),
    { ends := persists.exists_runAgain rfl
      tape := rfl
      cursor := rfl
      running := rfl
      written := rfl
      flushes := rfl
      lines := took.lines
      consumed := took.consumed.trans (Nat.zero_add _)
      left := lastCleans.rest
      message := rfl }⟩

def readAndWrite : Program :=
  Program.ofInstructions ",.".toList [.startingAt 0 .input [','], .startingAt 1 .output ['.']]

/-- A line that is no text stands before the one that is read and written. -/
theorem readAndWrite_resumesTo :
    ∃ final taken last,
      (initial oneCell (Source.ofBytes (Source.decodable [255, 10, 65, 10]) none)
          (Sink.empty none none)).run oneCell readAndWrite 5 = some (.stopped, final) ∧
        final.state.console.sink.written = #[65] ∧
        ResumesTo oneCell readAndWrite [255, 10, 65, 10] .stopped final taken last := by
  have ran : ∃ final,
      (initial oneCell (Source.ofBytes (Source.decodable [255, 10, 65, 10]) none)
          (Sink.empty none none)).run oneCell readAndWrite 5 = some (.stopped, final) ∧
        final.state.console.sink.written = #[65] := ⟨_, rfl, rfl⟩
  obtain ⟨final, ended, written⟩ := ran
  obtain ⟨taken, last, resumes⟩ :=
    exists_resumesTo_of_run oneCell readAndWrite [255, 10, 65, 10] ended
  exact ⟨final, taken, last, ended, written, resumes⟩

/-- The first call fails at the broken line, and the second one stops. -/
example :
    ((initial oneCell (Source.ofBytes [255, 10, 65, 10] none) (Sink.empty none none)).runAgain
        oneCell readAndWrite 5 2).map (fun (failures, ending, _) => (failures, ending)) =
      some (1, .stopped) := rfl

end TapeDialects.Machine
