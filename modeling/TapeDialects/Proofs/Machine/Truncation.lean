/-
Runs on an output that is full after so many bytes.

The run goes as it does on an output that takes every byte, for as long as what
it writes fits.  If all of it fits, it ends alike.  If not, it ends at the first
instruction whose write, or the report of whose error, goes past the capacity,
and the output holds the front of what would have been written.
-/

import TapeDialects.Proofs.Machine.Limit
import TapeDialects.Proofs.Machine.Stepping

namespace TapeDialects.Machine

/-- Behind so many steps stands the first instruction that takes the output past the
capacity, by a write of its own or by the report of its error. -/
structure PassesAt (settings : Settings) (program : Program) (capacity : Nat)
    (fresh : Machine) (count : Nat) (passing : Machine) : Prop where
  reached : fresh.stepped? settings program count = some passing
  running : fresh.RunningBefore settings program (count + 1)
  room : passing.state.console.output.length ≤ capacity
  passes :
    capacity < (passing.step settings program).after.state.console.output.length ∨
      ∃ error failed, passing.step settings program = .failed (.execution error) failed ∧
        capacity < (failed.report program error).2.state.console.output.length

/-- How a run ends on an output of so many bytes, if it ends so on one that takes all. -/
structure Truncated (settings : Settings) (program : Program) (capacity : Nat)
    (fresh : Machine) (ending : Ending) (final : Machine) (cutEnding : Ending)
    (cut : Machine) : Prop where
  output : cut.state.console.output = final.state.console.output.take capacity
  fits : final.state.console.output.length ≤ capacity →
    cutEnding = ending ∧ cut = final.limited capacity
  passes : capacity < final.state.console.output.length →
    cutEnding = .interrupted .writeFailed ∧
      ∃ count passing, PassesAt settings program capacity fresh count passing ∧
        cut.state.tape = passing.state.tape ∧ cut.cursor = passing.cursor
  message : StreamError.writeFailed.message = "write failed"

variable {settings : Settings} {program : Program} {machine later final cut : Machine}
  {ending cutEnding : Ending} {capacity : Nat}

theorem PassesAt.before {count : Nat} {passing : Machine} (running : machine.running = true)
    (stepped : machine.step settings program = .done later)
    (passes : PassesAt settings program capacity later count passing) :
    PassesAt settings program capacity machine (count + 1) passing := by
  refine
    { reached := ?reached
      running := .before running stepped passes.running
      room := passes.room
      passes := passes.passes }
  case reached =>
      rw [stepped?_succ_of_done stepped]
      exact passes.reached

theorem Truncated.before (running : machine.running = true)
    (stepped : machine.step settings program = .done later)
    (truncated : Truncated settings program capacity later ending final cutEnding cut) :
    Truncated settings program capacity machine ending final cutEnding cut := by
  refine
    { output := truncated.output
      fits := truncated.fits
      passes := ?passes
      message := rfl }
  case passes =>
      intro beyond
      obtain ⟨full, count, passing, passes, tape, cursor⟩ := truncated.passes beyond
      exact ⟨full, count + 1, passing, passes.before running stepped, tape, cursor⟩

theorem Truncated.of_fits (machine : Machine)
    (room : final.state.console.output.length ≤ capacity) :
    Truncated settings program capacity machine ending final ending
      (final.limited capacity) :=
  { output := (List.take_of_length_le room).symm
    fits := fun _ => ⟨rfl, rfl⟩
    passes := fun beyond => absurd room (Nat.not_le_of_lt beyond)
    message := rfl }

theorem Truncated.of_cutShort {free : List UInt8} (running : machine.running = true)
    (room : machine.state.console.output.length ≤ capacity)
    (passes : capacity < (machine.step settings program).after.state.console.output.length ∨
      ∃ error failed, machine.step settings program = .failed (.execution error) failed ∧
        capacity < (failed.report program error).2.state.console.output.length)
    (short : CutShort capacity free machine cut)
    (grown : free <+: final.state.console.output) :
    Truncated settings program capacity machine ending final
      (.interrupted .writeFailed) cut := by
  have beyond := Nat.lt_of_lt_of_le short.beyond grown.length_le
  refine
    { output := ?output
      fits := fun room => absurd room (Nat.not_le_of_lt beyond)
      passes := ?passes
      message := rfl }
  case output =>
      rw [Console.take_of_prefix grown (Nat.le_of_lt short.beyond)]
      exact short.kept
  case passes =>
      intro _
      exact ⟨rfl, 0, machine, { reached := rfl, running := .one running, room, passes },
        short.tape, short.cursor⟩

theorem prefix_of_runFor_succ {fuel : Nat} (running : machine.running = true)
    (ran : machine.runFor settings program (fuel + 1) = some (ending, final)) :
    (machine.step settings program).after.state.console.output <+:
      final.state.console.output := by
  have framed := Console.prefix_framed
    (machine.step settings program).after.state.console.output
  exact framed_of_step framed running List.prefix_rfl
    (fun _ held further => runFor_framed framed held further) ran

theorem exists_truncated_of_runFor {fuel : Nat} (takes : machine.state.console.TakesAll)
    (room : machine.state.console.output.length ≤ capacity)
    (ran : machine.runFor settings program fuel = some (ending, final)) :
    ∃ cutEnding cut,
      (machine.limited capacity).runFor settings program fuel = some (cutEnding, cut) ∧
        Truncated settings program capacity machine ending final cutEnding cut := by
  induction fuel generalizing machine with
  | zero => cases ran
  | succ fuel ih =>
      cases running : machine.running with
      | false =>
          have halted : (machine.limited capacity).running = false := running
          have written : machine.finish.2.state.console.output = machine.state.console.output := by
            rw [TakesAll.finish_eq takes]
            rfl
          rw [runFor_succ_of_halted running] at ran
          rw [runFor_succ_of_halted halted, finish_limited takes]
          rw [Option.some.inj ran] at written ⊢
          rw [← written] at room
          exact ⟨ending, final.limited capacity, rfl, .of_fits machine room⟩
      | true =>
          have goesOn : (machine.limited capacity).running = true := running
          have takesBehind := step_framed Console.takesAll_framed takes settings program
          have grown := prefix_of_runFor_succ running ran
          rcases step_limited_cases takes room settings program with
            ⟨roomBehind, same⟩ | ⟨cut, failed, short⟩
          · rcases runFor_succ_cases running ran with ⟨later, stepped, further⟩ |
              ⟨error, later, stepped, reported⟩ | ⟨error, stepped, rfl⟩ | ⟨stepped, rfl⟩
            all_goals rw [stepped] at roomBehind same takesBehind
            · obtain ⟨cutEnding, cut, ranCut, truncated⟩ := ih takesBehind roomBehind further
              refine ⟨cutEnding, cut, ?_, truncated.before running stepped⟩
              rw [runFor_succ_of_done goesOn same]
              exact ranCut
            · rw [Outcome.after_failed] at takesBehind roomBehind
              rw [runFor_succ_of_execution goesOn same]
              rcases report_limited_cases takesBehind roomBehind program error with
                ⟨roomReport, sameReport⟩ | ⟨cut, cutReport, short⟩
              · rw [sameReport]
                rw [reported] at roomReport ⊢
                exact ⟨ending, final.limited capacity, rfl, .of_fits machine roomReport⟩
              · rw [cutReport]
                refine ⟨.interrupted .writeFailed, cut, rfl, ?_⟩
                refine .of_cutShort running room (Or.inr ⟨error, later, stepped, short.beyond⟩)
                  (short.of_unmoved (unmoved_of_step_failed stepped)) ?_
                simp only [reported, List.prefix_rfl]
            · exact ⟨.interrupted error, final.limited capacity,
                runFor_succ_of_stream goesOn same fuel, .of_fits machine roomBehind⟩
            · exact ⟨.astray, final.limited capacity,
                runFor_succ_of_offProgram goesOn same fuel, .of_fits machine roomBehind⟩
          · exact ⟨.interrupted .writeFailed, cut, runFor_succ_of_stream goesOn failed fuel,
              .of_cutShort running room (Or.inl short.beyond) short grown⟩

theorem exists_truncated_of_run (settings : Settings) (program : Program) (source : Source)
    (capacity : Nat) {fuel : Nat}
    (ran : (initial settings source (Sink.empty none none)).run settings program fuel =
      some (ending, final)) :
    ∃ cutEnding cut,
      (initial settings source (Sink.empty (some capacity) none)).run settings program fuel =
          some (cutEnding, cut) ∧
        Truncated settings program capacity (initial settings source (Sink.empty none none))
          ending final cutEnding cut := by
  rw [run_of_running rfl] at ran ⊢
  exact exists_truncated_of_runFor ⟨rfl, rfl⟩ (Nat.zero_le capacity) ran

/-- The message behind the character is cut at its line break, which just fits. -/
theorem messageBehindOutput_truncated :
    ∃ final cutEnding cut,
      (initial oneCell (Source.ofBytes [] none) (Sink.empty none none)).run oneCell
          messageBehindOutput 5 = some (.stopped, final) ∧
        2 < final.state.console.output.length ∧
        (initial oneCell (Source.ofBytes [] none) (Sink.empty (some 2) none)).run oneCell
          messageBehindOutput 5 = some (cutEnding, cut) ∧
        Truncated oneCell messageBehindOutput 2
          (initial oneCell (Source.ofBytes [] none) (Sink.empty none none)) .stopped final
          cutEnding cut := by
  have ran : ∃ final,
      (initial oneCell (Source.ofBytes [] none) (Sink.empty none none)).run oneCell
          messageBehindOutput 5 = some (.stopped, final) ∧
        2 < final.state.console.output.length := ⟨_, rfl, by decide⟩
  obtain ⟨final, ended, beyond⟩ := ran
  obtain ⟨cutEnding, cut, cutEnded, truncated⟩ :=
    exists_truncated_of_run oneCell messageBehindOutput (Source.ofBytes [] none) 2 ended
  exact ⟨final, cutEnding, cut, ended, beyond, cutEnded, truncated⟩

/-- The cursor stays at the message, and the output holds the character and the line break. -/
example :
    ((initial oneCell (Source.ofBytes [] none) (Sink.empty (some 2) none)).run oneCell
        messageBehindOutput 5).map
        (fun (ending, cut) => (ending, cut.cursor, cut.state.console.output)) =
      some (.interrupted .writeFailed, 2, [0, 10]) := rfl

end TapeDialects.Machine
