/-
Where the loop commands lead, on any program without marks inside, whether its
loops are balanced or not.

A loop that is skipped leads behind its partner, and to the end of the program
if it has none; a loop that goes on leads back to its partner, and is an error
if it has none.  Both directions know the same partners, and the pairs of
partners never cross.
-/

import TapeDialects.Proofs.Loop.Search
import TapeDialects.Proofs.Machine.Ending
import TapeDialects.Proofs.Machine.Step
import TapeDialects.Proofs.Program

namespace TapeDialects

namespace Machine

variable {settings : Settings} {program : Program} {machine : Machine}

theorem step_loopOpen_of_zero (opens : program.command? machine.cursor = some .loopOpen)
    (zero : machine.state.tape.current = 0) :
    machine.step settings program =
      .done { machine with cursor := program.loopExit machine.cursor + 1 } := by
  rw [step_of_ok (Program.effective_eq_ok opens nofun),
    carryOut_loopOpen_of_zero zero]
  rfl

theorem step_loopOpen_of_ne_zero
    (opens : program.command? machine.cursor = some .loopOpen)
    (nonzero : machine.state.tape.current ≠ 0) :
    machine.step settings program = .done machine.advance := by
  rw [step_of_ok (Program.effective_eq_ok opens nofun),
    carryOut_loopOpen_of_ne_zero nonzero]
  rfl

theorem step_loopClose_of_zero
    (closes : program.command? machine.cursor = some .loopClose)
    (zero : machine.state.tape.current = 0) :
    machine.step settings program = .done machine.advance := by
  rw [step_of_ok (Program.effective_eq_ok closes nofun),
    carryOut_loopClose_of_zero zero]
  rfl

theorem step_loopClose_of_some
    (closes : program.command? machine.cursor = some .loopClose)
    (nonzero : machine.state.tape.current ≠ 0) {entry : Nat}
    (found : program.loopEntry? machine.cursor = some entry) :
    machine.step settings program = .done { machine with cursor := entry + 1 } := by
  rw [step_of_ok (Program.effective_eq_ok closes nofun),
    carryOut_loopClose_of_some nonzero found]
  rfl

theorem step_loopClose_of_none
    (closes : program.command? machine.cursor = some .loopClose)
    (nonzero : machine.state.tape.current ≠ 0)
    (missing : program.loopEntry? machine.cursor = none) :
    machine.step settings program = .failed (.execution .unmatchedLoopClose) machine := by
  rw [step_of_ok (Program.effective_eq_ok closes nofun),
    carryOut_loopClose_of_none nonzero missing]
  rfl

theorem step_stop (stops : program.command? machine.cursor = some .stop) :
    machine.step settings program =
      .done { machine with cursor := machine.cursor + 1, running := false } := by
  rw [step_of_ok (Program.effective_eq_ok stops nofun), carryOut_stop]
  rfl

end Machine

namespace Program

variable {text : Text} {instructions : List Instruction}

theorem le_length_of_loopClose {closing : Nat}
    (closes : (ofInstructions text instructions).command? closing = some .loopClose) :
    closing ≤ instructions.length := by
  have inside := lt_size_of_command? closes
  rw [size_ofInstructions] at inside
  by_contra beyond
  have last : closing = (ofInstructions text instructions).length + 1 := by
    simp only [length, ofInstructions, List.size_toArray]
    omega
  rw [last, command?_last] at closes
  cases closes

theorem loopExit_eq_of_closesAt (unmarked : Unmarked instructions) {opening closing : Nat}
    (closesAt : (ofInstructions text instructions).ClosesAt opening closing) :
    (ofInstructions text instructions).loopExit opening = closing := by
  have partners := closesAt_iff_partners.mp closesAt
  have behindStart := pos_of_ne_start partners.command?_opening nofun
  have beforeStop := le_length_of_loopClose partners.command?_closing
  apply loopExit_eq_of_partners partners
  intro place later early
  exact (unmarked.command?_ne text (by omega) (by omega)).2

theorem loopEntry?_eq_of_opensAt (unmarked : Unmarked instructions) {opening closing : Nat}
    (opensAt : (ofInstructions text instructions).OpensAt closing opening) :
    loopEntry? (ofInstructions text instructions) closing = some opening := by
  have partners := opensAt_iff_partners.mp opensAt
  have behindStart := pos_of_ne_start partners.command?_opening nofun
  have beforeStop := le_length_of_loopClose partners.command?_closing
  apply loopEntry?_eq_of_partners partners
  intro place later early
  exact (unmarked.command?_ne text (by omega) (by omega)).1

theorem loopExit_eq_length (unmarked : Unmarked instructions) {opening : Nat}
    (opens : (ofInstructions text instructions).command? opening = some .loopOpen)
    (unclosed : ∀ closing, ¬ (ofInstructions text instructions).ClosesAt opening closing) :
    (ofInstructions text instructions).loopExit opening =
      (ofInstructions text instructions).length := by
  rcases exists_closing_or_above opens with ⟨closing, partners⟩ | above
  · exact absurd partners.closesAt (unclosed closing)
  · have inside := lt_size_of_command? opens
    have behindStart := pos_of_ne_start opens nofun
    have sized := size_ofInstructions text instructions
    have counted : (ofInstructions text instructions).length = instructions.length := rfl
    apply loopExit_eq_of_above (command?_last (ofInstructions text instructions))
    · intro place later early
      exact (unmarked.command?_ne text (by omega) (by omega)).2
    · omega
    · intro place later early
      exact above place later (by omega)

theorem loopEntry?_eq_none {program : Program} {closing : Nat}
    (closes : program.command? closing = some .loopClose)
    (unopened : ∀ opening, ¬ program.OpensAt closing opening) :
    program.loopEntry? closing = none := by
  rcases exists_opening_or_above closes with ⟨opening, partners⟩ | above
  · exact absurd partners.opensAt (unopened opening)
  · exact loopEntry?_eq_none_of_above (lt_size_of_command? closes) above

/-! ### The jumps of a program -/

structure JumpsExactly (settings : Settings) (program : Program) : Prop where
  /-- A loop that is skipped leads to its partner, from where the step goes on. -/
  skips : ∀ (machine : Machine) (closing : Nat), machine.state.tape.current = 0 →
    program.ClosesAt machine.cursor closing →
      machine.step settings program = .done { machine with cursor := closing }.advance
  /-- Without a partner it leads to the mark of the stop, and the run ends well. -/
  stops : ∀ machine : Machine, machine.state.tape.current = 0 →
    program.command? machine.cursor = some .loopOpen →
    (∀ closing, ¬ program.ClosesAt machine.cursor closing) →
      program.command? (program.length + 1) = some .stop ∧
      machine.step settings program =
        .done { machine with cursor := program.length + 1 } ∧
      (machine.running = true → ∀ fuel,
        machine.runFor settings program (fuel + 3) =
          some { machine with cursor := program.size, running := false }.finish)
  returns : ∀ (machine : Machine) (opening : Nat), machine.state.tape.current ≠ 0 →
    program.OpensAt machine.cursor opening →
      machine.step settings program = .done { machine with cursor := opening }.advance
  fails : ∀ machine : Machine, machine.state.tape.current ≠ 0 →
    program.command? machine.cursor = some .loopClose →
    (∀ opening, ¬ program.OpensAt machine.cursor opening) →
      machine.step settings program = .failed (.execution .unmatchedLoopClose) machine
  symmetric : ∀ opening closing : Nat,
    program.ClosesAt opening closing ↔ program.OpensAt closing opening
  uncrossed : ∀ opening closing other another : Nat,
    program.ClosesAt opening closing → program.ClosesAt other another →
      (opening = other ∧ closing = another) ∨ closing < other ∨ another < opening ∨
        (opening < other ∧ another < closing) ∨ (other < opening ∧ closing < another)

theorem runFor_of_unclosed {settings : Settings} {program : Program} {machine : Machine}
    (running : machine.running = true)
    (leaves : machine.step settings program =
      .done { machine with cursor := program.length + 1 }) (fuel : Nat) :
    machine.runFor settings program (fuel + 3) =
      some { machine with cursor := program.size, running := false }.finish := by
  have stops : ({ machine with cursor := program.length + 1 } : Machine).step
      settings program = .done { machine with cursor := program.size, running := false } :=
    Machine.step_stop (command?_last program)
  have stillRunning : ({ machine with cursor := program.length + 1 } : Machine).running =
      true := running
  rw [Machine.runFor_succ_of_done running leaves,
    Machine.runFor_succ_of_done stillRunning stops, Machine.runFor_succ_of_halted rfl]

theorem ofInstructions_jumpsExactly (settings : Settings) (text : Text)
    {instructions : List Instruction} (unmarked : Unmarked instructions) :
    (ofInstructions text instructions).JumpsExactly settings := by
  refine
    { skips := ?_
      stops := ?_
      returns := ?_
      fails := ?_
      symmetric := ?_
      uncrossed := ?_ }
  · intro machine closing zero closesAt
    rw [Machine.step_loopOpen_of_zero closesAt.1 zero,
      loopExit_eq_of_closesAt unmarked closesAt]
    rfl
  · intro machine zero opens unclosed
    have leaves : machine.step settings (ofInstructions text instructions) =
        .done { machine with
          cursor := (ofInstructions text instructions).length + 1 } := by
      rw [Machine.step_loopOpen_of_zero opens zero,
        loopExit_eq_length unmarked opens unclosed]
    exact ⟨command?_last _, leaves, fun running => runFor_of_unclosed running leaves⟩
  · intro machine opening nonzero opensAt
    exact Machine.step_loopClose_of_some opensAt.1 nonzero
      (loopEntry?_eq_of_opensAt unmarked opensAt)
  · intro machine nonzero closes unopened
    exact Machine.step_loopClose_of_none closes nonzero
      (loopEntry?_eq_none closes unopened)
  · intro opening closing
    rw [closesAt_iff_partners, opensAt_iff_partners]
  · intro opening closing other another closesAt otherClosesAt
    exact (closesAt_iff_partners.mp closesAt).nested_or_disjoint
      (closesAt_iff_partners.mp otherClosesAt)

def halfClosed : List Instruction :=
  [Instruction.startingAt 0 .loopOpen ['['], Instruction.startingAt 1 .loopOpen ['['],
    Instruction.startingAt 2 .increment ['+'], Instruction.startingAt 3 .loopClose [']']]

theorem halfClosed_partners :
    (ofInstructions "[[+]".toList halfClosed).Partners 2 4 := by
  refine ⟨by decide, by decide, by decide, ?_⟩
  intro index later early
  have which : index = 3 ∨ index = 4 := by omega
  rcases which with rfl | rfl <;> decide

/-- On a blank tape the second loop is skipped, although the first has no end. -/
theorem halfClosed_skips :
    Unmarked halfClosed ∧
      ({ Machine.initial Settings.standard (Source.ofBytes [] none) (Sink.empty none none)
          with cursor := 2 }).step Settings.standard
          (ofInstructions "[[+]".toList halfClosed) =
        .done { Machine.initial Settings.standard (Source.ofBytes [] none)
          (Sink.empty none none) with cursor := 5 } :=
  ⟨by decide, (ofInstructions_jumpsExactly Settings.standard _ (by decide)).skips
    { Machine.initial Settings.standard (Source.ofBytes [] none) (Sink.empty none none)
      with cursor := 2 } 4 (Tape.current_blank _) halfClosed_partners.closesAt⟩

end Program
end TapeDialects
