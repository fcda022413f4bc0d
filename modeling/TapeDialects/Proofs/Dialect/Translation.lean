/-
What a machine does depends on the commands of its program alone.

Two programs with the same commands, written in whatever texts and dialects,
leave the same machine behind every call: the same tape, cursor and pointer, the
same bytes written and read and the same number of flushes.  The text comes in
only where a report shows the place of an error, so two reports of such programs
have the pointer and the message in common.
-/

import TapeDialects.Interpreter
import TapeDialects.Proofs.Dialect.Standing
import TapeDialects.Proofs.Machine.Session
import TapeDialects.Proofs.Program

namespace TapeDialects

/-- The endings differ at most in what a report shows of the text. -/
inductive Ending.Matches : Ending → Ending → Prop
  | same (ending : Ending) : Matches ending ending
  | reported {diagnostic other : Diagnostic} (pointer : diagnostic.pointer = other.pointer)
      (message : diagnostic.message = other.message) :
      Matches (.reported diagnostic) (.reported other)

instance : Std.Refl Ending.Matches where
  refl := .same

namespace Program

variable {program other : Program}

theorem exists_instruction?_of_commands_eq (same : program.commands = other.commands)
    {index : Nat} {instruction : Instruction}
    (found : program.instruction? index = some instruction) :
    ∃ another, other.instruction? index = some another := by
  have inside : index < program.size := by
    rw [← command?_isSome_iff, command?, found]
    rfl
  rw [size_eq_of_commands_eq same] at inside
  exact exists_instruction?_of_lt other inside

theorem Sliceable.diagnostic?_eq (sliceable : program.Sliceable) {machine : Machine}
    {instruction : Instruction}
    (found : program.instruction? machine.cursor = some instruction)
    (error : ExecutionError) :
    ∃ excerpt, machine.diagnostic? program error =
      some { lexeme := instruction.lexeme
             excerpt
             pointer := machine.state.tape.pointer
             message := error.message } := by
  have member : instruction ∈ program.instructions := by
    rw [instruction?_eq_getElem?] at found
    exact List.mem_of_getElem? found
  obtain ⟨cut, sliced⟩ := Option.isSome_iff_exists.mp (sliceable instruction member)
  refine ⟨Excerpt.ofCut cut, ?_⟩
  unfold Machine.diagnostic? Diagnostic.of? Excerpt.of?
  rw [found, Option.bind_some, sliced]
  rfl

theorem report_matches (same : program.commands = other.commands)
    (sliceable : program.Sliceable) (otherSliceable : other.Sliceable) (machine : Machine)
    (error : ExecutionError) :
    AlikeOnOne Ending.Matches (machine.report program error)
      (machine.report other error) := by
  unfold Machine.report
  simp only
  cases Machine.onConsole (fun console => console.breakLine.bind Console.flush)
      { machine with running := false } with
  | failed streamError later => exact ⟨.same _, rfl⟩
  | done later =>
      simp only
      cases found : program.instruction? later.cursor with
      | some instruction =>
          obtain ⟨another, otherFound⟩ := exists_instruction?_of_commands_eq same found
          obtain ⟨excerpt, reported⟩ := sliceable.diagnostic?_eq found error
          obtain ⟨otherExcerpt, otherReported⟩ :=
            otherSliceable.diagnostic?_eq otherFound error
          rw [reported, otherReported]
          exact ⟨.reported rfl rfl, rfl⟩
      | none =>
          have otherMissing : other.instruction? later.cursor = none := by
            cases otherFound : other.instruction? later.cursor with
            | none => rfl
            | some another =>
                obtain ⟨instruction, known⟩ :=
                  exists_instruction?_of_commands_eq same.symm otherFound
                rw [found] at known
                cases known
          unfold Machine.diagnostic?
          rw [found, otherMissing]
          exact ⟨.same _, rfl⟩

theorem actsLike_of_commands_eq (same : program.commands = other.commands)
    (sliceable : program.Sliceable) (otherSliceable : other.Sliceable) :
    program.ActsLike Ending.Matches other :=
  { sameCourse_of_commands_eq same with
    reports := report_matches same sliceable otherSliceable }

theorem commands_ofText (dialect : Dialect) (text : Text) :
    (ofText dialect text).commands =
      .start :: (dialect.tokenize text).map Instruction.command ++ [.stop] := by
  simp [commands, instructions, ofText, ofInstructions, startMark, stopMark]

end Program

theorem interpret_matches (settings : Settings) (source : Source) (sink : Sink)
    {text other : Text} {name otherName : String} {dialect otherDialect : Dialect}
    (known : Dialect.lookup name = .ok dialect)
    (otherKnown : Dialect.lookup otherName = .ok otherDialect)
    (same : (dialect.tokenize text).map Instruction.command =
      (otherDialect.tokenize other).map Instruction.command) (fuel : Nat) :
    ∃ result otherResult,
      interpret text name settings source sink fuel = .ok result ∧
      interpret other otherName settings source sink fuel = .ok otherResult ∧
      Option.Rel (AlikeOnOne Ending.Matches) result otherResult := by
  have commands : (Program.ofText dialect text).commands =
      (Program.ofText otherDialect other).commands := by
    rw [Program.commands_ofText, Program.commands_ofText, same]
  have acts := Program.actsLike_of_commands_eq commands
    (Program.ofText_sliceable dialect text) (Program.ofText_sliceable otherDialect other)
  unfold interpret
  rw [known, otherKnown]
  exact ⟨_, _, rfl, rfl, Machine.run_alike settings acts fuel _⟩

/-- With given settings the commands of a program decide all answers, from whatever machine
on and however the streams fail and are mended. -/
structure CommandsDecide (settings : Settings) : Prop where
  sessions : ∀ program other : Program, program.commands = other.commands →
    program.Sliceable → other.Sliceable → ∀ (calls : List Call) (machine : Machine),
      List.Forall₂ (AlikeOnOne (Answer.Alike Ending.Matches))
        (machine.session settings program calls) (machine.session settings other calls)
  translations : ∀ (source : Source) (sink : Sink) (text other : Text) (name otherName : String)
    (dialect otherDialect : Dialect),
    Dialect.lookup name = .ok dialect → Dialect.lookup otherName = .ok otherDialect →
    (dialect.tokenize text).map Instruction.command =
      (otherDialect.tokenize other).map Instruction.command →
    ∀ fuel, ∃ result otherResult,
      interpret text name settings source sink fuel = .ok result ∧
      interpret other otherName settings source sink fuel = .ok otherResult ∧
      Option.Rel (AlikeOnOne Ending.Matches) result otherResult

theorem commandsDecide (settings : Settings) : CommandsDecide settings := by
  refine { sessions := ?sessions, translations := ?translations }
  case sessions =>
      intro program other same sliceable otherSliceable
      exact Machine.session_alike settings
        (Program.actsLike_of_commands_eq same sliceable otherSliceable)
  case translations =>
      intro source sink text other name otherName dialect otherDialect known otherKnown same fuel
      exact interpret_matches settings source sink known otherKnown same fuel

end TapeDialects
