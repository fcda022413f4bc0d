/-
The places of the instructions that a dialect reads.

Every instruction has a place of its own in the text, from the front of one
character to the end of another, and its lexeme is what stands there.  Instructions
are in the order of their places, which have nothing in common; only the rounds of
one run of knots are all at the place of the run.  So a reader never cuts the text
inside a character or beyond its end, and neither does the report on an
instruction that fails.
-/

import TapeDialects.Proofs.Dialect.Slicing
import TapeDialects.Proofs.Machine.Stepping

namespace TapeDialects

/-- A character starts or the text ends at an offset. -/
def Text.IsBoundary (text : Text) (offset : Nat) : Prop :=
  ∃ before after : Text, text = before ++ after ∧ before.size = offset

structure Instruction.PlacedIn (text : Text) (instruction : Instruction) : Prop where
  filled : instruction.span.start < instruction.span.stop
  inside : instruction.span.stop ≤ text.size
  opens : text.IsBoundary instruction.span.start
  closes : text.IsBoundary instruction.span.stop
  cut : ∃ cut, text.cut? instruction.span = some cut ∧ cut.inside = instruction.lexeme

theorem Instruction.StandsIn.placedIn {text : Text} {instruction : Instruction}
    (stands : instruction.StandsIn text) (spelled : instruction.lexeme ≠ []) :
    instruction.PlacedIn text := by
  obtain ⟨before, after, parts, spanned⟩ := stands
  have filled := Text.size_pos_of_ne_nil spelled
  have sized : text.size = before.size + instruction.lexeme.size + after.size := by
    rw [parts, Text.size_append, Text.size_append]
  refine { filled := ?filled, inside := ?inside, opens := ?opens, closes := ?closes, cut := ?cut }
  case filled =>
      rw [spanned]
      exact Nat.lt_add_of_pos_right filled
  case inside =>
      rw [spanned, sized]
      exact Nat.le_add_right _ _
  case opens =>
      rw [spanned]
      exact ⟨before, instruction.lexeme ++ after, by rw [parts, List.append_assoc], rfl⟩
  case closes =>
      rw [spanned]
      exact ⟨before ++ instruction.lexeme, after, parts, Text.size_append _ _⟩
  case cut =>
      refine ⟨{ before, inside := instruction.lexeme, after }, ?_, rfl⟩
      rw [Text.cut?_eq_some_iff, spanned]
      exact ⟨parts, rfl, rfl⟩

/-! ### Rounds of one run -/

/-- Whether a run may stand for more than one instruction. -/
def Reading.cycles : Reading → Bool
  | .countedRuns format => format.cycles
  | _ => false

namespace Dialect

structure OneRun (dialect : Dialect) (first second : Instruction) : Prop where
  knots : dialect.name = "Knots"
  run : ∃ format, dialect.reading = .countedRuns format ∧ format.IsRun first.lexeme
  span : first.span = second.span
  command : first.command = second.command

theorem knots_of_cycles :
    ∀ dialect ∈ all, dialect.reading.cycles = true → dialect.name = "Knots" := by
  decide +kernel

theorem oneRun_of_shares {dialect : Dialect} (registered : dialect ∈ all)
    {first second : Instruction} (shared : dialect.reading.Shares first second) :
    dialect.OneRun first second := by
  cases reading : dialect.reading with
  | countedRuns format =>
      rw [reading] at shared
      have cycles : dialect.reading.cycles = true := by
        rw [reading]
        exact shared.cycles
      exact
        { knots := knots_of_cycles dialect registered cycles
          run := ⟨format, reading, shared.run⟩
          span := shared.span
          command := shared.command }
  | _ =>
      rw [reading] at shared
      exact shared.elim

theorem not_mark_of_mem_vocabulary :
    ∀ dialect ∈ all, ∀ command ∈ dialect.vocabulary, command ≠ .start ∧ command ≠ .stop := by
  decide +kernel

end Dialect

namespace Dialect

/-- The instructions of a text are read without a failing check, each at a place of its own and
in order, and there is a report on each of them that fails. -/
structure SpansExactly (dialect : Dialect) (text : Text) : Prop where
  checked : dialect.reading.checkedTokenize text = some (dialect.tokenize text)
  placed : ∀ instruction ∈ dialect.tokenize text, instruction.PlacedIn text
  unmarked : ∀ instruction ∈ dialect.tokenize text,
    instruction.command ≠ .start ∧ instruction.command ≠ .stop
  ordered : (dialect.tokenize text).Pairwise fun first second =>
    first.span.stop ≤ second.span.start ∨ dialect.OneRun first second
  reported : ∀ settings machine error later,
    Machine.step settings (Program.ofText dialect text) machine =
        .failed (.execution error) later →
      ∃ instruction cut,
        (Program.ofText dialect text).instruction? machine.cursor = some instruction ∧
        text.cut? instruction.span = some cut ∧
        later.diagnostic? (Program.ofText dialect text) error =
          some { lexeme := instruction.lexeme
                 excerpt := Excerpt.ofCut cut
                 pointer := machine.state.tape.pointer
                 message := error.message }

theorem spansExactly_of_mem_all {dialect : Dialect} (registered : dialect ∈ all) (text : Text) :
    dialect.SpansExactly text := by
  have inTurn : InTurn dialect.vocabulary dialect.reading.Shares 0 (dialect.tokenize text) := by
    rw [← reading_vocabulary_of_mem_all dialect registered]
    exact dialect.reading.inTurn_tokenize text
  refine { checked := ?checked, placed := ?placed, unmarked := ?unmarked, ordered := ?ordered,
           reported := ?reported }
  case checked => exact dialect.reading.checkedTokenize_eq text
  case placed =>
      intro instruction member
      exact (Reading.standsIn_of_mem_tokenize member).placedIn
        (inTurn.spelled instruction member).1
  case unmarked =>
      intro instruction member
      exact not_mark_of_mem_vocabulary dialect registered _ (inTurn.spelled instruction member).2
  case ordered =>
      refine inTurn.turns.imp ?_
      rintro first second (apart | shared)
      · exact Or.inl apart
      · exact Or.inr (oneRun_of_shares registered shared)
  case reported =>
      intro settings machine error later failed
      exact Machine.exists_cut_of_step_execution (Program.ofText_sliceable dialect text) failed

/-- Nine markers with an umlaut among them are two rounds of one run. -/
theorem knotsOfTwoRounds_spansExactly :
    ∃ dialect ∈ all, dialect.name = "Knots" ∧
      (dialect.tokenize "é ooooüooooo-oo-".toList).map
          (fun instruction => (instruction.command, instruction.span)) =
        [(.right, { start := 3, stop := 15 }), (.right, { start := 3, stop := 15 }),
          (.left, { start := 15, stop := 18 })] ∧
      dialect.SpansExactly "é ooooüooooo-oo-".toList := by
  refine ⟨_, List.mem_of_getElem? (i := 19) rfl, rfl, ?_, ?_⟩
  · decide +kernel
  · exact spansExactly_of_mem_all (List.mem_of_getElem? (i := 19) rfl) _

end Dialect
end TapeDialects
