/-
Reports and the lines of the source.

What a report shows around a lexeme is on the lexeme's own lines, so the line that it shows
is broken exactly if the part of the lexeme that it shows is.  A lexeme with a line feed is
a run of markers that goes on over the end of a line.  In all other dialects the marks are
the line right below the whole context.
-/

import Mathlib.Data.List.Nodup
import TapeDialects.Interpreter
import TapeDialects.Proofs.Dialect.UnbrokenLexeme
import TapeDialects.Proofs.Report.Excerpt

namespace TapeDialects

theorem newline_notMem_append {front back : String} (left : '\n' ∉ front.toList)
    (right : '\n' ∉ back.toList) : '\n' ∉ (front ++ back).toList := by
  rw [String.toList_append, List.mem_append, not_or]
  exact ⟨left, right⟩

theorem newline_notMem_natural (value : Nat) : '\n' ∉ (toString value).toList := by
  rw [Nat.toString_eq_repr, Nat.toList_repr]
  intro member
  cases Nat.isDigit_of_mem_toDigits (by decide) (by decide) member

theorem newline_notMem_integer (value : Int) : '\n' ∉ (toString value).toList := by
  rw [Int.toString_eq_repr, Int.repr_eq_if]
  split
  · exact newline_notMem_natural _
  · exact newline_notMem_append (by decide) (newline_notMem_natural _)

theorem newline_notMem_message {front value middle bound back : String}
    (begins : '\n' ∉ front.toList) (first : '\n' ∉ value.toList) (between : '\n' ∉ middle.toList)
    (second : '\n' ∉ bound.toList) (ends : '\n' ∉ back.toList) :
    '\n' ∉ (front ++ value ++ middle ++ bound ++ back).toList :=
  newline_notMem_append (newline_notMem_append (newline_notMem_append
    (newline_notMem_append begins first) between) second) ends

theorem ExecutionError.newline_notMem (error : ExecutionError) : '\n' ∉ error.message.toList := by
  cases error with
  | pointerTooHigh pointer last =>
      exact newline_notMem_message (by decide) (newline_notMem_natural pointer) (by decide)
        (newline_notMem_natural last) (by decide)
  | valueTooHigh value maximum =>
      exact newline_notMem_message (by decide) (newline_notMem_integer value) (by decide)
        (newline_notMem_integer maximum) (by decide)
  | valueTooLow value minimum =>
      exact newline_notMem_message (by decide) (newline_notMem_integer value) (by decide)
        (newline_notMem_integer minimum) (by decide)
  | outOfUnicodeRange value =>
      exact newline_notMem_message (by decide) (newline_notMem_integer value) (by decide)
        (newline_notMem_integer unicodeBound) (by decide)
  | pointerTooLow | unmatchedLoopClose | noPreviousCommand => decide

namespace Excerpt

variable {cut : Text.Cut} {excerpt : Excerpt} {lexeme : Text}

theorem newline_notMem_shorten (unbroken : '\n' ∉ lexeme) : '\n' ∉ shorten lexeme := by
  by_cases short : lexeme.length ≤ 30
  · rw [shorten_of_le short]
    exact unbroken
  · rw [shorten_of_lt (Nat.lt_of_not_le short), List.mem_append, List.mem_append, not_or, not_or]
    refine ⟨⟨fun member => unbroken (List.mem_of_mem_take member), by decide⟩, ?_⟩
    exact fun member => unbroken (List.mem_of_mem_drop member)

theorem Shows.newline_mem_context_iff (shows : Shows cut excerpt) :
    '\n' ∈ excerpt.context ↔ '\n' ∈ excerpt.marked := by
  rw [shows.context, List.mem_append, List.mem_append]
  constructor
  · rintro ((before | marked) | after)
    · exact absurd before shows.before.fits.lineless
    · exact marked
    · exact absurd after shows.after.fits.lineless
  · exact fun marked => Or.inl (Or.inr marked)

theorem newline_notMem_underline (excerpt : Excerpt) : '\n' ∉ excerpt.underline := by
  unfold underline
  rw [List.mem_append, List.mem_append]
  rintro ((before | marked) | after)
  · exact absurd (List.eq_of_mem_replicate before) (by decide)
  · exact absurd (List.eq_of_mem_replicate marked) (by decide)
  · exact absurd (List.eq_of_mem_replicate after) (by decide)

end Excerpt

namespace Diagnostic

variable {diagnostic : Diagnostic}

/-- The first part of a report, which names the lexeme and the place of the tape pointer. -/
def header (diagnostic : Diagnostic) : Text :=
  "RunTime error [operator: ` ".toList ++ diagnostic.lexeme ++
    " `; pointer: ".toList ++ (toString diagnostic.pointer).toList ++ "]:".toList

/-- The context is on one line, and the marks are the line right below, under the lexeme. -/
structure ShowsOnLine (diagnostic : Diagnostic) : Prop where
  context : '\n' ∉ diagnostic.excerpt.context
  below : diagnostic.display.toList.splitOn '\n' =
    diagnostic.header.splitOn '\n' ++
      [diagnostic.excerpt.context, diagnostic.excerpt.underline, diagnostic.message.toList]
  aligned : ∃ before after : Text,
    diagnostic.excerpt.context = before ++ Excerpt.shorten diagnostic.lexeme ++ after ∧
      diagnostic.excerpt.underline =
        List.replicate before.length ' ' ++
          List.replicate (Excerpt.shorten diagnostic.lexeme).length '^' ++
            List.replicate after.length ' '

structure Concerns (text : Text) (instruction : Instruction) (diagnostic : Diagnostic) : Prop where
  lexeme : diagnostic.lexeme = instruction.lexeme
  shows : ∃ cut, text.cut? instruction.span = some cut ∧ cut.inside = instruction.lexeme ∧
    diagnostic.excerpt = Excerpt.ofCut cut
  message : ∃ error : ExecutionError, diagnostic.message = error.message

theorem toList_display (diagnostic : Diagnostic) :
    diagnostic.display.toList =
      diagnostic.header ++ '\n' :: ['\n'].intercalate
        [diagnostic.excerpt.context, diagnostic.excerpt.underline, diagnostic.message.toList] := by
  unfold display header
  simp [List.intercalate]

theorem splitOn_display (context : '\n' ∉ diagnostic.excerpt.context)
    (message : '\n' ∉ diagnostic.message.toList) :
    diagnostic.display.toList.splitOn '\n' =
      diagnostic.header.splitOn '\n' ++
        [diagnostic.excerpt.context, diagnostic.excerpt.underline, diagnostic.message.toList] := by
  rw [toList_display, List.splitOn_append_cons_self, List.splitOn_intercalate]
  · simp only [List.forall_mem_cons]
    exact ⟨context, Excerpt.newline_notMem_underline _, message, List.forall_mem_nil _⟩
  · exact List.cons_ne_nil _ _

theorem Concerns.marked {text : Text} {instruction : Instruction}
    (concerns : diagnostic.Concerns text instruction) :
    diagnostic.excerpt.marked = Excerpt.shorten diagnostic.lexeme := by
  obtain ⟨cut, -, inside, shown⟩ := concerns.shows
  rw [shown, concerns.lexeme, ← inside]
  rfl

theorem Concerns.newline_mem_context_iff {text : Text} {instruction : Instruction}
    (concerns : diagnostic.Concerns text instruction) :
    '\n' ∈ diagnostic.excerpt.context ↔ '\n' ∈ Excerpt.shorten diagnostic.lexeme := by
  obtain ⟨cut, -, -, shown⟩ := concerns.shows
  have shows := Excerpt.ofCut_shows cut
  rw [← shown] at shows
  rw [shows.newline_mem_context_iff, concerns.marked]

theorem Concerns.showsOnLine_iff {text : Text} {instruction : Instruction}
    (concerns : diagnostic.Concerns text instruction) :
    diagnostic.ShowsOnLine ↔ '\n' ∉ Excerpt.shorten diagnostic.lexeme := by
  rw [← concerns.newline_mem_context_iff]
  constructor
  · exact ShowsOnLine.context
  · intro context
    obtain ⟨error, said⟩ := concerns.message
    have message : '\n' ∉ diagnostic.message.toList := by
      rw [said]
      exact error.newline_notMem
    refine { context, below := splitOn_display context message, aligned := ?_ }
    refine ⟨diagnostic.excerpt.before, diagnostic.excerpt.after, ?_, ?_⟩
    · rw [← concerns.marked]
      rfl
    · rw [← concerns.marked]
      rfl

end Diagnostic

/-! ### Runs that report -/

theorem Instruction.StandsIn.inside_eq {text : Text} {instruction : Instruction} {cut : Text.Cut}
    (stands : instruction.StandsIn text) (sliced : text.cut? instruction.span = some cut) :
    cut.inside = instruction.lexeme := by
  obtain ⟨before, after, parts, spanned⟩ := stands
  have own : text.cut? instruction.span =
      some { before, inside := instruction.lexeme, after } := by
    rw [Text.cut?_eq_some_iff, spanned]
    exact ⟨parts, rfl, rfl⟩
  rw [own] at sliced
  cases sliced
  rfl

namespace Machine

variable {settings : Settings} {program : Program} {machine final : Machine}
  {diagnostic : Diagnostic}

theorem not_mark_of_step_failed {fault : Fault} {later : Machine} {instruction : Instruction}
    (failed : machine.step settings program = .failed fault later)
    (found : program.instruction? machine.cursor = some instruction) :
    instruction.command ≠ .start ∧ instruction.command ≠ .stop := by
  have command : program.command? machine.cursor = some instruction.command := by
    rw [Program.command?, found]
    rfl
  constructor
  · intro mark
    rw [mark] at command
    rw [step_done_of_plain (Program.effective_eq_ok command (by decide)) (by decide) rfl] at failed
    cases failed
  · intro mark
    rw [mark] at command
    rw [step_of_ok (Program.effective_eq_ok command (by decide))] at failed
    cases failed

theorem diagnostic?_of_report {error : ExecutionError}
    (reported : machine.report program error = (.reported diagnostic, final)) :
    machine.diagnostic? program error = some diagnostic := by
  obtain ⟨⟨tape, console⟩, cursor, running⟩ := machine
  unfold report onConsole at reported
  simp only at reported
  cases flushed : console.breakLine.bind Console.flush with
  | failed streamError left =>
      rw [flushed] at reported
      cases reported
  | done left =>
      rw [flushed, Outcome.map_done] at reported
      simp only at reported
      split at reported
      · next found =>
          cases reported
          exact found
      · cases reported

theorem exists_report_of_run {fuel : Nat}
    (ended : machine.run settings program fuel = some (.reported diagnostic, final)) :
    ∃ (failing failed : Machine) (error : ExecutionError),
      failing.step settings program = .failed (.execution error) failed ∧
        failed.report program error = (.reported diagnostic, final) := by
  cases running : machine.running with
  | false =>
      rw [run_of_halted running] at ended
      cases ended
  | true =>
      rw [run_of_running running] at ended
      obtain ⟨count, failing, error, failed, reached, goesOn, fails⟩ :=
        exists_failing_of_reported ended
      refine ⟨failing, failed, error, fails, ?_⟩
      have enough : count < fuel + (count + 1) := by omega
      have reports := run_eq_report reached goesOn fails enough
      rw [run_of_running running, runFor_add ended (count + 1)] at reports
      exact (Option.some.inj reports).symm

end Machine

namespace Dialect

variable {dialect : Dialect} {text : Text} {diagnostic : Diagnostic}

/-- A run of a text in this dialect reports so, with some settings and streams. -/
def Reports (dialect : Dialect) (text : Text) (diagnostic : Diagnostic) : Prop :=
  ∃ name settings source sink fuel final,
    lookup name = .ok dialect ∧
      interpret text name settings source sink fuel = .ok (some (.reported diagnostic, final))

theorem mem_tokenize_of_step_failed {settings : Settings} {machine later : Machine} {fault : Fault}
    {instruction : Instruction}
    (failed : machine.step settings (Program.ofText dialect text) = .failed fault later)
    (found : (Program.ofText dialect text).instruction? machine.cursor = some instruction) :
    instruction ∈ dialect.tokenize text := by
  have unmarked := Machine.not_mark_of_step_failed failed found
  rw [Program.instruction?_eq_getElem?] at found
  have member := List.mem_of_getElem? found
  rw [Program.instructions, List.cons_append, List.mem_cons, List.mem_append,
    List.mem_singleton] at member
  rcases member with rfl | inside | rfl
  · exact absurd rfl unmarked.1
  · exact inside
  · exact absurd rfl unmarked.2

theorem exists_concerns_of_reports (reports : dialect.Reports text diagnostic) :
    ∃ instruction ∈ dialect.tokenize text, diagnostic.Concerns text instruction := by
  obtain ⟨name, settings, source, sink, fuel, final, known, ended⟩ := reports
  unfold interpret at ended
  rw [known] at ended
  obtain ⟨failing, failed, error, fails, reported⟩ :=
    Machine.exists_report_of_run (Except.ok.inj ended)
  obtain ⟨instruction, cut, found, sliced, shown⟩ :=
    Machine.exists_cut_of_step_execution (Program.ofText_sliceable dialect text) fails
  rw [Machine.diagnostic?_of_report reported] at shown
  cases shown
  have member := mem_tokenize_of_step_failed fails found
  have inside := (Reading.standsIn_of_mem_tokenize member).inside_eq sliced
  exact ⟨instruction, member,
    { lexeme := rfl
      shows := ⟨cut, sliced, inside, rfl⟩
      message := ⟨error, rfl⟩ }⟩

theorem showsOnLine_iff_of_reports (reports : dialect.Reports text diagnostic) :
    diagnostic.ShowsOnLine ↔ '\n' ∉ Excerpt.shorten diagnostic.lexeme := by
  obtain ⟨instruction, -, concerns⟩ := exists_concerns_of_reports reports
  exact concerns.showsOnLine_iff

theorem showsOnLine_of_reports (registered : dialect ∈ all)
    (uncounted : dialect.reading.countsRuns = false) (reports : dialect.Reports text diagnostic) :
    diagnostic.ShowsOnLine := by
  obtain ⟨instruction, member, concerns⟩ := exists_concerns_of_reports reports
  have unbroken := newline_notMem_lexeme registered uncounted member
  rw [← concerns.lexeme] at unbroken
  exact concerns.showsOnLine_iff.mpr (Excerpt.newline_notMem_shorten unbroken)

/-! ### Runs over the end of a line -/

theorem nodup_names : (all.map fun dialect => dialect.name.toList.map Char.toLower).Nodup := by
  decide +kernel

theorem lookup_name (registered : dialect ∈ all) : lookup dialect.name = .ok dialect := by
  unfold lookup
  cases found : all.find? fun other => sameName other.name dialect.name with
  | none => exact absurd (beq_self_eq_true _) (List.find?_eq_none.mp found dialect registered)
  | some other =>
      have same : sameName other.name dialect.name = true := by simpa using List.find?_some found
      rw [List.inj_on_of_nodup_map nodup_names (List.mem_of_find?_eq_some found) registered
        (beq_iff_eq.mp same)]

/-- One cell, with an end of the tape on both sides. -/
def walled : Settings :=
  { Machine.oneCell with looped := false }

def endingInCell (text : Text) (name : String) : Except UnknownDialect (Option Ending) :=
  (interpret text name walled (Source.ofBytes [] none) (Sink.empty none none) 2).map
    (Option.map Prod.fst)

theorem reports_of_endingInCell {name : String} (known : lookup name = .ok dialect)
    (ended : endingInCell text name = .ok (some (.reported diagnostic))) :
    dialect.Reports text diagnostic := by
  unfold endingInCell at ended
  cases ran : interpret text name walled (Source.ofBytes [] none) (Sink.empty none none) 2 with
  | error unknown =>
      rw [ran] at ended
      cases ended
  | ok result =>
      rw [ran] at ended
      obtain ⟨⟨ending, final⟩, rfl, rfl⟩ := Option.map_eq_some_iff.mp (Except.ok.inj ended)
      exact ⟨name, walled, _, _, 2, final, known, ran⟩

/-- The report on two markers, a line feed and a terminator, which are the move to the left. -/
def brokenRun (marker terminator : Char) : Diagnostic :=
  { lexeme := [marker, marker, '\n', terminator]
    excerpt := { before := [], marked := [marker, marker, '\n', terminator], after := [] }
    pointer := 0
    message := ExecutionError.pointerTooLow.message }

theorem newline_mem_shorten_brokenRun (marker terminator : Char) :
    '\n' ∈ Excerpt.shorten (brokenRun marker terminator).lexeme :=
  List.mem_cons_of_mem _ (List.mem_cons_of_mem _ List.mem_cons_self)

theorem exists_reports_brokenRun (registered : dialect ∈ all)
    (counted : dialect.reading.countsRuns = true) :
    ∃ text marker terminator, dialect.Reports text (brokenRun marker terminator) := by
  have known := lookup_name registered
  rcases (countsRuns_eq_true_iff dialect registered).mp counted with tally | knots
  · rw [tally] at known
    exact ⟨"||\n;".toList, '|', ';', reports_of_endingInCell known (by decide +kernel)⟩
  · rw [knots] at known
    exact ⟨"oo\n-".toList, 'o', '-', reports_of_endingInCell known (by decide +kernel)⟩

/-- The context of a report crosses a line break of the text only within a run of markers. -/
structure CrossesInRunsOnly (dialect : Dialect) : Prop where
  onLine : (∀ text diagnostic, dialect.Reports text diagnostic → diagnostic.ShowsOnLine) ↔
    dialect.name ≠ "Tally" ∧ dialect.name ≠ "Knots"
  report : ∀ text diagnostic, dialect.Reports text diagnostic →
    (diagnostic.ShowsOnLine ↔ '\n' ∉ Excerpt.shorten diagnostic.lexeme) ∧
      ('\n' ∈ diagnostic.excerpt.context ↔ '\n' ∈ Excerpt.shorten diagnostic.lexeme)

theorem crossesInRunsOnly (registered : dialect ∈ all) : dialect.CrossesInRunsOnly := by
  refine { onLine := ?onLine, report := ?report }
  case onLine =>
      rw [← not_or, ← countsRuns_eq_true_iff dialect registered, Bool.not_eq_true]
      constructor
      · intro onLine
        rw [← Bool.not_eq_true]
        intro counted
        obtain ⟨text, marker, terminator, reports⟩ := exists_reports_brokenRun registered counted
        exact (showsOnLine_iff_of_reports reports).mp (onLine text _ reports)
          (newline_mem_shorten_brokenRun marker terminator)
      · intro uncounted text diagnostic reports
        exact showsOnLine_of_reports registered uncounted reports
  case report =>
      intro text diagnostic reports
      obtain ⟨instruction, -, concerns⟩ := exists_concerns_of_reports reports
      exact ⟨concerns.showsOnLine_iff, concerns.newline_mem_context_iff⟩

def leftOnLine : Diagnostic :=
  { lexeme := ['<']
    excerpt := { before := ['ü', ' '], marked := ['<'], after := [' ', 't', 'o'] }
    pointer := 0
    message := ExecutionError.pointerTooLow.message }

theorem leftOnLine_crossesInRunsOnly :
    ∃ dialect ∈ all, dialect.name = "Brainfuck" ∧
      dialect.Reports "one\nü < to\nend".toList leftOnLine ∧
      leftOnLine.display =
        "RunTime error [operator: ` < `; pointer: 0]:\nü < to\n  ^   \n" ++
          "tape pointer out of range (-1 < 0)" ∧
      leftOnLine.ShowsOnLine ∧ dialect.CrossesInRunsOnly := by
  have registered : _ ∈ all := List.mem_of_getElem? (i := 0) rfl
  have ended : endingInCell "one\nü < to\nend".toList "Brainfuck" =
      .ok (some (.reported leftOnLine)) := by decide +kernel
  have reports := reports_of_endingInCell (lookup_name registered) ended
  have crosses := crossesInRunsOnly registered
  refine ⟨_, registered, rfl, reports, by decide +kernel, ?_, crosses⟩
  exact crosses.onLine.mpr ⟨by decide, by decide⟩ _ _ reports

/-- The terminator is on the next line, and so the line feed is in the context. -/
theorem brokenTally_crosses :
    ∃ dialect ∈ all, dialect.name = "Tally" ∧
      dialect.Reports "||\n;".toList (brokenRun '|' ';') ∧
      '\n' ∈ (brokenRun '|' ';').excerpt.context ∧
      (brokenRun '|' ';').display =
        "RunTime error [operator: ` ||\n; `; pointer: 0]:\n||\n;\n^^^^\n" ++
          "tape pointer out of range (-1 < 0)" := by
  have registered : _ ∈ all := List.mem_of_getElem? (i := 18) rfl
  refine ⟨_, registered, rfl, ?_, by decide, by decide +kernel⟩
  exact reports_of_endingInCell (lookup_name registered) (by decide +kernel)

end Dialect
end TapeDialects
