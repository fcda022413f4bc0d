/-
Lexemes without a line break.

The spellings in the tables have none, and no word holds white space, so what such readers
take stands on one line of the text.  Only a run of markers goes on over whatever stands
between its first marker and its terminator.
-/

import TapeDialects.Proofs.Coding.LoneStar
import TapeDialects.Proofs.Lexeme.Leftmost

namespace TapeDialects

theorem Text.exists_entry_of_mem_tokenize {table : List Entry} {text : Text}
    {instruction : Instruction} (member : instruction ∈ text.tokenize table) :
    ∃ entry ∈ table, instruction.lexeme = entry.lexeme := by
  obtain ⟨start, entry, found, rfl⟩ := (Lexer.exhausts_tokenize table text).first instruction member
  exact ⟨entry, found.mem, rfl⟩

namespace Text

theorem newline_notMem_of_solid {letters : Text}
    (solid : ∀ character ∈ letters, isSpace character = false) : '\n' ∉ letters := by
  intro member
  exact absurd (solid '\n' member) (by decide)

theorem solid_of_mem_attach {position : Nat} {character : Char} {words : List Word}
    (here : isSpace character = false)
    (solid : ∀ word ∈ words, ∀ letter ∈ word.letters, isSpace letter = false) :
    ∀ word ∈ Word.attach position character words, ∀ letter ∈ word.letters,
      isSpace letter = false := by
  have alone : ∀ letter ∈ [character], isSpace letter = false :=
    List.forall_mem_singleton.mpr here
  cases words with
  | nil =>
      rw [Word.attach]
      exact List.forall_mem_singleton.mpr alone
  | cons first others =>
      obtain ⟨front, behind⟩ := List.forall_mem_cons.mp solid
      rw [Word.attach]
      split
      · exact List.forall_mem_cons.mpr ⟨List.forall_mem_cons.mpr ⟨here, front⟩, behind⟩
      · exact List.forall_mem_cons.mpr ⟨alone, solid⟩

theorem solid_of_mem_wordsFrom (position : Nat) (text : Text) :
    ∀ word ∈ wordsFrom position text, ∀ letter ∈ word.letters, isSpace letter = false := by
  induction text generalizing position with
  | nil => exact nofun
  | cons character rest ih =>
      cases space : isSpace character with
      | true =>
          rw [wordsFrom_space space]
          exact ih _
      | false =>
          rw [wordsFrom_solid space]
          exact solid_of_mem_attach space (ih _)

end Text

namespace Wildcard

theorem lexeme_of_mem_repeatsBehind {front rest : Text} {instruction : Instruction}
    (member : instruction ∈ repeatsBehind front rest) : instruction.lexeme = [star] := by
  obtain ⟨index, -, rfl⟩ := List.mem_map.mp member
  rfl

theorem solid_of_mem_tokenize {text : Text} {instruction : Instruction}
    (member : instruction ∈ tokenize text) :
    ∀ character ∈ instruction.lexeme, Text.isSpace character = false := by
  by_cases again : instruction.command = .again
  · have repeated : instruction ∈ (tokenize text).filter repeats :=
      List.mem_filter.mpr ⟨member, decide_eq_true again⟩
    have outside : (0 : Nat) ≠ 0 → isBorder ([] : Text).getLast? = false :=
      fun taken => absurd rfl taken
    have stars : (tokenize text).filter repeats = repeatsBehind [] text :=
      filter_repeats_tokenizeFrom outside (List.forall_mem_nil _)
    rw [stars] at repeated
    rw [lexeme_of_mem_repeatsBehind repeated]
    exact List.forall_mem_singleton.mpr rfl
  · exact (word_of_mem_tokenizeFrom member again).2

end Wildcard

namespace Reading

def entries : Reading → List Entry
  | .unique table | .commented table _ _ => table
  | .ranked table => table.map RankedEntry.entry
  | _ => []

def countsRuns : Reading → Bool
  | .countedRuns _ => true
  | _ => false

theorem newline_notMem_lexeme {reading : Reading} {text : Text} {instruction : Instruction}
    (unbroken : ∀ entry ∈ reading.entries, '\n' ∉ entry.lexeme)
    (uncounted : reading.countsRuns = false) (member : instruction ∈ reading.tokenize text) :
    '\n' ∉ instruction.lexeme := by
  cases reading with
  | unique table =>
      obtain ⟨entry, listed, same⟩ := Text.exists_entry_of_mem_tokenize member
      exact same ▸ unbroken entry listed
  | ranked table =>
      obtain ⟨entry, listed, same⟩ := Text.exists_entry_of_mem_tokenize member
      have ranked := ((RankedEntry.byPriority_perm table).map RankedEntry.entry).mem_iff.mp listed
      exact same ▸ unbroken entry ranked
  | wildcard => exact Text.newline_notMem_of_solid (Wildcard.solid_of_mem_tokenize member)
  | countedRuns format => cases uncounted
  | wordLength =>
      obtain ⟨word, listed, found⟩ := List.mem_filterMap.mp member
      unfold WordLength.instruction? at found
      split at found
      · cases found
        exact Text.newline_notMem_of_solid (Text.solid_of_mem_wordsFrom 0 text word listed)
      · cases found
  | selfRepetition =>
      obtain ⟨word, listed, rfl⟩ := List.mem_map.mp member
      exact Text.newline_notMem_of_solid (Text.solid_of_mem_wordsFrom 0 text word listed)
  | commented table opener closer =>
      obtain ⟨entry, listed, same⟩ :=
        Text.exists_entry_of_mem_tokenize ((Comment.strip_sublist _ _).mem member)
      exact same ▸ unbroken entry listed

end Reading

namespace Dialect

open Tables in
theorem newline_notMem_of_mem_entries :
    ∀ dialect ∈ all, ∀ entry ∈ dialect.reading.entries, '\n' ∉ entry.lexeme := by
  simp only [all, brainfuck, alphuck, brainSymbol,
    exclamationFuck, german, messyScript, morseFuck, pewlang, reverseFuck, roadrunner, ternary,
    triplet, uwu, blub, ook, wholesomeFuck, zzz, scream, rankedTable, basicTable, Command.basic,
    List.zipWith_cons_cons, List.zipWith_nil_left]
  repeat rw [String.toList_ofList]
  decide

theorem countsRuns_eq_true_iff :
    ∀ dialect ∈ all,
      dialect.reading.countsRuns = true ↔ dialect.name = "Tally" ∨ dialect.name = "Knots" := by
  decide +kernel

theorem newline_notMem_lexeme {dialect : Dialect} (registered : dialect ∈ all)
    (uncounted : dialect.reading.countsRuns = false) {text : Text} {instruction : Instruction}
    (member : instruction ∈ dialect.tokenize text) : '\n' ∉ instruction.lexeme :=
  Reading.newline_notMem_lexeme (newline_notMem_of_mem_entries dialect registered) uncounted member

end Dialect
end TapeDialects
