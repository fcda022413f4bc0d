/-
Every dialect reads back what is written in it.

Each way of reading has words for its commands, and a condition under which the
words are told apart.  The dialects of the registry all meet that condition, and
their commands are the basic ones with one more in three of the dialects.
-/

import TapeDialects.Dialect.Registry
import TapeDialects.Proofs.Coding.Counting
import TapeDialects.Proofs.Coding.Wildcard
import TapeDialects.Proofs.Lexeme.Separable

namespace TapeDialects

namespace Reading

def Spells : Reading → Command → Text → Prop
  | .unique table => Entry.Spells table
  | .ranked table => Entry.Spells (table.map RankedEntry.entry)
  | .wildcard => Wildcard.Spells
  | .countedRuns format => format.Spells
  | .wordLength => WordLength.Spells
  | .selfRepetition => SelfRepetition.Spells
  | .commented table _ _ => Entry.Spells table

def vocabulary : Reading → List Command
  | .unique table => table.map Entry.command
  | .ranked table => (table.map RankedEntry.entry).map Entry.command
  | .wildcard => Wildcard.outerLetters.map Wildcard.OuterLetters.command ++ [.again]
  | .countedRuns _ => Command.basic
  | .wordLength => Command.basic
  | .selfRepetition => Command.basic
  | .commented table _ _ => table.map Entry.command

/-- The condition under which words with white space between them are told apart. -/
def Legible : Reading → Prop
  | .unique table => Entry.Separable table
  | .ranked table => Entry.Separable (RankedEntry.toTable table)
  | .wildcard => True
  | .countedRuns format => format.Distinct
  | .wordLength => True
  | .selfRepetition => True
  | .commented table opener _ =>
      Entry.Separable table ∧ Text.isSpace opener = false ∧
        ∀ entry ∈ table, opener ∉ entry.lexeme

instance : (reading : Reading) → Decidable reading.Legible
  | .unique table => inferInstanceAs (Decidable (Entry.Separable table))
  | .ranked table => inferInstanceAs (Decidable (Entry.Separable (RankedEntry.toTable table)))
  | .wildcard => .isTrue trivial
  | .countedRuns format => inferInstanceAs (Decidable format.Distinct)
  | .wordLength => .isTrue trivial
  | .selfRepetition => .isTrue trivial
  | .commented _ _ _ => inferInstanceAs (Decidable (_ ∧ _))

theorem exists_spells_iff {reading : Reading} {command : Command} :
    (∃ word, reading.Spells command word) ↔ command ∈ reading.vocabulary := by
  cases reading with
  | unique table => exact Entry.exists_spells_iff
  | ranked table => exact Entry.exists_spells_iff
  | wildcard => exact Wildcard.exists_spells_iff
  | countedRuns format => exact RunFormat.exists_spells_iff
  | wordLength => exact WordLength.exists_spells_iff
  | selfRepetition => exact SelfRepetition.exists_spells_iff
  | commented table opener closer => exact Entry.exists_spells_iff

theorem map_command_tokenize {reading : Reading} (legible : reading.Legible)
    {commands : List Command} {text : Text} (written : Written reading.Spells commands text) :
    (reading.tokenize text).map Instruction.command = commands := by
  cases reading with
  | unique table => exact Entry.map_command_tokenize legible written
  | ranked table =>
      apply Entry.map_command_tokenize legible
      refine written.mono ?_
      intro command word spelled
      exact RankedEntry.mem_toTable_iff.mpr spelled
  | wildcard => exact Wildcard.map_command_tokenize written
  | countedRuns format => exact RunFormat.map_command_tokenize legible written
  | wordLength => exact WordLength.map_command_tokenize written
  | selfRepetition => exact SelfRepetition.map_command_tokenize written
  | commented table opener closer =>
      exact Comment.map_command_strip legible.1 legible.2.1 legible.2.2 written

end Reading

namespace Dialect

def extra (dialect : Dialect) : List Command :=
  if dialect.name = "Blub" then [.giveFishfood]
  else if dialect.name = "Ook" then [.giveBanana]
  else if dialect.name = "FuckFuck" then [.again]
  else []

def vocabulary (dialect : Dialect) : List Command :=
  Command.basic ++ dialect.extra

open Tables in
theorem legible_of_mem_all : ∀ dialect ∈ all, dialect.reading.Legible := by
  simp only [all, brainfuck, alphuck, brainSymbol, exclamationFuck, german, messyScript,
    morseFuck, pewlang, reverseFuck, roadrunner, ternary, triplet, uwu, blub, ook,
    wholesomeFuck, zzz, scream, rankedTable, basicTable, Command.basic,
    List.zipWith_cons_cons, List.zipWith_nil_left]
  -- The characters of a literal are read off it here: to evaluate them is slow and deep.
  repeat rw [String.toList_ofList]
  decide

theorem reading_vocabulary_of_mem_all :
    ∀ dialect ∈ all, dialect.reading.vocabulary = dialect.vocabulary := by
  decide +kernel

structure ReadsBack (dialect : Dialect) : Prop where
  expresses : ∀ command,
    (∃ word, dialect.reading.Spells command word) ↔ command ∈ dialect.vocabulary
  writes : ∀ commands, (∀ command ∈ commands, command ∈ dialect.vocabulary) →
    ∃ text, Written dialect.reading.Spells commands text
  reads : ∀ commands text, Written dialect.reading.Spells commands text →
    (dialect.tokenize text).map Instruction.command = commands

theorem map_command_tokenize {dialect : Dialect} (registered : dialect ∈ all)
    {commands : List Command} {text : Text}
    (written : Written dialect.reading.Spells commands text) :
    (dialect.tokenize text).map Instruction.command = commands :=
  Reading.map_command_tokenize (legible_of_mem_all dialect registered) written

theorem readsBack_of_mem_all {dialect : Dialect} (registered : dialect ∈ all) :
    dialect.ReadsBack ∧
      ∀ other ∈ all, ∀ commands text otherText,
        Written dialect.reading.Spells commands text →
          Written other.reading.Spells commands otherText →
            (dialect.tokenize text).map Instruction.command =
              (other.tokenize otherText).map Instruction.command := by
  have expresses : ∀ command,
      (∃ word, dialect.reading.Spells command word) ↔ command ∈ dialect.vocabulary := by
    intro command
    rw [Reading.exists_spells_iff, reading_vocabulary_of_mem_all dialect registered]
  constructor
  · refine { expresses, writes := ?writes, reads := ?reads }
    case writes =>
        intro commands known
        apply Written.exists_text
        intro command member
        exact (expresses command).mpr (known command member)
    case reads =>
        intro commands text written
        exact map_command_tokenize registered written
  · intro other otherRegistered commands text otherText written otherWritten
    rw [map_command_tokenize registered written,
      map_command_tokenize otherRegistered otherWritten]

/-- An ideographic space in front and an em space between two words of FuckFuck. -/
theorem wideSpaces_passed :
    (Dialect.mk "FuckFuck" .wildcard ∈ all) ∧
      (Wildcard.tokenize "\u3000f__k\u2003*".toList).map Instruction.command =
        [.right, .again] := by
  have registered : Dialect.mk "FuckFuck" .wildcard ∈ all := by decide
  refine ⟨registered, ?_⟩
  have wide : Text.Blank ['\u3000'] ∧ Text.Blank ['\u2003'] := by
    constructor
    · intro character member
      rw [List.mem_singleton.mp member]
      rfl
    · intro character member
      rw [List.mem_singleton.mp member]
      rfl
  have last : Written Wildcard.Spells [.again] (['\u2003'] ++ (['*'] ++ [])) :=
    .cons wide.2 (Or.inl ⟨rfl, rfl⟩) Text.apart_nil (.nil Text.blank_nil)
  have whole : Written Wildcard.Spells [.right, .again]
      (['\u3000'] ++ (['f', '_', '_', 'k'] ++ (['\u2003'] ++ (['*'] ++ [])))) :=
    .cons wide.1 (Or.inr ⟨_, List.mem_cons_self, rfl, rfl⟩)
      (Text.apart_cons.mpr rfl) last
  exact (readsBack_of_mem_all registered).1.reads _ _ whole

end Dialect
end TapeDialects
