/-
Reading a text with a table of lexemes.

A lexer stands at an offset of the text, with the characters that are still to
be read.  Its next instruction starts at the first place where an entry of the
table opens the rest; characters before that place belong to no lexeme and are
passed over.  Each call may bring a table of its own.
-/

import TapeDialects.Instruction
import TapeDialects.Lexeme.Table

namespace TapeDialects

structure Lexer where
  position : Nat
  rest : Text
  deriving DecidableEq

namespace Lexer

def ofText (text : Text) : Lexer :=
  { position := 0, rest := text }

def nextFrom (table : List Entry) (position : Nat) : Text → Option Instruction × Lexer
  | [] => (none, { position, rest := [] })
  | character :: rest =>
      match Entry.find? table (character :: rest) with
      | some entry =>
          (some (Instruction.startingAt position entry.command entry.lexeme),
            { position := position + entry.lexeme.size
              rest := (character :: rest).drop entry.lexeme.length })
      | none => nextFrom table (position + character.utf8Size) rest

def next (table : List Entry) (lexer : Lexer) : Option Instruction × Lexer :=
  nextFrom table lexer.position lexer.rest

theorem length_rest_nextFrom_lt {table : List Entry} {position : Nat} {text : Text}
    {instruction : Instruction} {lexer : Lexer}
    (read : nextFrom table position text = (some instruction, lexer)) :
    lexer.rest.length < text.length := by
  induction text generalizing position with
  | nil => simp [nextFrom] at read
  | cons character rest ih =>
      simp only [nextFrom] at read
      split at read
      · next entry found =>
          simp only [Prod.mk.injEq] at read
          rw [← read.2]
          exact (Entry.opens_of_find? found).2.length_drop_lt
      · have shorter := ih read
        simp only [List.length_cons]
        omega

def readAll (table : List Entry) (lexer : Lexer) : List Instruction :=
  match _read : lexer.next table with
  | (some instruction, later) => instruction :: readAll table later
  | (none, _) => []
  termination_by lexer.rest.length
  decreasing_by exact length_rest_nextFrom_lt _read

theorem readAll_of_next_some {table : List Entry} {lexer later : Lexer}
    {instruction : Instruction} (read : lexer.next table = (some instruction, later)) :
    lexer.readAll table = instruction :: later.readAll table := by
  rw [readAll]
  split
  · next found =>
      simp only [read, Prod.mk.injEq, Option.some.injEq] at found
      rw [found.1, found.2]
  · next missed => simp [read] at missed

theorem readAll_of_next_none {table : List Entry} {lexer later : Lexer}
    (read : lexer.next table = (none, later)) : lexer.readAll table = [] := by
  rw [readAll]
  split
  · next found => simp [read] at found
  · rfl

/-- One instruction for each table, all by the same lexer. -/
def nextEach (lexer : Lexer) : List (List Entry) → List (Option Instruction)
  | [] => []
  | table :: tables =>
      let (instruction?, later) := lexer.next table
      instruction? :: nextEach later tables

end Lexer

namespace Text

def tokenize (table : List Entry) (text : Text) : List Instruction :=
  (Lexer.ofText text).readAll table

def tokenizeRanked (table : List RankedEntry) (text : Text) : List Instruction :=
  tokenize (RankedEntry.toTable table) text

end Text
end TapeDialects
