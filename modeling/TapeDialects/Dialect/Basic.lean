/-
Dialects: spellings of the tape language.

A dialect is a name and a way of reading its texts.  Most dialects are a table
of lexemes; the others count characters or repetitions, or look at parts of
words only.
-/

import TapeDialects.Coding.CountedRun
import TapeDialects.Coding.SelfRepetition
import TapeDialects.Coding.Wildcard
import TapeDialects.Coding.WordLength
import TapeDialects.Lexeme.Comment
import TapeDialects.Lexeme.Lexer

namespace TapeDialects

inductive Reading where
  /-- By lexemes none of which begins another one. -/
  | unique (table : List Entry)
  /-- By lexemes that are tried in the order of their priorities. -/
  | ranked (table : List RankedEntry)
  /-- By the outer letters of words of four characters. -/
  | wildcard
  | countedRuns (format : RunFormat)
  | wordLength
  | selfRepetition
  /-- By lexemes outside of nested comments. -/
  | commented (table : List Entry) (opener closer : Char)
  deriving DecidableEq

def Reading.tokenize (reading : Reading) (text : Text) : List Instruction :=
  match reading with
  | .unique table => text.tokenize table
  | .ranked table => text.tokenizeRanked table
  | .wildcard => Wildcard.tokenize text
  | .countedRuns format => format.tokenize text
  | .wordLength => WordLength.tokenize text
  | .selfRepetition => SelfRepetition.tokenize text
  | .commented table opener closer =>
      Comment.strip (Comment.ranges opener closer text) (text.tokenize table)

structure Dialect where
  name : String
  reading : Reading
  deriving DecidableEq

def Dialect.tokenize (dialect : Dialect) (text : Text) : List Instruction :=
  dialect.reading.tokenize text

end TapeDialects
