/-
A command together with the place in the source text that it was read from.
-/

import TapeDialects.Command
import TapeDialects.Text.Slice

namespace TapeDialects

structure Instruction where
  command : Command
  lexeme : Text
  span : Span
  deriving DecidableEq

namespace Instruction

def startingAt (position : Nat) (command : Command) (lexeme : Text) : Instruction :=
  { command
    lexeme
    span := { start := position, stop := position + lexeme.size } }

def ofSpan? (text : Text) (command : Command) (span : Span) : Option Instruction :=
  (text.cut? span).map fun cut => { command, lexeme := cut.inside, span }

theorem ofSpan?_startingAt (before lexeme after : Text) (command : Command) :
    ofSpan? (before ++ lexeme ++ after) command
        (startingAt before.size command lexeme).span =
      some (startingAt before.size command lexeme) := by
  have found : Text.cut? (before ++ lexeme ++ after)
      (startingAt before.size command lexeme).span =
        some { before, inside := lexeme, after } :=
    Text.cut?_eq_some_iff.mpr ⟨rfl, rfl, rfl⟩
  rw [ofSpan?, found]
  rfl

end Instruction
end TapeDialects
