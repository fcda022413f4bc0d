/-
Comments, and instructions that stand inside them.

A comment runs from an opening character to the closing character that matches
it, both included.  Comments nest.  A closing character outside of any comment
is ordinary text, and a comment that is never closed runs to the end of the
text.  Where both characters are the same, each of them opens.
-/

import TapeDialects.Instruction

namespace TapeDialects.Comment

/-- The comment around a place: where the outermost one starts, and how many
comments are open inside it. -/
structure Open where
  start : Nat
  inner : Nat
  deriving DecidableEq

def rangesFrom (opener closer : Char) (position : Nat) : Option Open → Text → List Span
  | none, [] => []
  | some outermost, [] => [{ start := outermost.start, stop := position }]
  | none, character :: rest =>
      let later := position + character.utf8Size
      if character = opener then
        rangesFrom opener closer later (some { start := position, inner := 0 }) rest
      else
        rangesFrom opener closer later none rest
  | some outermost, character :: rest =>
      let later := position + character.utf8Size
      if character = opener then
        rangesFrom opener closer later
          (some { outermost with inner := outermost.inner + 1 }) rest
      else if character = closer then
        match outermost.inner with
        | 0 =>
            { start := outermost.start, stop := later } ::
              rangesFrom opener closer later none rest
        | inner + 1 =>
            rangesFrom opener closer later (some { outermost with inner }) rest
      else
        rangesFrom opener closer later (some outermost) rest

def ranges (opener closer : Char) (text : Text) : List Span :=
  rangesFrom opener closer 0 none text

/-- Drop the instructions inside a comment, in one pass over both lists.  A range
that ends where an instruction starts, or before, is left behind for good, and
only the first of the others is asked: both lists are meant to be in the order
of the text. -/
def strip : List Span → List Instruction → List Instruction
  | _, [] => []
  | comments, instruction :: rest =>
      match comments.dropWhile fun comment =>
          decide (comment.stop ≤ instruction.span.start) with
      | [] => instruction :: strip [] rest
      | nearest :: others =>
          if instruction.span.Within nearest then
            strip (nearest :: others) rest
          else
            instruction :: strip (nearest :: others) rest

end TapeDialects.Comment
