/-
Excerpts: the surroundings of a span of the text on one line, over a line that
marks the span.

On each side at most twenty characters of the text's own line are shown.  A
long lexeme is shortened to its two edges.
-/

import TapeDialects.Text.Slice

namespace TapeDialects

structure Excerpt where
  before : Text
  marked : Text
  after : Text
  deriving DecidableEq

namespace Excerpt

/-- How many characters are shown on each side of a lexeme. -/
def margin : Nat := 20

/-- The longest lexeme that is shown in full. -/
def longest : Nat := 30

/-- How many characters are kept of each edge of a longer one. -/
def edge : Nat := 10

def shorten (lexeme : Text) : Text :=
  if lexeme.length ≤ longest then
    lexeme
  else
    lexeme.take edge ++ "...".toList ++ lexeme.drop (lexeme.length - edge)

/-- The first characters of a text, up to the margin and within its line. -/
def opening (text : Text) : Text :=
  (text.take margin).takeWhile (· ≠ '\n')

def closing (text : Text) : Text :=
  (opening text.reverse).reverse

def ofCut (cut : Text.Cut) : Excerpt :=
  { before := closing cut.before
    marked := shorten cut.inside
    after := opening cut.after }

def of? (text : Text) (span : Span) : Option Excerpt :=
  (text.cut? span).map ofCut

def context (excerpt : Excerpt) : Text :=
  excerpt.before ++ excerpt.marked ++ excerpt.after

/-- Carets under the lexeme, spaces under the rest. -/
def underline (excerpt : Excerpt) : Text :=
  List.replicate excerpt.before.length ' ' ++
    List.replicate excerpt.marked.length '^' ++
      List.replicate excerpt.after.length ' '

theorem length_underline (excerpt : Excerpt) :
    excerpt.underline.length = excerpt.context.length := by
  simp [underline, context]

end Excerpt
end TapeDialects
