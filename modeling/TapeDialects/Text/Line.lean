/-
What a line of input is read as: its first character that counts.
-/

import TapeDialects.Text.Slice

namespace TapeDialects.Text

def isLineBreak (character : Char) : Bool :=
  character == '\n' || character == '\r'

def trimEnd (line : Text) : Text :=
  (line.reverse.dropWhile isLineBreak).reverse

/-- The first character that is not a space of a line without its line breaks,
or a line feed if nothing is left. -/
def inputCharacter (line : Text) : Char :=
  (line.trimEnd.dropWhile (· == ' ')).headD '\n'

end TapeDialects.Text
