/-
Commands given by the length of words.  The number of characters of a word is
the code of its command; words with more characters than there are basic
commands give nothing.
-/

import TapeDialects.Instruction
import TapeDialects.Text.Word

namespace TapeDialects.WordLength

def instruction? (word : Word) : Option Instruction :=
  if word.letters.length ≤ Command.basic.length then
    some (Instruction.startingAt word.start (Command.ofCode word.letters.length)
      word.letters)
  else
    none

def tokenize (text : Text) : List Instruction :=
  text.words.filterMap instruction?

end TapeDialects.WordLength
