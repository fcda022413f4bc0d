/-
The words of a text: its longest pieces without white space, in order, each
with the offset of its first character.
-/

import TapeDialects.Text.Space

namespace TapeDialects

structure Word where
  start : Nat
  letters : Text
  deriving DecidableEq

namespace Word

def stop (word : Word) : Nat :=
  word.start + word.letters.size

def span (word : Word) : Span :=
  { start := word.start, stop := word.stop }

/-- Put a character in front of words that begin behind it: it joins the first
of them if nothing stands between, and is a word of its own otherwise. -/
def attach (position : Nat) (character : Char) : List Word → List Word
  | [] => [{ start := position, letters := [character] }]
  | word :: words =>
      if word.start = position + character.utf8Size then
        { start := position, letters := character :: word.letters } :: words
      else
        { start := position, letters := [character] } :: word :: words

end Word

namespace Text

def wordsFrom (position : Nat) : Text → List Word
  | [] => []
  | character :: rest =>
      let later := wordsFrom (position + character.utf8Size) rest
      if isSpace character then later else Word.attach position character later

def words (text : Text) : List Word :=
  wordsFrom 0 text

end Text
end TapeDialects
