/-
Words of four characters of which only the outer two count.

The outer characters are compared with a table of letter pairs under simple
case folding; the inner two may be letters, digits, underscores or stars.  Words
are taken from left to right and do not overlap.  The command of a word is
looked up by the lower-case form of its outer letters, which the long s does not
change: a word that has it outside is taken, but gives no instruction.

A star that no word has taken repeats the command before it, if white space or
the border of the text stands on both sides of it.
-/

import TapeDialects.Instruction
import TapeDialects.Text.LetterCase
import TapeDialects.Text.Space

namespace TapeDialects.Wildcard

structure OuterLetters where
  first : Char
  last : Char
  command : Command
  deriving DecidableEq

def outerLetters : List OuterLetters :=
  [{ first := 'f', last := 'k', command := .right },
    { first := 's', last := 'g', command := .left },
    { first := 'b', last := 'b', command := .increment },
    { first := 't', last := 's', command := .decrement },
    { first := 'c', last := 'k', command := .output },
    { first := 'k', last := 'b', command := .input },
    { first := 'a', last := 'e', command := .loopOpen },
    { first := 'b', last := 't', command := .loopClose }]

def star : Char := '*'

def isInner (character : Char) : Bool :=
  (Text.foldCase character).isLower || character.isDigit ||
    character == '_' || character == star

def isOuter (first last : Char) : Bool :=
  outerLetters.any fun pair =>
    pair.first == Text.foldCase first && pair.last == Text.foldCase last

def opensWord : Text → Bool
  | first :: second :: third :: last :: _ =>
      isOuter first last && isInner second && isInner third
  | _ => false

def command? (first last : Char) : Option Command :=
  (outerLetters.find? fun pair =>
    pair.first == Text.lowerCase first && pair.last == Text.lowerCase last).map
      OuterLetters.command

def wordCommand? : Text → Option Command
  | first :: _ :: _ :: last :: _ => command? first last
  | _ => none

/-- White space, or no character at all. -/
def isBorder : Option Char → Bool
  | none => true
  | some character => Text.isSpace character

/-- The instruction that starts at a place of the text, given the character
before that place. -/
def instructionAt? (position : Nat) (previous : Option Char) (text : Text) :
    Option Instruction :=
  if opensWord text then
    (wordCommand? text).map fun command =>
      Instruction.startingAt position command (text.take 4)
  else
    match text with
    | character :: rest =>
        if character = star ∧ isBorder previous ∧ isBorder rest.head? then
          some (Instruction.startingAt position .again [character])
        else
          none
    | [] => none

/-- Read on from a place, after passing over the characters of a word that
have been taken already. -/
def tokenizeFrom (position : Nat) (previous : Option Char) : Nat → Text → List Instruction
  | _, [] => []
  | taken + 1, character :: rest =>
      tokenizeFrom (position + character.utf8Size) (some character) taken rest
  | 0, character :: rest =>
      (instructionAt? position previous (character :: rest)).toList ++
        tokenizeFrom (position + character.utf8Size) (some character)
          (if opensWord (character :: rest) then 3 else 0) rest

def tokenize (text : Text) : List Instruction :=
  tokenizeFrom 0 none 0 text

end TapeDialects.Wildcard
