/-
Two ways to compare the letters a to z without regard to case.

Simple case folding takes two characters outside ASCII to such a letter: the
long s (U+017F) and the Kelvin sign (U+212A).  The lower-case form of the
Kelvin sign is the letter k too, but the long s is in lower case already.  So
the two ways differ on the long s, and on it only.  A character that neither
way takes to a letter a to z stands for itself here.
-/

import TapeDialects.Text.Slice

namespace TapeDialects.Text

def longS : Char := '\u017F'

def kelvinSign : Char := '\u212A'

def lowerCase (character : Char) : Char :=
  if character = kelvinSign then 'k' else character.toLower

/-- The simple case folding. -/
def foldCase (character : Char) : Char :=
  if character = longS then 's' else lowerCase character

theorem foldCase_eq_lowerCase {character : Char} (other : character ≠ longS) :
    foldCase character = lowerCase character := by
  simp [foldCase, other]

end TapeDialects.Text
