/-
Commands given by how often words repeat a part of themselves.  The code of a
word is the largest number, up to the number of basic commands, such that the
word is some part of it written so many times.
-/

import TapeDialects.Instruction
import TapeDialects.Text.Word

namespace TapeDialects.SelfRepetition

def IsRepeated (count : Nat) (letters : Text) : Prop :=
  letters.length % count = 0 ∧
    (List.replicate count (letters.take (letters.length / count))).flatten = letters

instance (count : Nat) (letters : Text) : Decidable (IsRepeated count letters) :=
  inferInstanceAs (Decidable (_ ∧ _))

theorem isRepeated_one (letters : Text) : IsRepeated 1 letters := by
  simp [IsRepeated, Nat.mod_one]

/-- The largest such number up to a bound, or one. -/
def repetitionsUpTo (letters : Text) : Nat → Nat
  | 0 => 1
  | bound + 1 =>
      if IsRepeated (bound + 1) letters then bound + 1 else repetitionsUpTo letters bound

/-- How often a word repeats a part of itself; once for the empty word. -/
def repetitions (letters : Text) : Nat :=
  if letters = [] then 1 else repetitionsUpTo letters Command.basic.length

def instruction (word : Word) : Instruction :=
  Instruction.startingAt word.start (Command.ofCode (repetitions word.letters))
    word.letters

def tokenize (text : Text) : List Instruction :=
  text.words.map instruction

end TapeDialects.SelfRepetition
