/-
Instructions and words of a text that stands behind another one: they are the same,
and farther on by the size of the text in front.
-/

import TapeDialects.Instruction
import TapeDialects.Text.Word

namespace TapeDialects

def Span.movedBy (offset : Nat) (span : Span) : Span :=
  { start := offset + span.start, stop := offset + span.stop }

def Word.movedBy (offset : Nat) (word : Word) : Word :=
  { word with start := offset + word.start }

namespace Instruction

def movedBy (offset : Nat) (instruction : Instruction) : Instruction :=
  { instruction with span := instruction.span.movedBy offset }

theorem startingAt_add (offset position : Nat) (command : Command) (lexeme : Text) :
    startingAt (offset + position) command lexeme =
      (startingAt position command lexeme).movedBy offset := by
  unfold startingAt movedBy Span.movedBy
  rw [Nat.add_assoc]

theorem map_command_map_movedBy (offset : Nat) (instructions : List Instruction) :
    (instructions.map (movedBy offset)).map command = instructions.map command := by
  rw [List.map_map]
  rfl

end Instruction
end TapeDialects
