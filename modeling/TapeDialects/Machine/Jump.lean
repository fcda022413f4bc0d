/-
Where loops and repetitions of a program lead.

A loop command looks for its partner from its own place on, counting the loop
commands of both kinds on the way.  A command that is repeated counts from the
place of the repetition, where no loop command stands: its search ends at once.
-/

import TapeDialects.Machine.Fault
import TapeDialects.Program

namespace TapeDialects

namespace Command

/-- The number of open loops after a command, read forward. -/
def depthAfter : Command → Nat → Nat
  | loopOpen, depth => depth + 1
  | loopClose, depth => depth - 1
  | _, depth => depth

/-- The number of closed loops before a command, read backward. -/
def depthBefore : Command → Nat → Nat
  | loopClose, depth => depth + 1
  | loopOpen, depth => depth - 1
  | _, depth => depth

end Command

namespace Program

/-- The first index from a given one on after which no loop is open, among so
many instructions; if a mark of the stop comes first, the index before it. -/
def exitFrom (program : Program) : Nat → Nat → Nat → Nat
  | 0, index, _ => index - 1
  | ahead + 1, index, depth =>
      match program.command? index with
      | none | some .stop => index - 1
      | some command =>
          let later := command.depthAfter depth
          if later = 0 then index else program.exitFrom ahead (index + 1) later

/-- Where a loop that is skipped leads. -/
def loopExit (program : Program) (index : Nat) : Nat :=
  program.exitFrom (program.size - index) index 0

/-- The last index up to a given one before which no loop is closed, if no mark
of the start comes first. -/
def entryFrom? (program : Program) : Nat → Nat → Option Nat
  | 0, _ => none
  | index + 1, depth =>
      match program.command? (index + 1) with
      | none | some .start => none
      | some command =>
          let earlier := command.depthBefore depth
          if earlier = 0 then some (index + 1) else program.entryFrom? index earlier

/-- Where a loop that goes on leads. -/
def loopEntry? (program : Program) (index : Nat) : Option Nat :=
  program.entryFrom? index 0

/-- The nearest command before an index that is not a repetition itself, if no
mark of the start comes first. -/
def repeated? (program : Program) : Nat → Option Command
  | 0 => none
  | index + 1 =>
      match program.command? index with
      | none | some .start => none
      | some .again => program.repeated? index
      | some command => some command

/-- The command that takes effect at an index. -/
def effective (program : Program) (index : Nat) : Except Fault Command :=
  match program.command? index with
  | none => .error .offProgram
  | some .again =>
      match program.repeated? index with
      | some command => .ok command
      | none => .error (.execution .noPreviousCommand)
  | some command => .ok command

end Program
end TapeDialects
