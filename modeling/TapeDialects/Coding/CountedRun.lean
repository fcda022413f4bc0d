/-
Commands given by counting marks.

A run is what stands from a marker to the next terminator, characters that are
neither included.  The number of markers in it is the code of its command.  With
cycles a run stands for one instruction per started round of the basic
commands, all with the same place and lexeme; otherwise it stands for one.  A
run that is never closed gives nothing.
-/

import TapeDialects.Instruction

namespace TapeDialects

structure RunFormat where
  marker : Char
  terminator : Char
  cycles : Bool
  deriving DecidableEq

/-- A run that is not closed yet, with its characters in reverse. -/
structure OpenRun where
  start : Nat
  markers : Nat
  reversed : Text
  deriving DecidableEq

namespace OpenRun

def mark (position : Nat) (marker : Char) : Option OpenRun → OpenRun
  | none => { start := position, markers := 1, reversed := [marker] }
  | some run =>
      { run with markers := run.markers + 1, reversed := marker :: run.reversed }

def pass (character : Char) (run : OpenRun) : OpenRun :=
  { run with reversed := character :: run.reversed }

def rounds (cycles : Bool) (run : OpenRun) : Nat :=
  if cycles then (run.markers - 1) / Command.basic.length + 1 else 1

def close (format : RunFormat) (run : OpenRun) : List Instruction :=
  List.replicate (run.rounds format.cycles)
    (Instruction.startingAt run.start (Command.ofCode run.markers)
      (run.reversed.reverse ++ [format.terminator]))

end OpenRun

namespace RunFormat

def tokenizeFrom (format : RunFormat) (position : Nat) (run : Option OpenRun) :
    Text → List Instruction
  | [] => []
  | character :: rest =>
      let later := position + character.utf8Size
      if character = format.marker then
        tokenizeFrom format later (some (OpenRun.mark position character run)) rest
      else if character = format.terminator then
        (run.map (OpenRun.close format)).getD [] ++ tokenizeFrom format later none rest
      else
        tokenizeFrom format later (run.map (OpenRun.pass character)) rest

def tokenize (format : RunFormat) (text : Text) : List Instruction :=
  format.tokenizeFrom 0 none text

end RunFormat
end TapeDialects
