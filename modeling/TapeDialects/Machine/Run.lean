/-
Runs: steps until the program stops or fails.

An execution error stops the machine; the report of it first ends the line that
the output is in the middle of, and flushes, which may fail in turn.  A stream
error of a step ends the run too, but leaves the machine running, so that it
can be run again from the same instruction.
-/

import TapeDialects.Machine.Step
import TapeDialects.Report.Diagnostic

namespace TapeDialects

inductive Ending where
  | stopped
  | reported (diagnostic : Diagnostic)
  | interrupted (error : StreamError)
  /-- The machine was not running to begin with. -/
  | refused
  /-- The cursor is behind the last instruction, or the failing instruction has
  no place in the text. -/
  | astray
  deriving DecidableEq

def Ending.refusal : String := "Program is already ended."

namespace Machine

def diagnostic? (program : Program) (error : ExecutionError) (machine : Machine) :
    Option Diagnostic :=
  (program.instruction? machine.cursor).bind fun instruction =>
    Diagnostic.of? program.text instruction.lexeme instruction.span
      machine.state.tape.pointer error.message

def onConsole (act : Console → Outcome StreamError Console) (machine : Machine) :
    Outcome StreamError Machine :=
  match machine with
  | { state := { tape, console }, cursor, running } =>
      (act console).map fun console => { state := { tape, console }, cursor, running }

def report (program : Program) (error : ExecutionError) (machine : Machine) :
    Ending × Machine :=
  let stopped := { machine with running := false }
  match stopped.onConsole fun console => console.breakLine.bind Console.flush with
  | .failed streamError later => (.interrupted streamError, later)
  | .done later =>
      match later.diagnostic? program error with
      | some diagnostic => (.reported diagnostic, later)
      | none => (.astray, later)

def finish (machine : Machine) : Ending × Machine :=
  match machine.onConsole Console.flush with
  | .done later => (.stopped, later)
  | .failed error later => (.interrupted error, later)

/-- Run with so much fuel, of which each step takes one and the end another
one.  There is no result if the fuel gives out. -/
def runFor (settings : Settings) (program : Program) :
    Nat → Machine → Option (Ending × Machine)
  | 0, _ => none
  | fuel + 1, machine =>
      if machine.running then
        match machine.step settings program with
        | .done later => runFor settings program fuel later
        | .failed (.execution error) later => some (later.report program error)
        | .failed (.stream error) later => some (.interrupted error, later)
        | .failed .offProgram later => some (.astray, later)
      else
        some machine.finish

def run (settings : Settings) (program : Program) (fuel : Nat) (machine : Machine) :
    Option (Ending × Machine) :=
  if machine.running then
    runFor settings program fuel machine
  else
    some (.refused, machine)

end Machine
end TapeDialects
