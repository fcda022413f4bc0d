/-
Machines: a state together with a cursor into a program.

A step carries out the command that takes effect at the cursor and moves the
cursor on.  A step that fails leaves the cursor where it is, so that the next
step tries the same command again.  Steps do not ask whether the machine is
running.
-/

import TapeDialects.Machine.Jump
import TapeDialects.Machine.State

namespace TapeDialects

structure Machine where
  state : State
  cursor : Nat
  running : Bool
  deriving DecidableEq

namespace Machine

def initial (settings : Settings) (source : Source) (sink : Sink) : Machine :=
  { state :=
      { tape := Tape.blank settings.tapeLength
        console := Console.ofStreams source sink }
    cursor := 0
    running := true }

/-- Carry out a command at the cursor.  The loop commands move the cursor to
their partner, from where the step moves it on. -/
def carryOut (settings : Settings) (program : Program) (command : Command)
    (machine : Machine) : Outcome Fault Machine :=
  match machine with
  | { state, cursor, running } =>
      match command with
      | .stop => .done { state, cursor, running := false }
      | .loopOpen =>
          if state.tape.current = 0 then
            .done { state, cursor := program.loopExit cursor, running }
          else
            .done { state, cursor, running }
      | .loopClose =>
          if state.tape.current = 0 then
            .done { state, cursor, running }
          else
            match program.loopEntry? cursor with
            | some cursor => .done { state, cursor, running }
            | none =>
                .failed (.execution .unmatchedLoopClose) { state, cursor, running }
      | command =>
          (state.perform settings command).map fun state => { state, cursor, running }

def advance (machine : Machine) : Machine :=
  { machine with cursor := machine.cursor + 1 }

def step (settings : Settings) (program : Program) (machine : Machine) :
    Outcome Fault Machine :=
  match program.effective machine.cursor with
  | .error fault => .failed fault machine
  | .ok command =>
      (machine.carryOut settings program command).bind fun machine =>
        .done machine.advance

end Machine
end TapeDialects
