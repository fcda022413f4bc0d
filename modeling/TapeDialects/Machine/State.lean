/-
The state that the commands without jumps act on.
-/

import TapeDialects.Command
import TapeDialects.Machine.Console
import TapeDialects.Machine.Tape
import TapeDialects.Text.Line

namespace TapeDialects

structure State where
  tape : Tape
  console : Console
  deriving DecidableEq

namespace State

def onTape (act : Tape → Outcome ExecutionError Tape) (state : State) :
    Outcome Fault State :=
  match state with
  | { tape, console } =>
      ((act tape).mapError Fault.execution).map fun tape => { tape, console }

def onConsole (act : Console → Outcome StreamError Console) (state : State) :
    Outcome Fault State :=
  match state with
  | { tape, console } =>
      ((act console).mapError Fault.stream).map fun console => { tape, console }

def output (state : State) : Outcome Fault State :=
  match state.tape.character? with
  | some character => state.onConsole (Console.put character)
  | none =>
      .failed (.execution (.outOfUnicodeRange state.tape.current)) state

def readCell (settings : Settings) (state : State) : Outcome Fault State :=
  match state with
  | { tape, console } =>
      match console.readLine with
      | (.ok line, console) =>
          onTape (Tape.storeCharacter settings line.inputCharacter) { tape, console }
      | (.error error, console) => .failed (.stream error) { tape, console }

def input (settings : Settings) (state : State) : Outcome Fault State :=
  (state.onConsole Console.flush).bind (readCell settings)

/-- The effect of a command on tape and console.  Commands that only direct the
run have none. -/
def perform (settings : Settings) (command : Command) (state : State) :
    Outcome Fault State :=
  match command with
  | .right => state.onTape (Tape.moveRight settings)
  | .left => state.onTape (Tape.moveLeft settings)
  | .increment => state.onTape (Tape.increment settings)
  | .decrement => state.onTape (Tape.decrement settings)
  | .output => state.output
  | .input => state.input settings
  | .giveFishfood | .giveBanana =>
      match command.message? with
      | some message => state.onConsole (Console.say message)
      | none => .done state
  | .start | .stop | .loopOpen | .loopClose | .again => .done state

end State
end TapeDialects
