/-
Machines that check every access and every sum.

The operations of this file do what those of the machine do, but look before
they leap: an index has to lie inside the program or the tape, and the result of
an addition, subtraction or multiplication has to fit its word.  Where a check
fails there is no result.  Numbers of cells are unsigned 64-bit words and cells
are signed ones.  Places in a program and numbers of open loops have to stay
between zero and the number of instructions, which is a word as the length of
an array in memory.
-/

import TapeDialects.Machine.Run

namespace TapeDialects

def word? (value : Int) : Option Nat :=
  if 0 ≤ value ∧ value < UInt64.size then some value.toNat else none

def signedWord? (value : Int) : Option Int :=
  if -9223372036854775808 ≤ value ∧ value ≤ 9223372036854775807 then some value else none

namespace Settings

def checkedMaximum (settings : Settings) : Option Int :=
  signedWord? (settings.variants - 1)

def checkedMinimum (settings : Settings) : Option Int :=
  if settings.signed then signedWord? (-settings.variants) else some 0

def checkedRemainder (value modulus : Int) : Option Int :=
  if 0 < modulus then some (value % modulus) else none

def checkedWrap (settings : Settings) (value : Int) : Option Int :=
  if settings.signed then do
    let minimum ← settings.checkedMinimum
    let shifted ← signedWord? (value - settings.variants)
    let modulus ← signedWord? (settings.variants * 2)
    let remainder ← checkedRemainder shifted modulus
    signedWord? (minimum + remainder)
  else
    checkedRemainder value settings.variants

def checkedClampHigh (settings : Settings) (value : Int) :
    Option (Except ExecutionError Int) := do
  let maximum ← settings.checkedMaximum
  if value ≤ maximum then
    some (.ok value)
  else if settings.wrapping then
    (settings.checkedWrap value).map Except.ok
  else
    some (.error (.valueTooHigh value maximum))

def checkedClampLow (settings : Settings) (value : Int) :
    Option (Except ExecutionError Int) := do
  let minimum ← settings.checkedMinimum
  if minimum ≤ value then
    some (.ok value)
  else if settings.wrapping then
    (settings.checkedWrap value).map Except.ok
  else
    some (.error (.valueTooLow value minimum))

end Settings

namespace Tape

def checkedCurrent (tape : Tape) : Option Int :=
  tape.cells[tape.pointer]?

def checkedWrite (value : Int) (tape : Tape) : Option Tape :=
  if inside : tape.pointer < tape.cells.size then
    some { tape with cells := tape.cells.set tape.pointer value inside }
  else
    none

def checkedMoveRight (settings : Settings) (tape : Tape) :
    Option (Outcome ExecutionError Tape) := do
  let next ← word? (tape.pointer + 1)
  if next < settings.tapeLength then
    some (.done { tape with pointer := next })
  else if settings.looped then
    some (.done { tape with pointer := 0 })
  else
    let last ← word? (settings.tapeLength - 1)
    some (.failed (.pointerTooHigh next last) tape)

def checkedMoveLeft (settings : Settings) (tape : Tape) :
    Option (Outcome ExecutionError Tape) := do
  if 0 < tape.pointer then
    let previous ← word? (tape.pointer - 1)
    some (.done { tape with pointer := previous })
  else if settings.looped then
    let last ← word? (settings.tapeLength - 1)
    some (.done { tape with pointer := last })
  else
    some (.failed .pointerTooLow tape)

def checkedStore (tape : Tape) :
    Except ExecutionError Int → Option (Outcome ExecutionError Tape)
  | .ok value => (tape.checkedWrite value).map Outcome.done
  | .error error => some (.failed error tape)

def checkedIncrement (settings : Settings) (tape : Tape) :
    Option (Outcome ExecutionError Tape) := do
  let value ← tape.checkedCurrent
  let raised ← signedWord? (value + 1)
  let clamped ← settings.checkedClampHigh raised
  tape.checkedStore clamped

def checkedDecrement (settings : Settings) (tape : Tape) :
    Option (Outcome ExecutionError Tape) := do
  let value ← tape.checkedCurrent
  let lowered ← signedWord? (value - 1)
  let clamped ← settings.checkedClampLow lowered
  tape.checkedStore clamped

def checkedStoreCharacter (settings : Settings) (character : Char) (tape : Tape) :
    Option (Outcome ExecutionError Tape) := do
  let code ← signedWord? character.toNat
  let clamped ← settings.checkedClampHigh code
  tape.checkedStore clamped

end Tape

namespace State

def checkedOnTape (act : Tape → Option (Outcome ExecutionError Tape)) (state : State) :
    Option (Outcome Fault State) := do
  let outcome ← act state.tape
  some (state.onTape fun _ => outcome)

def checkedReadCell (settings : Settings) (state : State) : Option (Outcome Fault State) :=
  match state with
  | { tape, console } =>
      match console.readLine with
      | (.ok line, console) =>
          checkedOnTape (Tape.checkedStoreCharacter settings line.inputCharacter)
            { tape, console }
      | (.error error, console) => some (.failed (.stream error) { tape, console })

def checkedInput (settings : Settings) (state : State) : Option (Outcome Fault State) :=
  match state.onConsole Console.flush with
  | .done state => state.checkedReadCell settings
  | .failed fault state => some (.failed fault state)

def checkedPerform (settings : Settings) (command : Command) (state : State) :
    Option (Outcome Fault State) :=
  match command with
  | .right => state.checkedOnTape (Tape.checkedMoveRight settings)
  | .left => state.checkedOnTape (Tape.checkedMoveLeft settings)
  | .increment => state.checkedOnTape (Tape.checkedIncrement settings)
  | .decrement => state.checkedOnTape (Tape.checkedDecrement settings)
  | .output => do
      let _ ← state.tape.checkedCurrent
      some state.output
  | .input => state.checkedInput settings
  | command => some (state.perform settings command)

end State

namespace Program

variable (program : Program)

def count? (value : Int) : Option Nat :=
  if 0 ≤ value ∧ value ≤ program.size then some value.toNat else none

def checkedDepthAfter (command : Command) (depth : Nat) : Option Nat :=
  match command with
  | .loopOpen => program.count? (depth + 1)
  | .loopClose => program.count? (depth - 1)
  | _ => some depth

def checkedDepthBefore (command : Command) (depth : Nat) : Option Nat :=
  match command with
  | .loopClose => program.count? (depth + 1)
  | .loopOpen => program.count? (depth - 1)
  | _ => some depth

def checkedExitFrom : Nat → Nat → Nat → Option Nat
  | 0, _, _ => none
  | ahead + 1, index, depth => do
      let command ← program.command? index
      if command = .stop then
        program.count? (index - 1)
      else
        let later ← program.checkedDepthAfter command depth
        if later = 0 then
          some index
        else
          let next ← program.count? (index + 1)
          checkedExitFrom ahead next later

def checkedLoopExit (index : Nat) : Option Nat :=
  program.checkedExitFrom (program.size - index) index 0

/-- The search backward; its index cannot go below that of the first instruction. -/
def checkedEntryFrom : Nat → Nat → Option (Option Nat)
  | index, depth => do
      let command ← program.command? index
      if command = .start then
        some none
      else
        let earlier ← program.checkedDepthBefore command depth
        if earlier = 0 then
          some (some index)
        else
          match index with
          | 0 => none
          | index + 1 => checkedEntryFrom index earlier

def checkedRepeated : Nat → Option (Option Command)
  | 0 => some none
  | index + 1 => do
      let command ← program.command? index
      if command = .again then
        checkedRepeated index
      else if command = .start then
        some none
      else
        some (some command)

def checkedEffective (index : Nat) : Option (Except Fault Command) := do
  let command ← program.command? index
  if command = .again then
    let repeated ← program.checkedRepeated index
    match repeated with
    | some command => some (.ok command)
    | none => some (.error (.execution .noPreviousCommand))
  else
    some (.ok command)

end Program

namespace Machine

def checkedCarryOut (settings : Settings) (program : Program) (command : Command)
    (machine : Machine) : Option (Outcome Fault Machine) :=
  match command with
  | .stop => some (.done { machine with running := false })
  | .loopOpen => do
      let value ← machine.state.tape.checkedCurrent
      if value = 0 then
        let cursor ← program.checkedLoopExit machine.cursor
        some (.done { machine with cursor })
      else
        some (.done machine)
  | .loopClose => do
      let value ← machine.state.tape.checkedCurrent
      if value = 0 then
        some (.done machine)
      else
        let entry ← program.checkedEntryFrom machine.cursor 0
        match entry with
        | some cursor => some (.done { machine with cursor })
        | none => some (.failed (.execution .unmatchedLoopClose) machine)
  | command => do
      let outcome ← machine.state.checkedPerform settings command
      some (outcome.map fun state => { machine with state })

def checkedStep (settings : Settings) (program : Program) (machine : Machine) :
    Option (Outcome Fault Machine) := do
  let effect ← program.checkedEffective machine.cursor
  match effect with
  | .error fault => some (.failed fault machine)
  | .ok command =>
      let outcome ← machine.checkedCarryOut settings program command
      match outcome with
      | .failed fault later => some (.failed fault later)
      | .done later =>
          let cursor ← program.count? (later.cursor + 1)
          some (.done { later with cursor })

def checkedReport (program : Program) (error : ExecutionError) (machine : Machine) :
    Option (Ending × Machine) :=
  match onConsole (fun console => console.breakLine.bind Console.flush)
      { machine with running := false } with
  | .failed streamError later => some (.interrupted streamError, later)
  | .done later => do
      let instruction ← program.instruction? later.cursor
      match Diagnostic.of? program.text instruction.lexeme instruction.span
          later.state.tape.pointer error.message with
      | some diagnostic => some (.reported diagnostic, later)
      | none => some (.astray, later)

/-- The outer option is the checks', the inner one is the fuel's. -/
def checkedRunFor (settings : Settings) (program : Program) :
    Nat → Machine → Option (Option (Ending × Machine))
  | 0, _ => some none
  | fuel + 1, machine =>
      if machine.running then do
        let outcome ← machine.checkedStep settings program
        match outcome with
        | .done later => checkedRunFor settings program fuel later
        | .failed (.execution error) later => (later.checkedReport program error).map some
        | .failed (.stream error) later => some (some (.interrupted error, later))
        | .failed .offProgram later => some (some (.astray, later))
      else
        some (some machine.finish)

def checkedRun (settings : Settings) (program : Program) (fuel : Nat) (machine : Machine) :
    Option (Option (Ending × Machine)) :=
  if machine.running then do
    let _ ← program.count? (program.size - 2)
    machine.checkedRunFor settings program fuel
  else
    some (some (.refused, machine))

end Machine
end TapeDialects
