/-
The tape: cells, and the pointer to the one that is current.
-/

import TapeDialects.Machine.Outcome
import TapeDialects.Machine.Settings

namespace TapeDialects

structure Tape where
  cells : Array Int
  pointer : Nat
  deriving DecidableEq

namespace Tape

def blank (length : Nat) : Tape :=
  { cells := Array.replicate length 0, pointer := 0 }

def current (tape : Tape) : Int :=
  tape.cells.getD tape.pointer 0

theorem current_blank (length : Nat) : (blank length).current = 0 := by
  simp only [current, blank, Array.getD_eq_getD_getElem?, Array.getElem?_replicate]
  split <;> rfl

def write (value : Int) (tape : Tape) : Tape :=
  { tape with cells := tape.cells.setIfInBounds tape.pointer value }

def moveRight (settings : Settings) (tape : Tape) : Outcome ExecutionError Tape :=
  if tape.pointer + 1 < settings.tapeLength then
    .done { tape with pointer := tape.pointer + 1 }
  else if settings.looped then
    .done { tape with pointer := 0 }
  else
    .failed (.pointerTooHigh (tape.pointer + 1) (settings.tapeLength - 1)) tape

def moveLeft (settings : Settings) (tape : Tape) : Outcome ExecutionError Tape :=
  if 0 < tape.pointer then
    .done { tape with pointer := tape.pointer - 1 }
  else if settings.looped then
    .done { tape with pointer := settings.tapeLength - 1 }
  else
    .failed .pointerTooLow tape

def store (tape : Tape) : Except ExecutionError Int → Outcome ExecutionError Tape
  | .ok value => .done (tape.write value)
  | .error error => .failed error tape

def increment (settings : Settings) (tape : Tape) : Outcome ExecutionError Tape :=
  tape.store (settings.clampHigh (tape.current + 1))

def decrement (settings : Settings) (tape : Tape) : Outcome ExecutionError Tape :=
  tape.store (settings.clampLow (tape.current - 1))

def storeCharacter (settings : Settings) (character : Char) (tape : Tape) :
    Outcome ExecutionError Tape :=
  tape.store (settings.clampHigh character.toNat)

/-- The character that the current cell stands for, if there is one below the
bound of the values that can be written. -/
def character? (tape : Tape) : Option Char :=
  let value := tape.current
  if 0 ≤ value ∧ value < unicodeBound ∧ value.toNat.isValidChar then
    some (Char.ofNat value.toNat)
  else
    none

end Tape
end TapeDialects
