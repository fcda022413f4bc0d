/-
What can go wrong while a program runs.

An execution error is a failure of the program itself and is reported with the
place it happened at.  A stream error comes from the input or the output.
-/

namespace TapeDialects

inductive ExecutionError where
  | pointerTooHigh (pointer last : Nat)
  | pointerTooLow
  | valueTooHigh (value maximum : Int)
  | valueTooLow (value minimum : Int)
  | outOfUnicodeRange (value : Int)
  | unmatchedLoopClose
  | noPreviousCommand
  deriving DecidableEq

/-- The bound, itself not included, of the values that can be written. -/
def unicodeBound : Int := 0x10FFFF

def ExecutionError.message : ExecutionError → String
  | pointerTooHigh pointer last => s!"tape pointer out of range ({pointer} > {last})"
  | pointerTooLow => "tape pointer out of range (-1 < 0)"
  | valueTooHigh value maximum => s!"value is greater than maximum ({value} > {maximum})"
  | valueTooLow value minimum => s!"value is less than minimum ({value} < {minimum})"
  | outOfUnicodeRange value =>
      s!"value is out of range of unicode ({value} <> [0:{unicodeBound}])"
  | unmatchedLoopClose => "unexpected end of loop"
  | noPreviousCommand => "no previous operator found"

inductive StreamError where
  | writeFailed
  | flushFailed
  | readFailed
  | invalidText
  deriving DecidableEq

def StreamError.message : StreamError → String
  | writeFailed => "write failed"
  | flushFailed => "flush failed"
  | readFailed => "read failed"
  | invalidText => "stream did not contain valid UTF-8"

inductive Fault where
  | execution (error : ExecutionError)
  | stream (error : StreamError)
  /-- The cursor is behind the last instruction. -/
  | offProgram
  deriving DecidableEq

end TapeDialects
