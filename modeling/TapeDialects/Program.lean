/-
Programs: the instructions of a text between a mark of the start and a mark of
the stop.  The marks are no part of the stored instructions, so every program
has them, whatever the instructions in between are.
-/

import TapeDialects.Dialect.Basic

namespace TapeDialects

structure Program where
  text : Text
  body : Array Instruction

namespace Program

def ofInstructions (text : Text) (instructions : List Instruction) : Program :=
  { text, body := instructions.toArray }

def ofText (dialect : Dialect) (text : Text) : Program :=
  ofInstructions text (dialect.tokenize text)

def startMark : Instruction :=
  { command := .start
    lexeme := "~start~".toList
    span := { start := 0, stop := 0 } }

def stopMark (text : Text) : Instruction :=
  { command := .stop
    lexeme := "~end~".toList
    span := { start := text.size, stop := text.size } }

def instructions (program : Program) : List Instruction :=
  startMark :: program.body.toList ++ [stopMark program.text]

def commands (program : Program) : List Command :=
  program.instructions.map Instruction.command

/-- The number of instructions, the marks not included. -/
def length (program : Program) : Nat :=
  program.body.size

/-- The number of instructions, the marks included. -/
def size (program : Program) : Nat :=
  program.length + 2

/-- The instruction at an index, counted from the mark of the start. -/
def instruction? (program : Program) : Nat → Option Instruction
  | 0 => some startMark
  | index + 1 =>
      if h : index < program.body.size then
        some program.body[index]
      else if index = program.body.size then
        some (stopMark program.text)
      else
        none

def command? (program : Program) (index : Nat) : Option Command :=
  (program.instruction? index).map Instruction.command

theorem length_instructions (program : Program) :
    program.instructions.length = program.size := by
  simp [instructions, size, length]

theorem instruction?_eq_getElem? (program : Program) (index : Nat) :
    program.instruction? index = program.instructions[index]? := by
  cases index with
  | zero => rfl
  | succ index =>
      simp only [instruction?, instructions, List.cons_append, List.getElem?_cons_succ]
      split
      · next inside =>
          rw [List.getElem?_append_left (by simpa using inside)]
          simp [inside]
      · next outside =>
          rw [List.getElem?_append_right (by simpa using outside)]
          simp only [Array.length_toList]
          split
          · next last => simp [last]
          · next beyond =>
              have positive : index - program.body.size ≠ 0 := by omega
              cases difference : index - program.body.size with
              | zero => exact absurd difference positive
              | succ distance => rfl

theorem command?_eq_getElem? (program : Program) (index : Nat) :
    program.command? index = program.commands[index]? := by
  simp [command?, commands, instruction?_eq_getElem?]

theorem command?_zero (program : Program) : program.command? 0 = some .start := rfl

theorem command?_isSome_iff (program : Program) (index : Nat) :
    (program.command? index).isSome = true ↔ index < program.size := by
  simp [command?_eq_getElem?, commands, length_instructions]

end Program
end TapeDialects
