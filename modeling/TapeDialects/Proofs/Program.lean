/-
Where the marks of a program stand, and what stands between them.
-/

import TapeDialects.Program

namespace TapeDialects

def Unmarked (instructions : List Instruction) : Prop :=
  ∀ instruction ∈ instructions, instruction.command ≠ .start ∧ instruction.command ≠ .stop

instance (instructions : List Instruction) : Decidable (Unmarked instructions) :=
  inferInstanceAs (Decidable (∀ instruction ∈ instructions, _ ∧ _))

namespace Program

section

variable {program : Program} {index : Nat} {command : Command}

theorem command?_last (program : Program) :
    program.command? (program.length + 1) = some .stop := by
  simp [command?, instruction?, length, stopMark]

theorem exists_instruction?_of_lt (program : Program) (inside : index < program.size) :
    ∃ instruction, program.instruction? index = some instruction := by
  have known := (command?_isSome_iff program index).mpr inside
  rw [command?, Option.isSome_map] at known
  exact Option.isSome_iff_exists.mp known

theorem exists_command?_of_lt (program : Program) (inside : index < program.size) :
    ∃ command, program.command? index = some command :=
  Option.isSome_iff_exists.mp ((command?_isSome_iff program index).mpr inside)

theorem lt_size_of_command? (found : program.command? index = some command) :
    index < program.size :=
  (command?_isSome_iff program index).mp (by rw [found]; rfl)

theorem pos_of_ne_start (found : program.command? index = some command)
    (unstarting : command ≠ .start) : 0 < index := by
  rcases Nat.eq_zero_or_pos index with zero | positive
  · rw [zero, command?_zero] at found
    exact absurd (Option.some.inj found).symm unstarting
  · exact positive

theorem succ_lt_size_of_ne_stop (found : program.command? index = some command)
    (unstopping : command ≠ .stop) : index + 1 < program.size := by
  have inside := lt_size_of_command? found
  have sized : program.size = program.length + 2 := rfl
  by_cases last : index = program.length + 1
  · rw [last, command?_last] at found
    exact absurd (Option.some.inj found).symm unstopping
  · omega

end

variable {text : Text} {instructions : List Instruction}

theorem size_ofInstructions (text : Text) (instructions : List Instruction) :
    (ofInstructions text instructions).size = instructions.length + 2 := by
  rw [size, length, ofInstructions, List.size_toArray]

theorem instruction?_succ {index : Nat} (inside : index < instructions.length) :
    (ofInstructions text instructions).instruction? (index + 1) =
      some instructions[index] := by
  simp [instruction?, ofInstructions, inside]

theorem command?_succ_eq_some_iff {index : Nat} (inside : index < instructions.length)
    {command : Command} :
    (ofInstructions text instructions).command? (index + 1) = some command ↔
      instructions[index].command = command := by
  simp [command?, instruction?_succ inside]

end Program

theorem Unmarked.command?_ne {instructions : List Instruction}
    (unmarked : Unmarked instructions) (text : Text) {index : Nat}
    (behindStart : 0 < index) (beforeStop : index ≤ instructions.length) :
    (Program.ofInstructions text instructions).command? index ≠ some .start ∧
      (Program.ofInstructions text instructions).command? index ≠ some .stop := by
  obtain ⟨index, rfl⟩ : ∃ before, index = before + 1 := ⟨index - 1, by omega⟩
  have found := unmarked instructions[index] (List.getElem_mem beforeStop)
  rwa [ne_eq, ne_eq, Program.command?_succ_eq_some_iff beforeStop,
    Program.command?_succ_eq_some_iff beforeStop]

end TapeDialects
