/-
Programs that a run cannot tell apart.

What a step does depends on the program by the command that takes effect at the
cursor and by the partners of loop commands.  Two programs take the same course
if they agree on these at every index.  The searches for partners see only marks
and brackets, so commands without either may stand in each other's place.
-/

import TapeDialects.Proofs.Loop.Search

namespace TapeDialects

namespace Command

/-- A command that the searches for partners pass over. -/
def Neutral (command : Command) : Prop :=
  (command ≠ .start ∧ command ≠ .stop) ∧ command ≠ .loopOpen ∧ command ≠ .loopClose

instance (command : Command) : Decidable command.Neutral :=
  inferInstanceAs (Decidable (_ ∧ _))

variable {command : Command}

theorem Neutral.depthAfter_eq (neutral : command.Neutral) (depth : Nat) :
    command.depthAfter depth = depth := by
  obtain ⟨-, unopening, unclosing⟩ := neutral
  cases command <;> first | rfl | exact absurd rfl unopening | exact absurd rfl unclosing

theorem Neutral.depthBefore_eq (neutral : command.Neutral) (depth : Nat) :
    command.depthBefore depth = depth := by
  obtain ⟨-, unopening, unclosing⟩ := neutral
  cases command <;> first | rfl | exact absurd rfl unopening | exact absurd rfl unclosing

end Command

namespace Program

variable {program other : Program}

structure Similar (program other : Program) : Prop where
  size : program.size = other.size
  commands : ∀ index, program.command? index = other.command? index ∨
    ∃ command another, (program.command? index = some command ∧ command.Neutral) ∧
      other.command? index = some another ∧ another.Neutral

structure SameCourse (program other : Program) : Prop where
  effective : ∀ index, program.effective index = other.effective index
  loopExit : ∀ index, program.loopExit index = other.loopExit index
  loopEntry? : ∀ index, program.loopEntry? index = other.loopEntry? index

namespace Similar

theorem exitFrom_eq (similar : program.Similar other) (ahead index depth : Nat) :
    program.exitFrom ahead index depth = other.exitFrom ahead index depth := by
  induction ahead generalizing index depth with
  | zero => rfl
  | succ ahead ih =>
      rcases similar.commands index with
        same | ⟨command, another, ⟨found, neutral⟩, otherFound, otherNeutral⟩
      · cases otherFound : other.command? index with
        | none => rw [exitFrom, exitFrom, same, otherFound]
        | some command =>
            rw [otherFound] at same
            by_cases marked : command = .stop
            · subst marked
              rw [exitFrom_succ_of_stop same, exitFrom_succ_of_stop otherFound]
            · rw [exitFrom_succ same marked, exitFrom_succ otherFound marked, ih]
      · rw [exitFrom_succ found neutral.1.2, exitFrom_succ otherFound otherNeutral.1.2,
          neutral.depthAfter_eq, otherNeutral.depthAfter_eq, ih]

theorem entryFrom?_eq (similar : program.Similar other) (index depth : Nat) :
    program.entryFrom? index depth = other.entryFrom? index depth := by
  induction index generalizing depth with
  | zero => rfl
  | succ index ih =>
      rcases similar.commands (index + 1) with
        same | ⟨command, another, ⟨found, neutral⟩, otherFound, otherNeutral⟩
      · cases otherFound : other.command? (index + 1) with
        | none => rw [entryFrom?, entryFrom?, same, otherFound]
        | some command =>
            rw [otherFound] at same
            by_cases marked : command = .start
            · subst marked
              rw [entryFrom?_succ_of_start same, entryFrom?_succ_of_start otherFound]
            · rw [entryFrom?_succ same marked, entryFrom?_succ otherFound marked, ih]
      · rw [entryFrom?_succ found neutral.1.1, entryFrom?_succ otherFound otherNeutral.1.1,
          neutral.depthBefore_eq, otherNeutral.depthBefore_eq, ih]

theorem sameCourse (similar : program.Similar other)
    (effective : ∀ index, program.effective index = other.effective index) :
    program.SameCourse other := by
  refine { effective, loopExit := ?loopExit, loopEntry? := ?loopEntry }
  case loopExit =>
      intro index
      rw [loopExit, loopExit, similar.size, similar.exitFrom_eq]
  case loopEntry =>
      intro index
      exact similar.entryFrom?_eq index 0

end Similar

/-! ### Programs with the same commands -/

theorem size_eq_of_commands_eq (same : program.commands = other.commands) :
    program.size = other.size := by
  rw [← length_instructions, ← length_instructions,
    ← List.length_map Instruction.command, ← List.length_map Instruction.command]
  exact congrArg List.length same

theorem command?_eq_of_commands_eq (same : program.commands = other.commands)
    (index : Nat) : program.command? index = other.command? index := by
  rw [command?_eq_getElem?, command?_eq_getElem?, same]

theorem repeated?_eq_of_commands_eq (same : program.commands = other.commands)
    (index : Nat) : program.repeated? index = other.repeated? index := by
  induction index with
  | zero => rfl
  | succ index ih =>
      rw [repeated?, repeated?, command?_eq_of_commands_eq same, ih]

theorem sameCourse_of_commands_eq (same : program.commands = other.commands) :
    program.SameCourse other := by
  have similar : program.Similar other :=
    { size := size_eq_of_commands_eq same
      commands := fun index => Or.inl (command?_eq_of_commands_eq same index) }
  apply similar.sameCourse
  intro index
  rw [effective, effective, command?_eq_of_commands_eq same,
    repeated?_eq_of_commands_eq same]

end Program
end TapeDialects
