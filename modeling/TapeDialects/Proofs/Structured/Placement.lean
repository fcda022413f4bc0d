/-
Blocks inside programs.

Where the commands of a block stand in a program, the program is at one height
before and behind them and never lower in between.  So the brackets around the
body of a loop are partners.
-/

import TapeDialects.Proofs.Loop.Search
import TapeDialects.Proofs.Structured.Block

namespace TapeDialects

namespace Program

/-- The commands stand in the program from an offset on. -/
def HoldsAt (program : Program) (offset : Nat) (commands : List Command) : Prop :=
  ∀ index command, commands[index]? = some command →
    program.command? (offset + index) = some command

variable {program : Program} {offset : Nat}

theorem holdsAt_cons {command : Command} {rest : List Command}
    (holds : program.HoldsAt offset (command :: rest)) :
    program.command? offset = some command ∧ program.HoldsAt (offset + 1) rest := by
  constructor
  · exact holds 0 command rfl
  · intro index later found
    have shifted := holds (index + 1) later found
    rwa [Nat.add_comm index 1, ← Nat.add_assoc] at shifted

theorem holdsAt_append {front back : List Command}
    (holds : program.HoldsAt offset (front ++ back)) :
    program.HoldsAt offset front ∧ program.HoldsAt (offset + front.length) back := by
  constructor
  · intro index command found
    have inside := (List.getElem?_eq_some_iff.mp found).1
    apply holds
    rw [List.getElem?_append_left inside]
    exact found
  · intro index command found
    rw [Nat.add_assoc]
    apply holds
    rw [List.getElem?_append_right (Nat.le_add_right _ _), Nat.add_sub_cancel_left]
    exact found

theorem holdsAt_act {action : Action} {rest : Block}
    (holds : program.HoldsAt offset (Block.act action rest).commands) :
    program.command? offset = some action.command ∧
      program.HoldsAt (offset + 1) rest.commands :=
  holdsAt_cons holds

theorem holdsAt_loop {body rest : Block}
    (holds : program.HoldsAt offset (Block.loop body rest).commands) :
    program.command? offset = some .loopOpen ∧
      program.HoldsAt (offset + 1) body.commands ∧
      program.command? (offset + 1 + body.length) = some .loopClose ∧
      program.HoldsAt (offset + 1 + body.length + 1) rest.commands := by
  obtain ⟨opens, inside⟩ := holdsAt_cons holds
  obtain ⟨bodyHolds, behind⟩ := holdsAt_append inside
  obtain ⟨closes, restHolds⟩ := holdsAt_cons behind
  exact ⟨opens, bodyHolds, closes, restHolds⟩

theorem height_of_holdsAt (block : Block) :
    ∀ offset, program.HoldsAt offset block.commands →
      program.height (offset + block.length) = program.height offset ∧
      ∀ index, offset ≤ index → index ≤ offset + block.length →
        program.height offset ≤ program.height index := by
  induction block with
  | done =>
      intro offset holds
      refine ⟨rfl, ?_⟩
      intro index later early
      rw [Block.length_done] at early
      have same : index = offset := by omega
      subst same
      exact Int.le_refl _
  | act action rest ih =>
      intro offset holds
      obtain ⟨found, restHolds⟩ := holdsAt_act holds
      obtain ⟨level, above⟩ := ih (offset + 1) restHolds
      have flat := height_succ found
      have still : action.command.rise = 0 := by cases action <;> rfl
      rw [still] at flat
      rw [Block.length_act]
      constructor
      · rw [← Nat.add_assoc, Nat.add_right_comm, level]
        omega
      · intro index later early
        rcases Nat.eq_or_lt_of_le later with same | behind
        · subst same
          exact Int.le_refl _
        · have high := above index behind (by omega)
          omega
  | loop body rest ihBody ihRest =>
      intro offset holds
      obtain ⟨opens, bodyHolds, closes, restHolds⟩ := holdsAt_loop holds
      obtain ⟨bodyLevel, bodyAbove⟩ := ihBody (offset + 1) bodyHolds
      obtain ⟨restLevel, restAbove⟩ := ihRest _ restHolds
      have climbs := height_succ opens
      have falls := height_succ closes
      simp only [Command.rise] at climbs falls
      rw [Block.length_loop]
      have whole : offset + (body.length + rest.length + 2) =
          offset + 1 + body.length + 1 + rest.length := by omega
      rw [whole]
      constructor
      · omega
      · intro index later early
        by_cases before : index = offset
        · subst before
          exact Int.le_refl _
        · by_cases inBody : index ≤ offset + 1 + body.length
          · have high := bodyAbove index (by omega) inBody
            omega
          · have high := restAbove index (by omega) early
            omega

theorem partners_of_holdsAt {body rest : Block}
    (holds : program.HoldsAt offset (Block.loop body rest).commands) :
    program.Partners offset (offset + 1 + body.length) := by
  obtain ⟨opens, bodyHolds, closes, restHolds⟩ := holdsAt_loop holds
  obtain ⟨level, above⟩ := height_of_holdsAt body _ bodyHolds
  have climbs := height_succ opens
  have falls := height_succ closes
  simp only [Command.rise] at climbs falls
  refine
    { ordered := by omega
      inside := lt_size_of_command? closes
      level := by omega
      above := ?_ }
  intro index later early
  have high := above index later early
  omega

theorem unmarked_of_holdsAt {block : Block}
    (holds : program.HoldsAt offset block.commands) {place : Nat} (later : offset ≤ place)
    (early : place < offset + block.length) :
    program.command? place ≠ some .start ∧ program.command? place ≠ some .stop := by
  obtain ⟨index, rfl⟩ := Nat.exists_eq_add_of_le later
  have inside : index < block.commands.length := Nat.add_lt_add_iff_left.mp early
  have found := holds index _ (List.getElem?_eq_getElem inside)
  have unmarked := block.commands_unmarked _ (List.getElem_mem inside)
  rw [found]
  exact ⟨fun same => unmarked.1 (Option.some.inj same),
    fun same => unmarked.2 (Option.some.inj same)⟩

theorem jumps_of_holdsAt {body rest : Block}
    (holds : program.HoldsAt offset (Block.loop body rest).commands) :
    program.loopExit offset = offset + 1 + body.length ∧
      program.loopEntry? (offset + 1 + body.length) = some offset := by
  have partners := partners_of_holdsAt holds
  constructor
  · apply loopExit_eq_of_partners partners
    intro place later early
    exact (unmarked_of_holdsAt holds later (by rw [Block.length_loop]; omega)).2
  · apply loopEntry?_eq_of_partners partners
    intro place later early
    exact (unmarked_of_holdsAt holds later (by rw [Block.length_loop]; omega)).1

end Program
end TapeDialects
