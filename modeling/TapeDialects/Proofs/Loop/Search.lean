/-
What the two searches for the partner of a loop command find.

Each search counts on its way, and its count is the height relative to where it
started.  So a search that sees a program come back to a height stops there, and
one that never sees it come back runs into a mark.  The counts of a search are
only as good as their subtractions: none of them is cut off at zero as long as
the program stays above the height that is searched for.
-/

import TapeDialects.Machine.Jump
import TapeDialects.Proofs.Loop.Height

namespace TapeDialects

namespace Command

theorem depthAfter_eq_add_rise {command : Command} {depth : Nat}
    (stays : 0 ≤ (depth : Int) + command.rise) :
    (command.depthAfter depth : Int) = depth + command.rise := by
  cases command <;> simp [depthAfter, rise] at stays ⊢
  omega

theorem depthBefore_eq_sub_rise {command : Command} {depth : Nat}
    (stays : 0 ≤ (depth : Int) - command.rise) :
    (command.depthBefore depth : Int) = depth - command.rise := by
  cases command <;> simp [depthBefore, rise] at stays ⊢
  omega

end Command

namespace Program

variable {program : Program}

theorem exitFrom_succ {ahead index depth : Nat} {command : Command}
    (found : program.command? index = some command) (unmarked : command ≠ .stop) :
    program.exitFrom (ahead + 1) index depth =
      if command.depthAfter depth = 0 then index
      else program.exitFrom ahead (index + 1) (command.depthAfter depth) := by
  rw [exitFrom, found]
  cases command <;> first | rfl | exact absurd rfl unmarked

theorem exitFrom_succ_of_stop {ahead index depth : Nat}
    (found : program.command? index = some .stop) :
    program.exitFrom (ahead + 1) index depth = index - 1 := by
  rw [exitFrom, found]

theorem entryFrom?_succ {index depth : Nat} {command : Command}
    (found : program.command? (index + 1) = some command) (unmarked : command ≠ .start) :
    program.entryFrom? (index + 1) depth =
      if command.depthBefore depth = 0 then some (index + 1)
      else program.entryFrom? index (command.depthBefore depth) := by
  rw [entryFrom?, found]
  cases command <;> first | rfl | exact absurd rfl unmarked

theorem entryFrom?_succ_of_start {index depth : Nat}
    (found : program.command? (index + 1) = some .start) :
    program.entryFrom? (index + 1) depth = none := by
  rw [entryFrom?, found]

theorem exitFrom_eq_of_level {closing ahead index depth : Nat}
    (inside : closing < program.size)
    (unmarked : ∀ place, index ≤ place → place ≤ closing →
      program.command? place ≠ some .stop)
    (reached : index ≤ closing) (enough : closing < index + ahead)
    (above : ∀ place, index < place → place ≤ closing →
      0 < (depth : Int) + program.height place - program.height index)
    (level : (depth : Int) + program.height (closing + 1) - program.height index = 0) :
    program.exitFrom ahead index depth = closing := by
  induction ahead generalizing index depth with
  | zero => omega
  | succ ahead ih =>
      have within : index < program.size := by omega
      obtain ⟨command, found⟩ := exists_command?_of_lt program within
      have climbs := height_succ found
      have unstopped : command ≠ .stop := by
        intro same
        exact unmarked index (Nat.le_refl index) reached (by rw [found, same])
      rw [exitFrom_succ found unstopped]
      rcases Nat.lt_or_eq_of_le reached with early | same
      · have high := above (index + 1) (by omega) (by omega)
        have stays : 0 ≤ (depth : Int) + command.rise := by omega
        have counted := Command.depthAfter_eq_add_rise stays
        rw [if_neg (by omega)]
        apply ih
        · intro place later
          exact unmarked place (by omega)
        · omega
        · omega
        · intro place later early
          have high := above place (by omega) early
          omega
        · omega
      · subst same
        have stays : 0 ≤ (depth : Int) + command.rise := by omega
        have counted := Command.depthAfter_eq_add_rise stays
        rw [if_pos (by omega)]

theorem exitFrom_eq_of_above {last ahead index depth : Nat}
    (marked : program.command? last = some .stop)
    (unmarked : ∀ place, index ≤ place → place < last →
      program.command? place ≠ some .stop)
    (reached : index ≤ last) (enough : last < index + ahead)
    (above : ∀ place, index < place → place ≤ last →
      0 < (depth : Int) + program.height place - program.height index) :
    program.exitFrom ahead index depth = last - 1 := by
  have inside : last < program.size :=
    (command?_isSome_iff program last).mp (by rw [marked]; rfl)
  induction ahead generalizing index depth with
  | zero => omega
  | succ ahead ih =>
      rcases Nat.lt_or_eq_of_le reached with early | same
      · have within : index < program.size := by omega
        obtain ⟨command, found⟩ := exists_command?_of_lt program within
        have climbs := height_succ found
        have unstopped : command ≠ .stop := by
          intro same
          exact unmarked index (Nat.le_refl index) early (by rw [found, same])
        have high := above (index + 1) (by omega) (by omega)
        have stays : 0 ≤ (depth : Int) + command.rise := by omega
        have counted := Command.depthAfter_eq_add_rise stays
        rw [exitFrom_succ found unstopped, if_neg (by omega)]
        apply ih
        · intro place later
          exact unmarked place (by omega)
        · omega
        · omega
        · intro place later early
          have high := above place (by omega) early
          omega
      · subst same
        exact exitFrom_succ_of_stop marked

theorem entryFrom?_eq_of_level {opening index depth : Nat}
    (inside : index < program.size) (positive : 0 < opening)
    (unmarked : ∀ place, opening ≤ place → place ≤ index →
      program.command? place ≠ some .start)
    (reached : opening ≤ index)
    (above : ∀ place, opening < place → place ≤ index →
      0 < (depth : Int) + program.height place - program.height (index + 1))
    (level : (depth : Int) + program.height opening - program.height (index + 1) = 0) :
    program.entryFrom? index depth = some opening := by
  induction index generalizing depth with
  | zero => omega
  | succ index ih =>
      obtain ⟨command, found⟩ := exists_command?_of_lt program inside
      have climbs := height_succ found
      have unstarted : command ≠ .start := by
        intro same
        exact unmarked (index + 1) reached (Nat.le_refl _) (by rw [found, same])
      rw [entryFrom?_succ found unstarted]
      rcases Nat.lt_or_eq_of_le reached with early | same
      · have high := above (index + 1) early (Nat.le_refl _)
        have stays : 0 ≤ (depth : Int) - command.rise := by omega
        have counted := Command.depthBefore_eq_sub_rise stays
        rw [if_neg (by omega)]
        apply ih
        · omega
        · intro place later early
          exact unmarked place later (by omega)
        · omega
        · intro place later early
          have high := above place later (by omega)
          omega
        · omega
      · subst same
        have stays : 0 ≤ (depth : Int) - command.rise := by omega
        have counted := Command.depthBefore_eq_sub_rise stays
        rw [if_pos (by omega)]

theorem entryFrom?_eq_none_of_above {index depth : Nat} (inside : index < program.size)
    (above : ∀ place, place ≤ index →
      0 < (depth : Int) + program.height place - program.height (index + 1)) :
    program.entryFrom? index depth = none := by
  induction index generalizing depth with
  | zero => rfl
  | succ index ih =>
      obtain ⟨command, found⟩ := exists_command?_of_lt program inside
      by_cases marked : command = .start
      · subst marked
        exact entryFrom?_succ_of_start found
      · have climbs := height_succ found
        have high := above (index + 1) (Nat.le_refl _)
        have stays : 0 ≤ (depth : Int) - command.rise := by omega
        have counted := Command.depthBefore_eq_sub_rise stays
        rw [entryFrom?_succ found marked, if_neg (by omega)]
        apply ih
        · omega
        · intro place early
          have high := above place (by omega)
          omega

/-! ### Searches from loop commands -/

theorem loopExit_eq_of_partners {opening closing : Nat}
    (partners : program.Partners opening closing)
    (unmarked : ∀ place, opening ≤ place → place ≤ closing →
      program.command? place ≠ some .stop) :
    program.loopExit opening = closing := by
  have ordered := partners.ordered
  have inside := partners.inside
  have level := partners.level
  apply exitFrom_eq_of_level inside unmarked
  · omega
  · omega
  · intro place later early
    have high := partners.above place later early
    omega
  · omega

theorem loopExit_eq_of_above {opening last : Nat}
    (marked : program.command? last = some .stop)
    (unmarked : ∀ place, opening ≤ place → place < last →
      program.command? place ≠ some .stop)
    (early : opening ≤ last)
    (above : ∀ place, opening < place → place ≤ last →
      program.height opening < program.height place) :
    program.loopExit opening = last - 1 := by
  have inside := lt_size_of_command? marked
  apply exitFrom_eq_of_above marked unmarked early
  · omega
  · intro place later early
    have high := above place later early
    omega

theorem loopEntry?_eq_of_partners {opening closing : Nat}
    (partners : program.Partners opening closing)
    (unmarked : ∀ place, opening ≤ place → place ≤ closing →
      program.command? place ≠ some .start) :
    program.loopEntry? closing = some opening := by
  have level := partners.level
  have positive := pos_of_ne_start partners.command?_opening nofun
  apply entryFrom?_eq_of_level partners.inside positive unmarked
  · exact Nat.le_of_lt partners.ordered
  · intro place later early
    have high := partners.above place later early
    omega
  · omega

theorem loopEntry?_eq_none_of_above {closing : Nat} (inside : closing < program.size)
    (above : ∀ place, place ≤ closing →
      program.height (closing + 1) < program.height place) :
    program.loopEntry? closing = none := by
  apply entryFrom?_eq_none_of_above inside
  intro place early
  have high := above place early
  omega

end Program
end TapeDialects
