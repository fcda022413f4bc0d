/-
Programs with further commands in front of a place.

The further commands are neutral, so the searches for partners pass over them,
and all that stands behind them has moved by their number.  Partners stay
partners, and a repetition repeats what it did, as long as it does not stand
right behind the further commands.  A loop that is skipped up to these leads in
front of them; every other place that a loop leads to has moved with its command.
-/

import TapeDialects.Proofs.Loop.Repetition
import TapeDialects.Proofs.Machine.Reachable
import TapeDialects.Proofs.Structured.Placement

namespace TapeDialects.Program

/-- Where the command at an index has moved to. -/
def moved (front width index : Nat) : Nat :=
  if index < front then index else index + width

/-- The index has moved to the other one, or both are in front of the further commands. -/
def Follows (front width index another : Nat) : Prop :=
  another = moved front width index ∨ (index = front ∧ another = front)

/-- The other program has neutral commands more, in front of a place behind the mark of
the start.  At this place no repetition stands. -/
structure Inserts (front : Nat) (inserted : List Command) (program other : Program) :
    Prop where
  positive : 0 < front
  size : other.size = program.size + inserted.length
  before : ∀ index, index < front → other.command? index = program.command? index
  holds : other.HoldsAt front inserted
  neutral : ∀ command ∈ inserted, command.Neutral
  behind : ∀ index, front ≤ index →
    other.command? (index + inserted.length) = program.command? index
  unrepeating : program.command? front ≠ some .again

variable {front width index : Nat}

theorem moved_of_lt (early : index < front) : moved front width index = index :=
  if_pos early

theorem moved_of_ge (late : front ≤ index) : moved front width index = index + width :=
  if_neg (Nat.not_lt_of_le late)

theorem moved_succ (elsewhere : index + 1 ≠ front) :
    moved front width (index + 1) = moved front width index + 1 := by
  unfold moved
  split <;> split <;> omega

theorem le_moved : index ≤ moved front width index := by
  unfold moved
  split <;> omega

theorem follows_succ : Follows front width (index + 1) (moved front width index + 1) := by
  unfold Follows moved
  split <;> split <;> omega

theorem Follows.eq_moved {another : Nat} (follows : Follows front width index another)
    (elsewhere : index ≠ front) : another = moved front width index := by
  rcases follows with same | ⟨here, -⟩
  · exact same
  · exact absurd here elsewhere

namespace Inserts

variable {program other : Program} {inserted : List Command}
  (inserts : program.Inserts front inserted other)

include inserts

theorem between (index : Nat) (late : front ≤ index) (early : index < front + inserted.length) :
    ∃ command, other.command? index = some command ∧ command.Neutral := by
  obtain ⟨place, rfl⟩ := Nat.exists_eq_add_of_le late
  have inside : place < inserted.length := Nat.lt_of_add_lt_add_left early
  exact ⟨inserted[place], inserts.holds place _ (List.getElem?_eq_getElem inside),
    inserts.neutral _ (List.getElem_mem inside)⟩

theorem command?_moved (index : Nat) :
    other.command? (moved front inserted.length index) = program.command? index := by
  by_cases early : index < front
  · rw [moved_of_lt early, inserts.before index early]
  · have late := Nat.le_of_not_lt early
    rw [moved_of_ge late, inserts.behind index late]

theorem moved_lt_size (inside : index < program.size) :
    moved front inserted.length index < other.size := by
  have sized := inserts.size
  unfold moved
  split <;> omega

theorem repeated?_moved (elsewhere : index ≠ front) :
    other.repeated? (moved front inserted.length index) = program.repeated? index := by
  induction index with
  | zero =>
      rw [moved_of_lt inserts.positive]
      rfl
  | succ index ih =>
      rw [moved_succ elsewhere, repeated?, repeated?, inserts.command?_moved]
      by_cases again : program.command? index = some .again
      · have here : index ≠ front := by
          intro same
          rw [same] at again
          exact inserts.unrepeating again
        rw [again]
        exact ih here
      · cases found : program.command? index with
        | none => rfl
        | some command =>
            cases command <;> first | rfl | exact absurd found again

theorem effective_moved (index : Nat) :
    other.effective (moved front inserted.length index) = program.effective index := by
  unfold effective
  rw [inserts.command?_moved]
  by_cases here : index = front
  · cases found : program.command? index with
    | none => rfl
    | some command =>
        cases command with
        | again =>
            rw [here] at found
            exact absurd found inserts.unrepeating
        | _ => rfl
  · rw [inserts.repeated?_moved here]

/-! ### Loops that are skipped -/

theorem exitFrom_passes {depth : Nat} (opened : depth ≠ 0) (ahead : Nat) {left : Nat}
    (few : left ≤ inserted.length) :
    other.exitFrom (left + ahead) (front + inserted.length - left) depth =
      other.exitFrom ahead (front + inserted.length) depth := by
  induction left with
  | zero => rw [Nat.zero_add, Nat.sub_zero]
  | succ left ih =>
      obtain ⟨command, found, neutral⟩ :=
        inserts.between (front + inserted.length - (left + 1)) (by omega) (by omega)
      have next : front + inserted.length - (left + 1) + 1 =
          front + inserted.length - left := by omega
      rw [Nat.add_right_comm, exitFrom_succ found neutral.1.2, neutral.depthAfter_eq,
        if_neg opened, next]
      exact ih (by omega)

theorem exitFrom_follows {ahead rest depth : Nat} (inside : index < program.size)
    (reaching : index + ahead = program.size)
    (otherReaching : moved front inserted.length index + rest = other.size) :
    Follows front inserted.length (program.exitFrom ahead index depth + 1)
      (other.exitFrom rest (moved front inserted.length index) depth + 1) := by
  have sized := inserts.size
  induction ahead generalizing index rest depth with
  | zero => omega
  | succ ahead ih =>
      have otherInside := inserts.moved_lt_size inside
      obtain ⟨rest, rfl⟩ : ∃ fewer, rest = fewer + 1 := ⟨rest - 1, by omega⟩
      obtain ⟨command, found⟩ := exists_command?_of_lt program inside
      have otherFound := (inserts.command?_moved index).trans found
      by_cases marked : command = .stop
      · subst marked
        have positive := pos_of_ne_start found nofun
        have otherPositive := pos_of_ne_start otherFound nofun
        rw [exitFrom_succ_of_stop found, exitFrom_succ_of_stop otherFound,
          Nat.sub_add_cancel positive, Nat.sub_add_cancel otherPositive]
        exact Or.inl rfl
      · have room := succ_lt_size_of_ne_stop found marked
        rw [exitFrom_succ found marked, exitFrom_succ otherFound marked]
        by_cases level : command.depthAfter depth = 0
        · rw [if_pos level, if_pos level]
          exact follows_succ
        · rw [if_neg level, if_neg level]
          by_cases last : index + 1 = front
          · have still : moved front inserted.length index = index := moved_of_lt (by omega)
            have behind : moved front inserted.length (index + 1) = front + inserted.length := by
              rw [last, moved_of_ge (Nat.le_refl front)]
            obtain ⟨less, rfl⟩ : ∃ less, rest = inserted.length + less :=
              ⟨rest - inserted.length, by omega⟩
            have passed := inserts.exitFrom_passes level less (Nat.le_refl inserted.length)
            rw [Nat.add_sub_cancel] at passed
            have reached : index + 1 + ahead = program.size := by omega
            have otherReached : moved front inserted.length (index + 1) + less =
                other.size := by omega
            have further := @ih _ _ (command.depthAfter depth) room reached otherReached
            rw [behind, last] at further
            rw [still, last, passed]
            exact further
          · have next : moved front inserted.length (index + 1) =
                moved front inserted.length index + 1 := moved_succ last
            rw [← next]
            exact ih room (by omega) (by omega)

theorem loopExit_follows (inside : index < program.size) :
    Follows front inserted.length (program.loopExit index + 1)
      (other.loopExit (moved front inserted.length index) + 1) := by
  have otherInside := inserts.moved_lt_size inside
  apply inserts.exitFrom_follows inside
  · omega
  · omega

/-! ### Loops that go on -/

theorem entryFrom?_passes {depth passed : Nat} (opened : depth ≠ 0)
    (few : passed ≤ inserted.length) :
    other.entryFrom? (front - 1 + passed) depth = other.entryFrom? (front - 1) depth := by
  have positive := inserts.positive
  induction passed with
  | zero => rfl
  | succ passed ih =>
      obtain ⟨command, found, neutral⟩ :=
        inserts.between (front - 1 + passed + 1) (by omega) (by omega)
      rw [← Nat.add_assoc, entryFrom?_succ found neutral.1.1, neutral.depthBefore_eq,
        if_neg opened]
      exact ih (by omega)

theorem entryFrom?_pred_moved (index : Nat) {depth : Nat} (opened : depth ≠ 0) :
    other.entryFrom? (moved front inserted.length (index + 1) - 1) depth =
      other.entryFrom? (moved front inserted.length index) depth := by
  rcases Nat.lt_trichotomy (index + 1) front with early | last | late
  · rw [moved_of_lt early, moved_of_lt (Nat.lt_of_succ_lt early), Nat.add_sub_cancel]
  · have passed := inserts.entryFrom?_passes opened (Nat.le_refl inserted.length)
    have before : index = front - 1 := by omega
    have behind : index + 1 + inserted.length - 1 = front - 1 + inserted.length := by omega
    rw [moved_of_ge (Nat.le_of_eq last.symm), moved_of_lt (by omega), behind, passed, before]
  · rw [moved_of_ge (Nat.le_of_lt late), moved_of_ge (Nat.le_of_lt_succ late),
      Nat.add_right_comm, Nat.add_sub_cancel]

theorem entryFrom?_moved (index depth : Nat) :
    other.entryFrom? (moved front inserted.length index) depth =
      (program.entryFrom? index depth).map (moved front inserted.length) := by
  induction index generalizing depth with
  | zero =>
      rw [moved_of_lt inserts.positive]
      rfl
  | succ index ih =>
      have here := inserts.command?_moved (index + 1)
      obtain ⟨before, step⟩ : ∃ before,
          moved front inserted.length (index + 1) = before + 1 :=
        ⟨moved front inserted.length (index + 1) - 1,
          (Nat.sub_add_cancel (Nat.le_trans (Nat.le_add_left 1 index) le_moved)).symm⟩
      rw [step] at here ⊢
      cases found : program.command? (index + 1) with
      | none =>
          rw [found] at here
          rw [entryFrom?, entryFrom?, here, found]
          rfl
      | some command =>
          rw [found] at here
          by_cases marked : command = .start
          · subst marked
            rw [entryFrom?_succ_of_start here, entryFrom?_succ_of_start found]
            rfl
          · rw [entryFrom?_succ here marked, entryFrom?_succ found marked]
            by_cases level : command.depthBefore depth = 0
            · rw [if_pos level, if_pos level, ← step]
              rfl
            · have passed := inserts.entryFrom?_pred_moved index level
              rw [step, Nat.add_sub_cancel] at passed
              rw [if_neg level, if_neg level, passed]
              exact ih _

theorem loopEntry?_moved (index : Nat) :
    other.loopEntry? (moved front inserted.length index) =
      (program.loopEntry? index).map (moved front inserted.length) :=
  inserts.entryFrom?_moved index 0

end Inserts

variable {instructions others : List Instruction}
  {commands before inserted behind : List Command}

theorem command?_ofInstructions_succ (text : Text)
    (listed : instructions.map Instruction.command = commands) (index : Nat) :
    (ofInstructions text instructions).command? (index + 1) =
      (commands ++ [.stop])[index]? := by
  subst listed
  rw [command?_eq_getElem?]
  simp [Program.commands, Program.instructions, ofInstructions, startMark, stopMark]

theorem holdsAt_ofInstructions (text : Text)
    (listed : instructions.map Instruction.command = before ++ inserted ++ behind) :
    (ofInstructions text instructions).HoldsAt (before.length + 1) inserted := by
  intro index command found
  have inside := (List.getElem?_eq_some_iff.mp found).1
  rw [Nat.add_right_comm, command?_ofInstructions_succ text listed, List.append_assoc,
    List.append_assoc, List.getElem?_append_right (Nat.le_add_right _ _),
    Nat.add_sub_cancel_left, List.getElem?_append_left inside, found]

theorem inserts_of_append (text otherText : Text)
    (listed : instructions.map Instruction.command = before ++ behind)
    (otherListed : others.map Instruction.command = before ++ inserted ++ behind)
    (neutral : ∀ command ∈ inserted, command.Neutral)
    (unrepeating : behind.head? ≠ some .again) :
    (ofInstructions text instructions).Inserts (before.length + 1) inserted
      (ofInstructions otherText others) := by
  have counted := congrArg List.length listed
  have otherCounted := congrArg List.length otherListed
  simp only [List.length_map, List.length_append] at counted otherCounted
  have places := command?_ofInstructions_succ text listed
  have otherPlaces := command?_ofInstructions_succ otherText otherListed
  refine
    { positive := Nat.succ_pos _
      size := ?size
      before := ?before
      holds := holdsAt_ofInstructions otherText otherListed
      neutral
      behind := ?behind
      unrepeating := ?unrepeating }
  case size =>
      rw [size_ofInstructions, size_ofInstructions]
      omega
  case before =>
      intro index early
      cases index with
      | zero => rfl
      | succ index =>
          have inside := Nat.lt_of_succ_lt_succ early
          rw [places, otherPlaces, List.append_assoc, List.append_assoc, List.append_assoc,
            List.getElem?_append_left inside, List.getElem?_append_left inside]
  case behind =>
      intro index late
      obtain ⟨place, rfl⟩ : ∃ place, index = before.length + place + 1 :=
        ⟨index - (before.length + 1), by omega⟩
      have step : before.length + place + 1 + inserted.length =
          before.length + (inserted.length + place) + 1 := by omega
      rw [step, places, otherPlaces, List.append_assoc, List.append_assoc,
        List.append_assoc, List.getElem?_append_right (Nat.le_add_right _ _),
        List.getElem?_append_right (Nat.le_add_right _ _), Nat.add_sub_cancel_left,
        Nat.add_sub_cancel_left, List.getElem?_append_right (Nat.le_add_right _ _),
        Nat.add_sub_cancel_left]
  case unrepeating =>
      rw [places, List.append_assoc, List.getElem?_append_right (Nat.le_refl _),
        Nat.sub_self]
      cases behind with
      | nil => nofun
      | cons command behind => exact unrepeating

end TapeDialects.Program
