/-
No cell of a looped tape is special.

A looped tape that has been turned, together with its pointer, makes every
command do the same: moves and writes commute with the turning, also where they
go over an end of the one tape and not of the other.  Moves to the right turn a
blank tape, so a program behind such moves runs as it does without them.
-/

import TapeDialects.Proofs.Machine.Insertion
import TapeDialects.Proofs.Machine.Walk

namespace TapeDialects

namespace Tape

/-- The other tape is the first one, turned by so many cells to the right. -/
structure Rotated (settings : Settings) (count : Nat) (tape other : Tape) : Prop where
  length : tape.cells.size = settings.tapeLength
  otherLength : other.cells.size = settings.tapeLength
  inside : tape.pointer < settings.tapeLength
  pointer : other.pointer = (tape.pointer + count) % settings.tapeLength
  cells : ∀ index < settings.tapeLength,
    other.cells[(index + count) % settings.tapeLength]? = tape.cells[index]?

variable {settings : Settings} {count : Nat} {tape other : Tape}

theorem eq_of_turned_eq {length index another : Nat} (inside : index < length)
    (otherInside : another < length)
    (same : (index + count) % length = (another + count) % length) : index = another := by
  have cast : ((index : Int) + count) % length = (another + count) % length := by
    exact_mod_cast same
  have congruent : (index : Int) % length = another % length :=
    (Int.emod_add_cancel_right (count : Int)).mp cast
  rw [Int.emod_eq_of_lt (by omega) (by omega), Int.emod_eq_of_lt (by omega) (by omega)]
    at congruent
  exact Int.ofNat_inj.mp congruent

namespace Rotated

theorem otherInside (rotated : Rotated settings count tape other) :
    other.pointer < settings.tapeLength := by
  rw [rotated.pointer]
  exact Nat.mod_lt _ settings.tapeLength_pos

theorem current (rotated : Rotated settings count tape other) :
    other.current = tape.current := by
  unfold Tape.current
  rw [Array.getD_eq_getD_getElem?, Array.getD_eq_getD_getElem?, rotated.pointer,
    rotated.cells tape.pointer rotated.inside]

theorem move (rotated : Rotated settings count tape other) (amount : Nat) :
    Rotated settings count
      { tape with pointer := (tape.pointer + amount) % settings.tapeLength }
      { other with pointer := (other.pointer + amount) % settings.tapeLength } :=
  { length := rotated.length
    otherLength := rotated.otherLength
    inside := Nat.mod_lt _ settings.tapeLength_pos
    pointer := by
      rw [rotated.pointer, Nat.mod_add_mod, Nat.mod_add_mod, Nat.add_right_comm]
    cells := rotated.cells }

theorem moveRight (rotated : Rotated settings count tape other)
    (looped : settings.looped = true) :
    Outcome.Alike (Rotated settings count) (tape.moveRight settings)
      (other.moveRight settings) := by
  rw [moveRight_eq (Or.inl looped) rotated.inside,
    moveRight_eq (Or.inl looped) rotated.otherInside]
  exact .done (rotated.move 1)

theorem moveLeft (rotated : Rotated settings count tape other)
    (looped : settings.looped = true) :
    Outcome.Alike (Rotated settings count) (tape.moveLeft settings)
      (other.moveLeft settings) := by
  rw [moveLeft_eq (Or.inl looped) rotated.inside,
    moveLeft_eq (Or.inl looped) rotated.otherInside]
  exact .done (rotated.move _)

theorem write (rotated : Rotated settings count tape other) (value : Int) :
    Rotated settings count (tape.write value) (other.write value) := by
  have here : tape.pointer < tape.cells.size := by
    rw [rotated.length]
    exact rotated.inside
  have there : (tape.pointer + count) % settings.tapeLength < other.cells.size := by
    rw [rotated.otherLength]
    exact Nat.mod_lt _ settings.tapeLength_pos
  refine
    { length := Array.size_setIfInBounds.trans rotated.length
      otherLength := Array.size_setIfInBounds.trans rotated.otherLength
      inside := rotated.inside
      pointer := rotated.pointer
      cells := ?cells }
  case cells =>
      intro index inside
      unfold Tape.write
      simp only
      rw [rotated.pointer]
      by_cases same : index = tape.pointer
      · rw [same, Array.getElem?_setIfInBounds_self, Array.getElem?_setIfInBounds_self,
          if_pos here, if_pos there]
      · have apart : (tape.pointer + count) % settings.tapeLength ≠
            (index + count) % settings.tapeLength :=
          fun equal => same (eq_of_turned_eq inside rotated.inside equal.symm)
        rw [Array.getElem?_setIfInBounds_ne apart,
          Array.getElem?_setIfInBounds_ne (Ne.symm same)]
        exact rotated.cells index inside

end Rotated

theorem bisimilar_rotated (looped : settings.looped = true) (count : Nat) :
    Bisimilar settings (Rotated settings count) :=
  { current := Rotated.current
    moveRight := fun rotated => rotated.moveRight looped
    moveLeft := fun rotated => rotated.moveLeft looped
    write := Rotated.write }

theorem walks_right (looped : settings.looped = true)
    (inside : tape.pointer < settings.tapeLength) (count : Nat) :
    Walks settings (List.replicate count .right) tape
      { tape with pointer := (tape.pointer + count) % settings.tapeLength } := by
  induction count generalizing tape with
  | zero =>
      rw [Nat.add_zero, Nat.mod_eq_of_lt inside]
      exact .done
  | succ count ih =>
      have first := State.onTape_of_done (moveRight_eq (Or.inl looped) inside)
      have behind : (tape.pointer + 1) % settings.tapeLength < settings.tapeLength :=
        Nat.mod_lt _ settings.tapeLength_pos
      have further := @ih
        { tape with pointer := (tape.pointer + 1) % settings.tapeLength } behind
      rw [Nat.mod_add_mod, Nat.add_assoc, Nat.add_comm 1] at further
      exact .act (by decide) (by decide) first further

/-- The cells of a blank tape are alike, so turning it only moves the pointer. -/
theorem rotated_blank (settings : Settings) (count : Nat) :
    Rotated settings count (blank settings.tapeLength)
      { blank settings.tapeLength with pointer := (0 + count) % settings.tapeLength } := by
  refine
    { length := Array.size_replicate
      otherLength := Array.size_replicate
      inside := settings.tapeLength_pos
      pointer := rfl
      cells := ?cells }
  case cells =>
      intro index inside
      have turned := Nat.mod_lt (index + count) settings.tapeLength_pos
      unfold blank
      rw [Array.getElem?_replicate, Array.getElem?_replicate, if_pos turned, if_pos inside]

end Tape
/-! ### Behind the mark of the start -/

namespace Program

variable {program : Program} {index : Nat}

theorem le_exitFrom_succ (ahead depth : Nat) :
    index ≤ program.exitFrom ahead index depth + 1 := by
  induction ahead generalizing index depth with
  | zero => exact Nat.le_succ_of_pred_le (Nat.le_refl _)
  | succ ahead ih =>
      cases found : program.command? index with
      | none =>
          rw [exitFrom, found]
          exact Nat.le_succ_of_pred_le (Nat.le_refl _)
      | some command =>
          by_cases marked : command = .stop
          · subst marked
            rw [exitFrom_succ_of_stop found]
            exact Nat.le_succ_of_pred_le (Nat.le_refl _)
          · rw [exitFrom_succ found marked]
            split
            · exact Nat.le_succ index
            · exact Nat.le_of_succ_le (ih _)

theorem le_loopExit {command : Command} (found : program.command? index = some command)
    (unmarked : command ≠ .stop) : index ≤ program.loopExit index := by
  have inside := lt_size_of_command? found
  obtain ⟨ahead, counted⟩ : ∃ ahead, program.size - index = ahead + 1 :=
    ⟨program.size - index - 1, by omega⟩
  rw [loopExit, counted, exitFrom_succ found unmarked]
  split
  · exact Nat.le_refl index
  · exact Nat.le_of_succ_le_succ (le_exitFrom_succ _ _)

theorem pos_of_entryFrom? {depth entry : Nat}
    (found : program.entryFrom? index depth = some entry) : 0 < entry := by
  induction index generalizing depth with
  | zero => cases found
  | succ index ih =>
      rw [entryFrom?] at found
      split at found
      · cases found
      · cases found
      · simp only at found
        split at found
        · cases found
          exact Nat.succ_pos index
        · exact ih found

end Program

namespace Machine

variable {settings : Settings} {program other : Program} {machine companion next : Machine}
  {count : Nat} {input : Text}

theorem pos_of_carryOut {command : Command} (positive : 0 < machine.cursor)
    (effect : program.effective machine.cursor = .ok command)
    (carried : machine.carryOut settings program command = .done next) : 0 < next.cursor := by
  by_cases plain : command.IsPlain
  · rw [carryOut_plain plain] at carried
    cases performed : machine.state.perform settings command with
    | done state =>
        rw [performed] at carried
        cases carried
        exact positive
    | failed fault state =>
        rw [performed] at carried
        cases carried
  · cases command with
    | stop =>
        cases carried
        exact positive
    | loopOpen =>
        have forward : machine.cursor ≤ program.loopExit machine.cursor := by
          rcases Program.command?_of_effective effect with found | found
          · exact Program.le_loopExit found nofun
          · exact Program.le_loopExit found nofun
        by_cases zero : machine.state.tape.current = 0
        · rw [carryOut_loopOpen_of_zero zero] at carried
          cases carried
          exact Nat.lt_of_lt_of_le positive forward
        · rw [carryOut_loopOpen_of_ne_zero zero] at carried
          cases carried
          exact positive
    | loopClose =>
        by_cases zero : machine.state.tape.current = 0
        · rw [carryOut_loopClose_of_zero zero] at carried
          cases carried
          exact positive
        · cases found : program.loopEntry? machine.cursor with
          | none =>
              rw [carryOut_loopClose_of_none zero found] at carried
              cases carried
          | some entry =>
              rw [carryOut_loopClose_of_some zero found] at carried
              cases carried
              exact Program.pos_of_entryFrom? found
    | _ => exact absurd (by decide) plain

theorem one_lt_cursor_of_step (positive : 0 < machine.cursor)
    (stepped : machine.step settings program = .done next) : 1 < next.cursor := by
  cases effect : program.effective machine.cursor with
  | error fault =>
      rw [step_of_error effect] at stepped
      cases stepped
  | ok command =>
      rw [step_of_ok effect] at stepped
      cases carried : machine.carryOut settings program command with
      | done between =>
          rw [carried] at stepped
          cases stepped
          exact Nat.succ_lt_succ (pos_of_carryOut positive effect carried)
      | failed fault between =>
          rw [carried] at stepped
          cases stepped

/-! ### Moves in front of a program -/

/-- Both machines are fresh, or both are behind the mark of the start, and the companion
behind the moves too, and its tape is turned. -/
inductive Turned (settings : Settings) (program : Program) (count : Nat) (input : Text) :
    Machine → Machine → Prop where
  | fresh : Turned settings program count input (onInput settings input)
      (onInput settings input)
  | behind {machine companion : Machine}
      (beside : Beside settings program (Tape.Rotated settings count)
        (fun index another => 0 < index ∧ another = Program.moved 1 count index)
        machine companion) :
      Turned settings program count input machine companion

theorem answered_of_fresh (holds : other.HoldsAt 1 (List.replicate count .right))
    (looped : settings.looped = true)
    {alike : Ending × Machine → Ending × Machine → Prop} :
    Answered settings program other (Turned settings program count input) alike
      (onInput settings input) (onInput settings input) := by
  have running : (onInput settings input).running = true := rfl
  have stepped := step_onInput settings program input
  have otherStepped := step_onInput settings other input
  have begun := initial_sound settings program (Source.ofBytes input.encode none)
    (Sink.empty none none)
  have sound := (step_sound begun (begun.inside rfl)).1
  have walks : Tape.Walks settings (List.replicate count .right)
      (Tape.blank settings.tapeLength)
      { Tape.blank settings.tapeLength with pointer := (0 + count) % settings.tapeLength } :=
    Tape.walks_right looped settings.tapeLength_pos count
  let entered : Machine := { onInput settings input with cursor := 1 }
  have further : Tape.Walks settings (List.replicate count .right) entered.state.tape _ :=
    walks
  obtain ⟨reached, goesOn⟩ := stepped?_of_walks further holds running
  rw [List.length_replicate] at reached goesOn
  have whole := (stepped?_succ_of_done otherStepped count).trans reached
  refine .moves running stepped whole (.before running otherStepped goesOn) (.behind ?_)
  exact
    { sound := by
        change Sound settings program ((onInput settings input).step settings program).after
          at sound
        rw [stepped] at sound
        exact sound
      faultless := Console.ofStreams_faultless input
      state := ⟨Tape.rotated_blank settings count, rfl⟩
      cursor := ⟨Nat.one_pos, (Program.moved_of_ge (Nat.le_refl 1)).symm⟩
      running := rfl }

theorem answered_of_turned
    (inserts : program.Inserts 1 (List.replicate count .right) other)
    (looped : settings.looped = true) (sliceable : program.Sliceable)
    (otherSliceable : other.Sliceable)
    (turned : Turned settings program count input machine companion) :
    Answered settings program other (Turned settings program count input)
      (EndsLike (Tape.Rotated settings count)
        fun pointer => (pointer + count) % settings.tapeLength) machine companion := by
  cases turned with
  | fresh => exact answered_of_fresh inserts.holds looped
  | behind beside =>
      cases running : machine.running with
      | false => exact answered_of_halted beside running
      | true =>
          have width : (List.replicate count Command.right).length = count :=
            List.length_replicate
          have abreast : Abreast settings program (Tape.Rotated settings count) 1
              (List.replicate count Command.right).length machine companion := by
            rw [width]
            exact { beside with cursor := beside.cursor.2 }
          have here : companion.stepped? settings other 0 = some companion := rfl
          have unmoved : companion.RunningBefore settings other 0 := nofun
          apply answered_of_abreast inserts (Tape.bisimilar_rotated looped count)
            Tape.Rotated.pointer sliceable otherSliceable abreast running here unmoved
          intro next later stepped follows
          -- No step leads back to the place of the moves, so the companion never takes them
          -- again.
          have ahead := one_lt_cursor_of_step beside.cursor.1 stepped
          have moved := follows.cursor.eq_moved (Nat.ne_of_gt ahead)
          rw [width] at moved
          exact .behind { follows with cursor := ⟨Nat.zero_lt_of_lt ahead, moved⟩ }

theorem runsLike_of_rights {text otherText : Text} {instructions others : List Instruction}
    {commands : List Command} (looped : settings.looped = true) (count : Nat)
    (listed : instructions.map Instruction.command = commands)
    (otherListed : others.map Instruction.command =
      List.replicate count .right ++ commands)
    (unrepeating : commands.head? ≠ some .again)
    (sliceable : (Program.ofInstructions text instructions).Sliceable)
    (otherSliceable : (Program.ofInstructions otherText others).Sliceable) (input : Text) :
    RunsLike settings (Program.ofInstructions text instructions)
      (Program.ofInstructions otherText others) (Tape.Rotated settings count)
      (fun pointer => (pointer + count) % settings.tapeLength) input := by
  have neutral : ∀ command ∈ List.replicate count Command.right, command.Neutral := by
    intro command member
    rw [List.eq_of_mem_replicate member]
    decide
  have listedBehind : instructions.map Instruction.command = [] ++ commands := listed
  have otherListedBehind : others.map Instruction.command =
      [] ++ List.replicate count .right ++ commands := otherListed
  have inserts := Program.inserts_of_append text otherText listedBehind otherListedBehind
    neutral unrepeating
  exact runsLike_of_answered
    (answered_of_turned inserts looped sliceable otherSliceable) .fresh

def fiveCellRing : Settings :=
  { Settings.standard with
    tapeLength := 5
    wrapping := false
    tapeLength_pos := by decide
    tapeLength_lt := by decide }

def lowerLast : List Instruction :=
  [.startingAt 0 .increment ['+'], .startingAt 1 .left ['<'], .startingAt 2 .decrement ['-']]

def lowerLastBehindMoves : List Instruction :=
  [.startingAt 0 .right ['>'], .startingAt 1 .right ['>'], .startingAt 2 .increment ['+'],
    .startingAt 3 .left ['<'], .startingAt 4 .decrement ['-']]

/-- Two cells on, the move to the left goes over no end of the tape, and the same error is
met in the middle. -/
theorem lowerLastBehindMoves_reports :
    ∃ fuel diagnostic final,
      (onInput fiveCellRing []).run fiveCellRing
          (Program.ofInstructions ">>+<-".toList lowerLastBehindMoves) fuel =
        some (.reported diagnostic, final) ∧
      diagnostic.pointer = 1 ∧
      final.state.tape.cells[2]? = some 1 := by
  have runs : RunsLike fiveCellRing (Program.ofInstructions "+<-".toList lowerLast)
      (Program.ofInstructions ">>+<-".toList lowerLastBehindMoves)
      (Tape.Rotated fiveCellRing 2)
      (fun pointer => (pointer + 2) % fiveCellRing.tapeLength) [] :=
    runsLike_of_rights rfl 2 rfl rfl (by decide) (Program.sliceable_of_body (by decide))
      (Program.sliceable_of_body (by decide)) []
  have ran : ∃ diagnostic final, (onInput fiveCellRing []).run fiveCellRing
        (Program.ofInstructions "+<-".toList lowerLast) 8 =
          some (.reported diagnostic, final) ∧
      diagnostic.pointer = 4 ∧ final.state.tape.cells = #[1, 0, 0, 0, 0] :=
    ⟨_, _, rfl, rfl, rfl⟩
  obtain ⟨diagnostic, final, ended, pointed, cells⟩ := ran
  obtain ⟨fuel, ⟨ending, otherFinal⟩, otherEnded⟩ := runs.ends_iff.mp ⟨_, _, ended⟩
  have alike := runs.agrees _ _ _ _ ended otherEnded
  have raised := alike.tape.cells 0 fiveCellRing.tapeLength_pos
  rw [cells] at raised
  cases alike.ending with
  | reported message pointer =>
      rw [pointed] at pointer
      exact ⟨fuel, _, otherFinal, otherEnded, pointer, raised⟩

end Machine
end TapeDialects
