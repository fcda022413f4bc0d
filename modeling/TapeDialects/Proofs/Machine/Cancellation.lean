/-
Moves and changes that cancel.

On a looped tape the moves add up round the tape, and in cells that wrap the
changes add up modulo the period.  So commands that move as far to the right as
to the left, and raise what they lower at every offset on the way, leave the tape
as it was, whatever ends of the tape and of the cells they cross.  They may stand
in any place of a program, inside of loops too, but not in front of a repetition.
-/

import TapeDialects.Proofs.Machine.Balance
import TapeDialects.Proofs.Machine.Insertion

namespace TapeDialects

namespace Command

/-- Moves and changes, as many to the right as to the left, and at every offset from
where they start as many up as down. -/
structure Cancel (commands : List Command) : Prop where
  free : ∀ command ∈ commands, command ∈ tapeActs
  level : commands.count right = commands.count left
  balanced : ∀ offset, (offsets increment 0 commands).count offset =
    (offsets decrement 0 commands).count offset

theorem neutral_of_mem_tapeActs : ∀ command ∈ tapeActs, command.Neutral := by
  decide

theorem Cancel.offsets_perm {commands : List Command} (cancel : Cancel commands) :
    (offsets increment 0 commands).Perm (offsets decrement 0 commands) :=
  List.perm_iff_count.mpr cancel.balanced

end Command

namespace Tape

variable {settings : Settings} {start tape : Tape} {offset : Int} {raised lowered : List Int}

theorem allows_of_round (looped : settings.looped = true) (wrapping : settings.wrapping = true)
    (tape : Tape) (command : Command) : tape.Allows settings command :=
  { right := fun _ => Or.inl looped
    left := fun _ => Or.inl looped
    increment := fun _ => Or.inl wrapping
    decrement := fun _ => Or.inl wrapping }

namespace Balance

theorem eq_start (balance : Balance settings start 0 raised lowered tape)
    (sound : start.Sound settings) (perm : raised.Perm lowered) : tape = start := by
  have samePointer : tape.pointer = start.pointer := by
    have settled := balance.pointer
    have back := sound.balance_self.pointer
    omega
  have sameCells : tape.cells = start.cells := by
    have sized : tape.cells.size = start.cells.size :=
      balance.sound.length.trans sound.length.symm
    apply Array.ext sized
    intro index inside otherInside
    have within : index < settings.tapeLength := balance.sound.length ▸ inside
    have represents := balance.cells index within
    rw [perm.countP_eq, Int.add_sub_cancel] at represents
    have same := represents.unique (sound.admits_getD within).represents
    rw [Array.getD_eq_getD_getElem?, Array.getD_eq_getD_getElem?,
      Array.getElem?_eq_getElem inside, Array.getElem?_eq_getElem otherInside] at same
    exact same
  cases tape
  cases start
  simp only at samePointer sameCells
  rw [samePointer, sameCells]

end Balance

theorem Sound.walks_of_cancel (sound : tape.Sound settings) (looped : settings.looped = true)
    (wrapping : settings.wrapping = true) {commands : List Command}
    (cancel : Command.Cancel commands) : Walks settings commands tape tape := by
  obtain ⟨later, walks, settled⟩ := sound.balance_self.exists_walks cancel.free
    (fun _ command _ _ between _ => allows_of_round looped wrapping between command)
  have still : Command.travel commands = 0 := by
    rw [Command.travel_eq, cancel.level, Int.sub_self]
  unfold Balance.Behind at settled
  rw [still] at settled
  have same : later = tape := settled.eq_start sound cancel.offsets_perm
  rw [same] at walks
  exact walks

end Tape

namespace Machine

variable {settings : Settings} {program other : Program} {machine companion : Machine}
  {front : Nat} {inserted : List Command}

theorem catches_up (inserts : program.Inserts front inserted other)
    (looped : settings.looped = true) (wrapping : settings.wrapping = true)
    (cancel : Command.Cancel inserted)
    (beside : Beside settings program Eq (Program.Follows front inserted.length)
      machine companion) (running : machine.running = true) :
    ∃ count later, companion.stepped? settings other count = some later ∧
      companion.RunningBefore settings other count ∧
      Abreast settings program Eq front inserted.length machine later := by
  rcases beside.cursor with same | ⟨here, otherHere⟩
  · exact ⟨0, companion, rfl, nofun, { beside with cursor := same }⟩
  · have sameTape : companion.state.tape = machine.state.tape := beside.state.tape.symm
    have walks : Tape.Walks settings inserted companion.state.tape companion.state.tape := by
      rw [sameTape]
      exact beside.sound.tape.walks_of_cancel looped wrapping cancel
    have holds : other.HoldsAt companion.cursor inserted := by
      rw [otherHere]
      exact inserts.holds
    obtain ⟨reached, goesOn⟩ :=
      stepped?_of_walks walks holds (beside.running.trans running)
    refine ⟨_, _, reached, goesOn, { beside with state := beside.state, cursor := ?_ }⟩
    rw [here, Program.moved_of_ge (Nat.le_refl front), otherHere]

theorem answered_of_cancel (inserts : program.Inserts front inserted other)
    (looped : settings.looped = true) (wrapping : settings.wrapping = true)
    (cancel : Command.Cancel inserted) (sliceable : program.Sliceable)
    (otherSliceable : other.Sliceable)
    (beside : Beside settings program Eq (Program.Follows front inserted.length)
      machine companion) :
    Answered settings program other
      (Beside settings program Eq (Program.Follows front inserted.length))
      (EndsLike Eq id) machine companion := by
  cases running : machine.running with
  | false => exact answered_of_halted beside running
  | true =>
      obtain ⟨count, later, reached, goesOn, abreast⟩ :=
        catches_up inserts looped wrapping cancel beside running
      exact answered_of_abreast inserts (Tape.bisimilar_eq settings)
        (fun same => congrArg Tape.pointer same.symm) sliceable otherSliceable abreast
        running reached goesOn (fun _ behind => behind)

theorem runsLike_of_cancel {text otherText : Text} {instructions others : List Instruction}
    (before behind : List Command) (looped : settings.looped = true)
    (wrapping : settings.wrapping = true) (cancel : Command.Cancel inserted)
    (listed : instructions.map Instruction.command = before ++ behind)
    (otherListed : others.map Instruction.command = before ++ inserted ++ behind)
    (unrepeating : behind.head? ≠ some .again)
    (sliceable : (Program.ofInstructions text instructions).Sliceable)
    (otherSliceable : (Program.ofInstructions otherText others).Sliceable) (input : Text) :
    RunsLike settings (Program.ofInstructions text instructions)
      (Program.ofInstructions otherText others) Eq id input := by
  have neutral : ∀ command ∈ inserted, command.Neutral :=
    fun command member => Command.neutral_of_mem_tapeActs command (cancel.free command member)
  have inserts := Program.inserts_of_append text otherText listed otherListed neutral
    unrepeating
  have here : Beside settings (Program.ofInstructions text instructions) Eq
      (Program.Follows (before.length + 1) inserted.length) (onInput settings input)
      (onInput settings input) :=
    { sound := initial_sound settings _ _ _
      faultless := Console.ofStreams_faultless input
      state := ⟨rfl, rfl⟩
      cursor := Or.inl (Program.moved_of_lt inserts.positive).symm
      running := rfl }
  exact runsLike_of_answered
    (answered_of_cancel inserts looped wrapping cancel sliceable otherSliceable) here

def countDown : List Instruction :=
  [.startingAt 0 .increment ['+'], .startingAt 1 .loopOpen ['['], .startingAt 2 .output ['.'],
    .startingAt 3 .decrement ['-'], .startingAt 4 .loopClose [']']]

/-- The same loop with a detour to the cell on the left, which is lowered and raised. -/
def countDownByDetour : List Instruction :=
  [.startingAt 0 .increment ['+'], .startingAt 1 .loopOpen ['['], .startingAt 2 .left ['<'],
    .startingAt 3 .decrement ['-'], .startingAt 4 .right ['>'], .startingAt 5 .left ['<'],
    .startingAt 6 .increment ['+'], .startingAt 7 .right ['>'],
    .startingAt 8 .output ['.'], .startingAt 9 .decrement ['-'],
    .startingAt 10 .loopClose [']']]

theorem cancel_detour :
    Command.Cancel [.left, .decrement, .right, .left, .increment, .right] :=
  { free := by decide
    level := rfl
    balanced := fun _ => rfl }

/-- On a single cell, to the left of itself, the detour lowers the very cell of the loop. -/
theorem countDownByDetour_ends :
    ∃ fuel answer,
      (onInput oneCell []).run oneCell
          (Program.ofInstructions "+[<-><+>.-]".toList countDownByDetour) fuel =
        some answer ∧
      Ending.Corresponds id .stopped answer.1 ∧
      answer.2.state.console.sink.written = #[1] := by
  have runs : RunsLike oneCell (Program.ofInstructions "+[.-]".toList countDown)
      (Program.ofInstructions "+[<-><+>.-]".toList countDownByDetour) Eq id [] :=
    runsLike_of_cancel [.increment, .loopOpen] [.output, .decrement, .loopClose] rfl rfl
      cancel_detour rfl rfl (by decide) (Program.sliceable_of_body (by decide))
      (Program.sliceable_of_body (by decide)) []
  have ran : ∃ final, (onInput oneCell []).run oneCell
        (Program.ofInstructions "+[.-]".toList countDown) 8 = some (.stopped, final) ∧
      final.state.console.sink.written = #[1] := ⟨_, rfl, rfl⟩
  obtain ⟨final, ended, written⟩ := ran
  obtain ⟨fuel, answer, otherEnded⟩ := runs.ends_iff.mp ⟨_, _, ended⟩
  have alike := runs.agrees _ _ _ _ ended otherEnded
  refine ⟨fuel, answer, otherEnded, alike.ending, ?_⟩
  rw [alike.console]
  exact written

end Machine
end TapeDialects
