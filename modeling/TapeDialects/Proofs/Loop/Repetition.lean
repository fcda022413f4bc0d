/-
A repetition is a copy of the command that it repeats.

Write every repetition of an action as that action itself, in its own place and
with its own lexeme and span.  The new program answers every sequence of calls
as the old one, on any streams.  The repetitions that are left have nothing but
repetitions before them, and fail; or they repeat a loop command, from where no
partner is found, and do nothing.
-/

import TapeDialects.Proofs.Loop.Jump
import TapeDialects.Proofs.Machine.Session

namespace TapeDialects

namespace Command

def actions : List Command :=
  [right, left, increment, decrement, output, input, giveFishfood, giveBanana]

theorem neutral_of_mem_actions : ∀ command ∈ actions, command.Neutral := by
  decide

theorem ne_again_of_mem_actions : ∀ command ∈ actions, command ≠ .again := by
  decide

theorem eq_loop_of_notMem_actions {command : Command} (direct : command ≠ .again)
    (unmarked : command ≠ .start ∧ command ≠ .stop) (other : command ∉ actions) :
    command = .loopOpen ∨ command = .loopClose := by
  cases command with
  | loopOpen => exact Or.inl rfl
  | loopClose => exact Or.inr rfl
  | again => exact absurd rfl direct
  | start => exact absurd rfl unmarked.1
  | stop => exact absurd rfl unmarked.2
  | _ => exact absurd (by decide) other

end Command

namespace Instruction

/-- The command of the last instruction that is no repetition. -/
def lastDirect? (instructions : List Instruction) : Option Command :=
  ((instructions.map command).filter (· ≠ .again)).getLast?

/-- An instruction behind other ones: if it repeats an action, that action. -/
def copying (before : List Instruction) (instruction : Instruction) : Instruction :=
  match lastDirect? before with
  | none => instruction
  | some command =>
      if instruction.command = .again ∧ command ∈ Command.actions then
        { instruction with command }
      else
        instruction

def withCopies (instructions : List Instruction) : List Instruction :=
  instructions.mapIdx fun index instruction => instruction.copying (instructions.take index)

variable {instructions before : List Instruction} {instruction : Instruction}
  {command : Command} {index : Nat}

theorem lastDirect?_append (before : List Instruction) (instruction : Instruction) :
    lastDirect? (before ++ [instruction]) =
      if instruction.command = .again then lastDirect? before
      else some instruction.command := by
  unfold lastDirect?
  by_cases again : instruction.command = .again
  · simp [again]
  · simp [again]

theorem of_lastDirect?_eq_some (found : lastDirect? before = some command) :
    (∃ instruction ∈ before, instruction.command = command) ∧ command ≠ .again := by
  have member := List.mem_of_getLast? found
  rw [List.mem_filter, List.mem_map] at member
  exact ⟨member.1, by simpa using member.2⟩

theorem command_of_lastDirect?_eq_none (missing : lastDirect? before = none)
    (member : instruction ∈ before) : instruction.command = .again := by
  unfold lastDirect? at missing
  rw [List.getLast?_eq_none_iff, List.filter_eq_nil_iff] at missing
  simpa using missing instruction.command (List.mem_map_of_mem member)

theorem copying_of_direct (direct : instruction.command ≠ .again) :
    instruction.copying before = instruction := by
  unfold copying
  split
  · rfl
  · exact if_neg fun both => direct both.1

theorem copying_of_action (again : instruction.command = .again)
    (found : lastDirect? before = some command) (action : command ∈ Command.actions) :
    instruction.copying before = { instruction with command } := by
  unfold copying
  rw [found]
  exact if_pos ⟨again, action⟩

theorem copying_of_no_action
    (other : ∀ command, lastDirect? before = some command → command ∉ Command.actions) :
    instruction.copying before = instruction := by
  unfold copying
  split
  · rfl
  · next command found => exact if_neg fun both => other command found both.2

theorem copying_cases (before : List Instruction) (instruction : Instruction) :
    instruction.copying before = instruction ∨
      ∃ command ∈ Command.actions, instruction.command = .again ∧
        lastDirect? before = some command ∧
        instruction.copying before = { instruction with command } := by
  by_cases again : instruction.command = .again
  · by_cases copies : ∃ command ∈ Command.actions, lastDirect? before = some command
    · obtain ⟨command, action, found⟩ := copies
      exact Or.inr ⟨command, action, again, found, copying_of_action again found action⟩
    · refine Or.inl (copying_of_no_action ?_)
      intro command found action
      exact copies ⟨command, action, found⟩
  · exact Or.inl (copying_of_direct again)

theorem length_withCopies (instructions : List Instruction) :
    (withCopies instructions).length = instructions.length :=
  List.length_mapIdx

theorem getElem?_withCopies (instructions : List Instruction) (index : Nat) :
    (withCopies instructions)[index]? =
      instructions[index]?.map (copying (instructions.take index)) :=
  List.getElem?_mapIdx

theorem lastDirect?_take_withCopies (instructions : List Instruction) (index : Nat) :
    lastDirect? ((withCopies instructions).take index) =
      lastDirect? (instructions.take index) := by
  induction index with
  | zero => rfl
  | succ index ih =>
      rw [List.take_add_one, List.take_add_one, getElem?_withCopies]
      cases found : instructions[index]? with
      | none =>
          rw [Option.map_none, Option.toList_none, List.append_nil, List.append_nil, ih]
      | some instruction =>
          rw [Option.map_some, Option.toList_some, Option.toList_some, lastDirect?_append,
            lastDirect?_append, ih]
          rcases copying_cases (instructions.take index) instruction with
            same | ⟨command, action, again, repeated, copied⟩
          · rw [same]
          · have direct : command ≠ .again := Command.ne_again_of_mem_actions command action
            rw [copied, if_neg direct, if_pos again, repeated]

end Instruction

open Instruction in
theorem Unmarked.withCopies {instructions : List Instruction}
    (unmarked : Unmarked instructions) : Unmarked (withCopies instructions) := by
  intro instruction member
  obtain ⟨index, found⟩ := List.getElem?_of_mem member
  rw [getElem?_withCopies, Option.map_eq_some_iff] at found
  obtain ⟨original, listed, same⟩ := found
  rcases copying_cases (instructions.take index) original with
    kept | ⟨command, action, -, -, copied⟩
  · rw [← same, kept]
    exact unmarked original (List.mem_of_getElem? listed)
  · rw [← same, copied]
    exact (Command.neutral_of_mem_actions command action).1

namespace Program

open Instruction

variable {text : Text} {instructions : List Instruction} {index : Nat}

theorem command?_of_instruction? {program : Program} {instruction : Instruction}
    (found : program.instruction? index = some instruction) :
    program.command? index = some instruction.command := by
  rw [command?, found]
  rfl

theorem repeated?_succ_of_again {program : Program}
    (found : program.command? index = some .again) :
    program.repeated? (index + 1) = program.repeated? index := by
  rw [repeated?, found]

theorem repeated?_succ_of_direct {program : Program} {command : Command}
    (found : program.command? index = some command) (unstarting : command ≠ .start)
    (direct : command ≠ .again) : program.repeated? (index + 1) = some command := by
  rw [repeated?, found]
  cases command <;> first | rfl | exact absurd rfl unstarting | exact absurd rfl direct

theorem repeated?_succ_eq_lastDirect? (text : Text) (unmarked : Unmarked instructions)
    (bounded : index ≤ instructions.length) :
    (ofInstructions text instructions).repeated? (index + 1) =
      lastDirect? (instructions.take index) := by
  induction index with
  | zero => rfl
  | succ index ih =>
      have inside : index < instructions.length := bounded
      have found : (ofInstructions text instructions).command? (index + 1) =
          some instructions[index].command :=
        (command?_succ_eq_some_iff inside).mpr rfl
      rw [List.take_add_one, List.getElem?_eq_getElem inside, Option.toList_some,
        lastDirect?_append]
      by_cases again : instructions[index].command = .again
      · rw [if_pos again, ← ih (Nat.le_of_lt inside)]
        rw [again] at found
        exact repeated?_succ_of_again found
      · rw [if_neg again]
        have unstarting := (unmarked instructions[index] (List.getElem_mem inside)).1
        exact repeated?_succ_of_direct found unstarting again

theorem instruction?_withCopies (text : Text) (unmarked : Unmarked instructions)
    (index : Nat) :
    (ofInstructions text (withCopies instructions)).instruction? index =
        (ofInstructions text instructions).instruction? index ∨
      ∃ instruction, ∃ command ∈ Command.actions, instruction.command = .again ∧
        (ofInstructions text instructions).instruction? index = some instruction ∧
        (ofInstructions text instructions).repeated? index = some command ∧
        (ofInstructions text (withCopies instructions)).instruction? index =
          some { instruction with command } := by
  cases index with
  | zero => exact Or.inl rfl
  | succ index =>
      by_cases inside : index < instructions.length
      · have copiesInside : index < (withCopies instructions).length := by
          rw [length_withCopies]
          exact inside
        have copied := getElem?_withCopies instructions index
        rw [List.getElem?_eq_getElem inside, List.getElem?_eq_getElem copiesInside,
          Option.map_some, Option.some.injEq] at copied
        rw [instruction?_succ inside, instruction?_succ copiesInside, copied,
          repeated?_succ_eq_lastDirect? text unmarked (Nat.le_of_lt inside)]
        rcases copying_cases (instructions.take index) instructions[index] with
          same | ⟨command, action, again, found, changed⟩
        · exact Or.inl (congrArg some same)
        · exact Or.inr ⟨_, command, action, again, rfl, found, congrArg some changed⟩
      · refine Or.inl ?_
        simp only [instruction?, ofInstructions, List.size_toArray, length_withCopies]
        rw [dif_neg inside, dif_neg inside]

theorem loopExit_eq_of_again {program : Program}
    (again : program.command? index = some .again) : program.loopExit index = index := by
  have inside := lt_size_of_command? again
  obtain ⟨ahead, counted⟩ : ∃ ahead, program.size - index = ahead + 1 :=
    ⟨program.size - index - 1, by omega⟩
  rw [loopExit, counted, exitFrom_succ again (by decide)]
  rfl

theorem loopEntry?_eq_of_again {program : Program}
    (again : program.command? index = some .again) :
    program.loopEntry? index = some index := by
  obtain ⟨before, rfl⟩ : ∃ before, index = before + 1 :=
    ⟨index - 1, (Nat.sub_add_cancel (pos_of_ne_start again nofun)).symm⟩
  unfold loopEntry?
  rw [entryFrom?_succ again nofun]
  rfl

/-! ### The program with copies acts like the original -/

theorem similar_withCopies (text : Text) (unmarked : Unmarked instructions) :
    (ofInstructions text (withCopies instructions)).Similar
      (ofInstructions text instructions) := by
  refine { size := ?size, commands := ?commands }
  case size =>
      rw [size_ofInstructions, size_ofInstructions, length_withCopies]
  case commands =>
      intro index
      rcases instruction?_withCopies text unmarked index with
        same | ⟨instruction, command, action, again, found, -, copied⟩
      · exact Or.inl (congrArg (Option.map Instruction.command) same)
      · have foundAgain := command?_of_instruction? found
        rw [again] at foundAgain
        exact Or.inr ⟨command, .again,
          ⟨command?_of_instruction? copied, Command.neutral_of_mem_actions command action⟩,
          foundAgain, by decide⟩

theorem repeated?_withCopies (text : Text) (unmarked : Unmarked instructions)
    (index : Nat) :
    (ofInstructions text (withCopies instructions)).repeated? index =
      (ofInstructions text instructions).repeated? index := by
  induction index with
  | zero => rfl
  | succ index ih =>
      rcases instruction?_withCopies text unmarked index with
        same | ⟨instruction, command, action, again, found, repeats, copied⟩
      · rw [repeated?, repeated?, command?, command?, same, ih]
      · have foundAgain := command?_of_instruction? found
        rw [again] at foundAgain
        rw [repeated?_succ_of_again foundAgain, repeats]
        apply repeated?_succ_of_direct (command?_of_instruction? copied)
        · exact (Command.neutral_of_mem_actions command action).1.1
        · exact Command.ne_again_of_mem_actions command action

theorem effective_withCopies (text : Text) (unmarked : Unmarked instructions)
    (index : Nat) :
    (ofInstructions text (withCopies instructions)).effective index =
      (ofInstructions text instructions).effective index := by
  rcases instruction?_withCopies text unmarked index with
    same | ⟨instruction, command, action, again, found, repeats, copied⟩
  · rw [effective, effective, command?, command?, same,
      repeated?_withCopies text unmarked]
  · have foundAgain := command?_of_instruction? found
    rw [again] at foundAgain
    rw [effective_eq_ok (command?_of_instruction? copied)
      (Command.ne_again_of_mem_actions command action)]
    rw [effective, foundAgain, repeats]

/-- A report shows lexeme and span, which a copy has from the repetition. -/
theorem diagnostic?_withCopies (text : Text) (unmarked : Unmarked instructions)
    (error : ExecutionError) (machine : Machine) :
    machine.diagnostic? (ofInstructions text (withCopies instructions)) error =
      machine.diagnostic? (ofInstructions text instructions) error := by
  unfold Machine.diagnostic?
  rcases instruction?_withCopies text unmarked machine.cursor with
    same | ⟨instruction, command, action, again, found, repeats, copied⟩
  · rw [same]
    rfl
  · rw [found, copied]
    rfl

theorem actsLike_withCopies (text : Text) (unmarked : Unmarked instructions) :
    (ofInstructions text (withCopies instructions)).ActsLike Eq
      (ofInstructions text instructions) := by
  refine
    { toSameCourse :=
        (similar_withCopies text unmarked).sameCourse (effective_withCopies text unmarked)
      reports := ?_ }
  intro machine error
  have same : machine.report (ofInstructions text (withCopies instructions)) error =
      machine.report (ofInstructions text instructions) error := by
    unfold Machine.report
    simp only [diagnostic?_withCopies text unmarked]
  exact ⟨congrArg Prod.fst same, congrArg Prod.snd same⟩

end Program

/-! ### The repetitions that are left -/

namespace Machine

variable {settings : Settings} {program : Program} {machine : Machine}

theorem step_again_of_none (again : program.command? machine.cursor = some .again)
    (missing : program.repeated? machine.cursor = none) :
    machine.step settings program =
      .failed (.execution .noPreviousCommand) machine := by
  apply step_of_error
  rw [Program.effective, again, missing]

/-- At a repetition no loop is open, so that both searches end where they start. -/
theorem step_again_of_loop (again : program.command? machine.cursor = some .again)
    {command : Command} (loop : command = .loopOpen ∨ command = .loopClose)
    (repeats : program.repeated? machine.cursor = some command) :
    machine.step settings program = .done machine.advance := by
  have effect : program.effective machine.cursor = .ok command := by
    rw [Program.effective, again, repeats]
  rw [step_of_ok effect]
  by_cases zero : machine.state.tape.current = 0
  · rcases loop with rfl | rfl
    · rw [carryOut_loopOpen_of_zero zero, Program.loopExit_eq_of_again again]
      rfl
    · rw [carryOut_loopClose_of_zero zero]
      rfl
  · rcases loop with rfl | rfl
    · rw [carryOut_loopOpen_of_ne_zero zero]
      rfl
    · rw [carryOut_loopClose_of_some zero (Program.loopEntry?_eq_of_again again)]
      rfl

end Machine

namespace Program

open Instruction

variable {instructions : List Instruction}

structure RepeatsAsCopies (settings : Settings) (text : Text)
    (instructions : List Instruction) : Prop where
  sessions : ∀ (calls : List Call) (machine : Machine),
    machine.session settings (ofInstructions text (withCopies instructions)) calls =
      machine.session settings (ofInstructions text instructions) calls
  /-- A repetition that is left has only repetitions before it, and fails; or the
  nearest other command before it belongs to a loop, and it does nothing. -/
  left : ∀ (index : Nat) (instruction : Instruction),
    (withCopies instructions)[index]? = some instruction →
    instruction.command = .again →
      ((∀ other ∈ (withCopies instructions).take index, other.command = .again) ∧
        ∀ machine : Machine, machine.cursor = index + 1 →
          machine.step settings (ofInstructions text (withCopies instructions)) =
            .failed (.execution .noPreviousCommand) machine) ∨
      ((lastDirect? ((withCopies instructions).take index) = some .loopOpen ∨
          lastDirect? ((withCopies instructions).take index) = some .loopClose) ∧
        ∀ machine : Machine, machine.cursor = index + 1 →
          machine.step settings (ofInstructions text (withCopies instructions)) =
            .done machine.advance)

theorem repeats_no_action {index : Nat} {instruction : Instruction}
    (found : (withCopies instructions)[index]? = some instruction)
    (again : instruction.command = .again) {command : Command}
    (repeats : lastDirect? ((withCopies instructions).take index) = some command) :
    command ∉ Command.actions := by
  intro action
  rw [lastDirect?_take_withCopies] at repeats
  rw [getElem?_withCopies, Option.map_eq_some_iff] at found
  obtain ⟨original, -, copied⟩ := found
  rcases copying_cases (instructions.take index) original with
    same | ⟨_, other, _, _, changed⟩
  · have repetition : original.command = .again := by
      rw [← same, copied, again]
    rw [copying_of_action repetition repeats action] at same
    exact Command.ne_again_of_mem_actions command action
      ((congrArg Instruction.command same).trans repetition)
  · rw [← copied, changed] at again
    exact Command.ne_again_of_mem_actions _ other again

theorem ofInstructions_repeatsAsCopies (settings : Settings) (text : Text)
    (unmarked : Unmarked instructions) :
    RepeatsAsCopies settings text instructions := by
  refine { sessions := ?sessions, left := ?left }
  case sessions =>
      exact Machine.session_eq_of_actsLike settings (actsLike_withCopies text unmarked)
  case left =>
      intro index instruction found again
      obtain ⟨inside, listed⟩ := List.getElem?_eq_some_iff.mp found
      have unmarkedCopies := unmarked.withCopies
      have placed : (ofInstructions text (withCopies instructions)).command? (index + 1) =
          some .again := by
        rw [command?_succ_eq_some_iff inside, listed, again]
      have repeated := repeated?_succ_eq_lastDirect? text unmarkedCopies
        (Nat.le_of_lt inside)
      cases last : lastDirect? ((withCopies instructions).take index) with
      | none =>
          refine Or.inl ⟨fun other => command_of_lastDirect?_eq_none last, ?_⟩
          intro machine located
          rw [← located] at placed repeated
          exact Machine.step_again_of_none placed (repeated.trans last)
      | some command =>
          obtain ⟨⟨other, member, same⟩, direct⟩ := of_lastDirect?_eq_some last
          have unmarkedOther := unmarkedCopies other (List.mem_of_mem_take member)
          rw [same] at unmarkedOther
          have loop := Command.eq_loop_of_notMem_actions direct unmarkedOther
            (repeats_no_action found again last)
          refine Or.inr ⟨?_, ?_⟩
          · rcases loop with rfl | rfl
            · exact Or.inl rfl
            · exact Or.inr rfl
          · intro machine located
            rw [← located] at placed repeated
            exact Machine.step_again_of_loop placed loop (repeated.trans last)

def repetitions : List Instruction :=
  [Instruction.startingAt 0 .increment ['+'], Instruction.startingAt 1 .again ['r'],
    Instruction.startingAt 2 .again ['r'], Instruction.startingAt 3 .loopOpen ['['],
    Instruction.startingAt 4 .again ['r'], Instruction.startingAt 5 .decrement ['-'],
    Instruction.startingAt 6 .loopClose [']'], Instruction.startingAt 7 .again ['r']]

/-- The action is carried out three times in both programs, and the loop takes back
what it has done; the repetitions of its two commands do nothing. -/
theorem repetitions_copied :
    Unmarked repetitions ∧
      (withCopies repetitions).map Instruction.command =
        [.increment, .increment, .increment, .loopOpen, .again, .decrement, .loopClose,
          .again] ∧
      RepeatsAsCopies Settings.standard "+rr[r-]r".toList repetitions :=
  ⟨by decide, by decide, ofInstructions_repeatsAsCopies _ _ (by decide)⟩

end Program
end TapeDialects
