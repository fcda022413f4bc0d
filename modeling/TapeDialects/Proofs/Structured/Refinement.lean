/-
The run of a block's commands does what the evaluation of the block says.

The machine fetches one command after the other and looks for the partners of
brackets as it goes; the evaluation knows its loops from the block.  On streams
that cannot fail one of them ends if the other does, and then on the same tape
and with the same input taken.  The output differs by the line break only that
the report of an error may need.
-/

import TapeDialects.Proofs.Program
import TapeDialects.Proofs.Structured.Simulation

namespace TapeDialects

/-- How the run of a block ends that has a verdict. -/
def Verdict.Agrees (text : Text) (instructions : List Instruction) (ending : Ending)
    (final : State) : Verdict → Prop
  | completed state =>
      ending = .stopped ∧
      final.tape = state.tape ∧
      final.console.source = state.console.source ∧
      final.console.sink.written = state.console.sink.written
  | failed error place state =>
      (∃ instruction diagnostic,
        instructions[place]? = some instruction ∧
        Diagnostic.of? text instruction.lexeme instruction.span state.tape.pointer
          error.message = some diagnostic ∧
        diagnostic.message = error.message ∧
        ending = .reported diagnostic) ∧
      final.tape = state.tape ∧
      final.console.source = state.console.source ∧
      final.console.sink.written = state.console.sink.written ++
        (if state.console.midLine then [lineFeed] else [])

def Machine.onInput (settings : Settings) (input : Text) : Machine :=
  Machine.initial settings (Source.ofBytes input.encode none) (Sink.empty none none)

theorem Machine.step_onInput (settings : Settings) (program : Program) (input : Text) :
    (Machine.onInput settings input).step settings program =
      .done { Machine.onInput settings input with cursor := 1 } :=
  Machine.step_initial settings program _ _

structure RunsAs (settings : Settings) (text : Text) (instructions : List Instruction)
    (block : Block) (input : Text) : Prop where
  ends_iff :
    (∃ fuel result, (Machine.onInput settings input).run settings
      (Program.ofInstructions text instructions) fuel = some result) ↔
    ∃ verdict, Evaluates settings block (Machine.onInput settings input).state verdict
  unique : ∀ verdict other,
    Evaluates settings block (Machine.onInput settings input).state verdict →
    Evaluates settings block (Machine.onInput settings input).state other →
      verdict = other
  agrees : ∀ fuel ending final verdict,
    (Machine.onInput settings input).run settings
      (Program.ofInstructions text instructions) fuel = some (ending, final) →
    Evaluates settings block (Machine.onInput settings input).state verdict →
      verdict.Agrees text instructions ending final.state

theorem Evaluates.place_lt {settings : Settings} {block : Block} {state later : State}
    {error : ExecutionError} {place : Nat}
    (evaluates : Evaluates settings block state (.failed error place later)) :
    place < block.length := by
  generalize found : Verdict.failed error place later = verdict at evaluates
  induction evaluates generalizing place with
  | done => cases found
  | @act action rest state next verdict performed continued ih =>
      cases verdict with
      | completed state => cases found
      | failed error place state =>
          cases found
          rw [Block.length_act]
          exact Nat.succ_lt_succ (ih rfl)
  | @actFails action rest state next error performed =>
      cases found
      rw [Block.length_act]
      exact Nat.succ_pos _
  | @skip body rest state verdict zero continued ih =>
      cases verdict with
      | completed state => cases found
      | failed error place state =>
          cases found
          have inside := ih rfl
          rw [Block.length_loop]
          omega
  | turn nonzero turned again ihTurned ihAgain => exact ihAgain found
  | @turnFails body rest state next error place nonzero turned ih =>
      cases found
      have inside := ih rfl
      rw [Block.length_loop]
      omega

namespace Program

variable {settings : Settings} {text : Text} {instructions : List Instruction}
  {block : Block} {ending : Ending} {final : Machine}

theorem length_of_flattened
    (flattened : instructions.map Instruction.command = block.commands) :
    instructions.length = block.length := by
  rw [← List.length_map Instruction.command, flattened]
  rfl

theorem holdsAt_of_flattened (text : Text)
    (flattened : instructions.map Instruction.command = block.commands) :
    (ofInstructions text instructions).HoldsAt 1 block.commands := by
  intro index command found
  rw [← flattened] at found
  rw [List.getElem?_map, Option.map_eq_some_iff] at found
  obtain ⟨instruction, placed, named⟩ := found
  obtain ⟨inside, same⟩ := List.getElem?_eq_some_iff.mp placed
  rw [Nat.add_comm 1 index, command?_succ_eq_some_iff inside, same, named]

theorem ends_onInput_iff (input : Text) :
    (Machine.onInput settings input).Ends settings (ofInstructions text instructions)
        ending final ↔
      (Machine.standing 1 (Machine.onInput settings input).state).Ends settings
        (ofInstructions text instructions) ending final := by
  apply Machine.ends_iff_of_done rfl
  have effect : (ofInstructions text instructions).effective 0 = .ok .start :=
    effective_eq_ok (command?_zero _) nofun
  exact Machine.step_done_of_plain effect (by decide) rfl

theorem ends_standing_last_iff {state : State} (faultless : state.Faultless)
    (counted : instructions.length = block.length) :
    (Machine.standing (1 + block.length) state).Ends settings
        (ofInstructions text instructions) ending final ↔
      (Ending.stopped,
        ({ state := { state with console := state.console.flushed }
           cursor := 1 + block.length + 1
           running := false } : Machine)) = (ending, final) := by
  have stops : (ofInstructions text instructions).command?
      (Machine.standing (1 + block.length) state).cursor = some .stop := by
    have last := command?_last (ofInstructions text instructions)
    rwa [show (ofInstructions text instructions).length = block.length from counted,
      Nat.add_comm block.length 1] at last
  rw [Machine.ends_iff_of_done rfl (Machine.step_stop stops),
    Machine.ends_iff_of_halted rfl, Machine.finish_eq faultless]
  rfl

theorem exists_diagnostic_of_sliceable (state : State) {place : Nat}
    {error : ExecutionError} (inside : place < instructions.length)
    (sliceable : (text.cut? instructions[place].span).isSome = true) :
    ∃ diagnostic,
      Diagnostic.of? text instructions[place].lexeme instructions[place].span
        state.tape.pointer error.message = some diagnostic ∧
      diagnostic.message = error.message ∧
      (Machine.standing (1 + place) state).diagnostic?
        (ofInstructions text instructions) error = some diagnostic := by
  obtain ⟨cut, found⟩ := Option.isSome_iff_exists.mp sliceable
  have reported : Diagnostic.of? text instructions[place].lexeme
      instructions[place].span state.tape.pointer error.message =
        some { lexeme := instructions[place].lexeme
               excerpt := Excerpt.ofCut cut
               pointer := state.tape.pointer
               message := error.message } := by
    unfold Diagnostic.of? Excerpt.of?
    rw [found]
    rfl
  refine ⟨_, reported, rfl, ?_⟩
  have placed : (ofInstructions text instructions).instruction? (1 + place) =
      some instructions[place] := by
    rw [Nat.add_comm]
    exact instruction?_succ inside
  unfold Machine.diagnostic? Machine.standing
  simp only
  rw [placed]
  exact reported

theorem agrees_of_leads {state : State} {verdict : Verdict}
    (counted : instructions.length = block.length)
    (sliceable : ∀ instruction ∈ instructions, (text.cut? instruction.span).isSome = true)
    (evaluates : Evaluates settings block state verdict) (faultless : state.Faultless)
    (leads : verdict.Leads settings (ofInstructions text instructions) 1 block.length
      ending final) :
    verdict.Agrees text instructions ending final.state := by
  have quiet := evaluates.faultless faultless
  cases verdict with
  | completed later =>
      have ends := (ends_standing_last_iff quiet counted).mp leads
      cases ends
      exact ⟨rfl, rfl, rfl, rfl⟩
  | failed error place later =>
      have inside : place < instructions.length := counted ▸ evaluates.place_lt
      obtain ⟨diagnostic, reported, worded, placed⟩ :=
        exists_diagnostic_of_sliceable later inside
          (sliceable _ (List.getElem_mem inside))
      have ends := leads
      unfold Verdict.Leads at ends
      simp only at ends
      rw [Machine.report_eq quiet placed] at ends
      cases ends
      exact ⟨⟨_, diagnostic, List.getElem?_eq_getElem inside, reported, worded, rfl⟩,
        rfl, Console.source_brokeLine later.console,
        Console.written_brokeLine later.console⟩

theorem exists_run_iff_ends (input : Text) (program : Program) :
    (∃ fuel result, (Machine.onInput settings input).run settings program fuel =
        some result) ↔
      ∃ ending final, (Machine.onInput settings input).Ends settings program
        ending final := by
  constructor
  · intro ran
    obtain ⟨fuel, result, found⟩ := ran
    exact ⟨result.1, result.2, fuel, found⟩
  · intro ends
    obtain ⟨ending, final, fuel, found⟩ := ends
    exact ⟨fuel, (ending, final), found⟩

theorem exists_leads {state : State} {verdict : Verdict}
    (counted : instructions.length = block.length)
    (evaluates : Evaluates settings block state verdict) (faultless : state.Faultless) :
    ∃ ending final, verdict.Leads settings (ofInstructions text instructions) 1
      block.length ending final := by
  have quiet := evaluates.faultless faultless
  cases verdict with
  | completed later =>
      exact ⟨_, _, (ends_standing_last_iff quiet counted).mpr rfl⟩
  | failed error place later => exact ⟨_, _, rfl⟩

theorem runsAs_of_flattened (settings : Settings) {text : Text}
    {instructions : List Instruction} {block : Block} (input : Text)
    (flattened : instructions.map Instruction.command = block.commands)
    (sliceable : ∀ instruction ∈ instructions,
      (text.cut? instruction.span).isSome = true) :
    RunsAs settings text instructions block input := by
  have counted := length_of_flattened flattened
  have holds := holdsAt_of_flattened text flattened
  have faultless : (Machine.onInput settings input).state.Faultless :=
    Console.ofStreams_faultless input
  refine
    { ends_iff := ?_
      unique := ?_
      agrees := ?_ }
  · rw [exists_run_iff_ends]
    constructor
    · intro ends
      obtain ⟨ending, final, ends⟩ := ends
      obtain ⟨fuel, ran⟩ := (ends_onInput_iff input).mp ends
      obtain ⟨verdict, evaluates, behind⟩ :=
        Machine.hasVerdict_of_runFor fuel block _ 1 holds faultless ran
      exact ⟨verdict, evaluates⟩
    · intro evaluates
      obtain ⟨verdict, evaluates⟩ := evaluates
      obtain ⟨ending, final, leads⟩ := exists_leads counted evaluates faultless
      exact ⟨ending, final,
        (ends_onInput_iff input).mpr ((evaluates.ends_iff_leads holds).mpr leads)⟩
  · intro verdict other evaluates otherwise
    exact evaluates.unique otherwise
  · intro fuel ending final verdict ran evaluates
    have ends := (ends_onInput_iff input).mp ⟨fuel, ran⟩
    exact agrees_of_leads counted sliceable evaluates faultless
      ((evaluates.ends_iff_leads holds).mp ends)

def twoStrictCells : Settings :=
  { Settings.standard with
    tapeLength := 2
    looped := false
    wrapping := false
    tapeLength_pos := by decide
    tapeLength_lt := by decide }

def walkOff : Block :=
  .act .increment (.loop (.act .left .done) .done)

def walkOffInstructions : List Instruction :=
  [Instruction.startingAt 0 .increment ['+'], Instruction.startingAt 1 .loopOpen ['['],
    Instruction.startingAt 2 .left ['<'], Instruction.startingAt 3 .loopClose [']']]

theorem walkOff_evaluates :
    ∃ later, Evaluates twoStrictCells walkOff (Machine.onInput twoStrictCells []).state
      (.failed .pointerTooLow 2 later) :=
  ⟨_, .act rfl (.turnFails (by decide) (.actFails rfl))⟩

theorem walkOff_reported :
    walkOffInstructions.map Instruction.command = walkOff.commands ∧
    (∀ instruction ∈ walkOffInstructions,
      (Text.cut? "+[<]".toList instruction.span).isSome = true) ∧
    ∃ fuel diagnostic final,
      (Machine.onInput twoStrictCells []).run twoStrictCells
        (ofInstructions "+[<]".toList walkOffInstructions) fuel =
          some (.reported diagnostic, final) ∧
      diagnostic.message = "tape pointer out of range (-1 < 0)" := by
  have sliceable : ∀ instruction ∈ walkOffInstructions,
      (Text.cut? "+[<]".toList instruction.span).isSome = true := by decide
  have runs : RunsAs twoStrictCells "+[<]".toList walkOffInstructions walkOff [] :=
    runsAs_of_flattened twoStrictCells [] rfl sliceable
  obtain ⟨later, evaluates⟩ := walkOff_evaluates
  obtain ⟨fuel, result, ran⟩ := runs.ends_iff.mpr ⟨_, evaluates⟩
  obtain ⟨⟨instruction, diagnostic, placed, reported, worded, ending⟩, agreed⟩ :=
    runs.agrees fuel result.1 result.2 _ ran evaluates
  refine ⟨rfl, sliceable, fuel, diagnostic, result.2, ?_, worded⟩
  rw [ran, ← ending]

end Program
end TapeDialects
