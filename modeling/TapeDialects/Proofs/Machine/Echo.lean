/-
Programs that echo: pairs of input and output, one behind the other.

A cell that is wide enough for every character takes the code of what a line is
read as, and output turns a code back into its character.  So the characters come
out as they were read, up to the first one that is the highest of all: its code is
the bound of what can be written, itself not included.
-/

import Mathlib.Data.List.Induction
import TapeDialects.Proofs.Loop.Clearing
import TapeDialects.Proofs.Loop.Insertion
import TapeDialects.Proofs.Machine.LineInput
import TapeDialects.Proofs.Machine.OutputLines

namespace TapeDialects

namespace Text

/-- The characters are what the lines of an input are read as, the first line first.
Behind the last line there are empty ones. -/
def ReadInTurn (input characters : Text) : Prop :=
  ∀ (index : Nat) (character : Char), characters[index]? = some character →
    ReadAs ((lines input)[index]?.getD []) character

def inTurn (input : Text) (count : Nat) : Text :=
  (List.range count).map fun index => inputCharacter ((lines input)[index]?.getD [])

variable {input characters front back : Text} {character : Char} {count : Nat}

theorem readInTurn_iff :
    characters.length = count ∧ ReadInTurn input characters ↔
      characters = inTurn input count := by
  constructor
  · rintro ⟨rfl, read⟩
    apply List.ext_getElem
    · rw [inTurn, List.length_map, List.length_range]
    · intro index inside _
      have same := readAs_iff.mp (read index _ (List.getElem?_eq_getElem inside))
      simp only [inTurn, List.getElem_map, List.getElem_range, same]
  · rintro rfl
    refine ⟨by rw [inTurn, List.length_map, List.length_range], ?_⟩
    intro index character found
    obtain ⟨inside, same⟩ := List.getElem?_eq_some_iff.mp found
    rw [← same]
    simp only [inTurn, List.getElem_map, List.getElem_range]
    exact readAs_inputCharacter _

theorem ReadInTurn.of_append (read : ReadInTurn input (front ++ character :: back)) :
    ReadInTurn input front ∧
      character = inputCharacter ((lines input)[front.length]?.getD []) := by
  constructor
  · intro index earlier found
    have inside := (List.getElem?_eq_some_iff.mp found).1
    apply read
    rw [List.getElem?_append_left inside, found]
  · apply readAs_iff.mp
    apply read
    rw [List.getElem?_append_right (Nat.le_refl _), Nat.sub_self, List.getElem?_cons_zero]

/-- The highest character, the code of which is the bound of what can be written. -/
def highest : Char :=
  Char.ofNat 0x10FFFF

theorem toNat_le_highest (character : Char) : character.toNat ≤ 0x10FFFF := by
  have valid : character.toNat.isValidChar := character.valid
  unfold Nat.isValidChar at valid
  omega

theorem toNat_lt_highest (unlike : character ≠ highest) : character.toNat < 0x10FFFF := by
  apply Nat.lt_of_le_of_ne (toNat_le_highest character)
  intro same
  apply unlike
  rw [← Char.ofNat_toNat character, same]
  rfl

end Text

/-! ### What is written -/

namespace Tape

variable {tape : Tape} {character : Char}

structure Shows (tape : Tape) (character : Char) : Prop where
  code : tape.current = character.toNat
  bounded : tape.current < 0x10FFFF

theorem character?_eq_some_iff : tape.character? = some character ↔ tape.Shows character := by
  unfold character? unicodeBound
  constructor
  · intro found
    simp only at found
    split at found
    · next shown =>
        obtain ⟨low, high, valid⟩ := shown
        have code : character.toNat = tape.current.toNat := by
          rw [← Option.some.inj found, Char.ofNat, dif_pos valid]
          rfl
        exact { code := by omega, bounded := high }
    · cases found
  · rintro ⟨code, bounded⟩
    have valid : tape.current.toNat.isValidChar := by
      rw [code, Int.toNat_natCast]
      exact character.valid
    have low : 0 ≤ tape.current := by omega
    simp only
    rw [if_pos ⟨low, bounded, valid⟩, code, Int.toNat_natCast, Char.ofNat_toNat]

theorem character?_eq_none_iff :
    tape.character? = none ↔ ¬ ∃ character, tape.Shows character := by
  simp only [← character?_eq_some_iff, ← Option.isSome_iff_exists,
    Option.not_isSome_iff_eq_none]

end Tape

def Sink.HasRoom (sink : Sink) (count : Nat) : Prop :=
  ∀ capacity, sink.capacity? = some capacity → sink.written.size + count ≤ capacity

theorem Sink.length_fitting_eq_iff {sink : Sink} {bytes : List UInt8} (nonempty : bytes ≠ []) :
    (sink.fitting bytes).length = bytes.length ↔ sink.HasRoom bytes.length := by
  have positive := List.length_pos_iff.mpr nonempty
  unfold fitting HasRoom
  cases sink.capacity? with
  | none => exact ⟨nofun, fun _ => rfl⟩
  | some capacity =>
      simp only [List.length_take, Option.some.injEq, forall_eq']
      omega

theorem Console.error?_put_eq_none_iff {console : Console} {character : Char} :
    (console.put character).error? = none ↔ console.sink.HasRoom character.utf8Size := by
  have sized := String.length_utf8EncodeChar character
  have nonempty : String.utf8EncodeChar character ≠ [] := by
    rw [← List.length_pos_iff, sized]
    exact character.utf8Size_pos
  rw [put, write_eq_ite, Text.encode_singleton, ← sized, ← Sink.length_fitting_eq_iff nonempty]
  split
  · next fits => exact iff_of_true rfl fits
  · next cut =>
      refine iff_of_false ?_ cut
      intro unfailed
      cases unfailed

theorem State.error?_onConsole (act : Console → Outcome StreamError Console) (state : State) :
    (state.onConsole act).error? = (act state.console).error?.map Fault.stream := by
  cases state with
  | mk tape console =>
      unfold onConsole
      simp only
      cases act console <;> rfl

namespace Machine

variable {settings : Settings} {program : Program} {machine : Machine} {character : Char}

theorem perform_output_of_shows (shows : machine.state.tape.Shows character) :
    machine.state.perform settings .output =
      machine.state.onConsole (Console.put character) := by
  rw [State.perform, State.output, Tape.character?_eq_some_iff.mpr shows]

theorem step_output_of_put {console : Console}
    (outputs : program.effective machine.cursor = .ok .output)
    (shows : machine.state.tape.Shows character)
    (put : machine.state.console.put character = .done console) :
    machine.step settings program =
      .done { machine with
        state := { machine.state with console }
        cursor := machine.cursor + 1 } := by
  apply step_done_of_plain outputs (by decide)
  rw [perform_output_of_shows shows, State.onConsole_of_done put]

theorem error?_step_output_iff (outputs : program.effective machine.cursor = .ok .output)
    (shows : machine.state.tape.Shows character) :
    (machine.step settings program).error? = none ↔
      machine.state.console.sink.HasRoom character.utf8Size := by
  rw [error?_step_of_plain outputs (by decide), perform_output_of_shows shows,
    State.error?_onConsole, Option.map_eq_none_iff, Console.error?_put_eq_none_iff]

theorem step_output_of_not_shows (outputs : program.effective machine.cursor = .ok .output)
    (unwritable : ¬ ∃ character, machine.state.tape.Shows character) :
    machine.step settings program =
      .failed (.execution (.outOfUnicodeRange machine.state.tape.current)) machine := by
  apply step_failed_of_plain outputs (by decide)
  rw [State.perform, State.output, Tape.character?_eq_none_iff.mpr unwritable]

/-- How output takes effect: it succeeds on the codes of characters below the bound, if there is
room, and on no other values, and it writes that character and nothing else. -/
structure WritesScalars (settings : Settings) (program : Program) (machine : Machine) :
    Prop where
  succeeds : (machine.step settings program).error? = none ↔
    ∃ character, machine.state.tape.Shows character ∧
      machine.state.console.sink.HasRoom character.utf8Size
  written : ∀ later, machine.step settings program = .done later →
    ∃ character, machine.state.tape.Shows character ∧
      later.state.tape = machine.state.tape ∧
      later.state.console.source = machine.state.console.source ∧
      later.state.console.sink.written.toList =
        machine.state.console.sink.written.toList ++ String.utf8EncodeChar character
  refused : (¬ ∃ character, machine.state.tape.Shows character) →
    machine.step settings program =
      .failed (.execution (.outOfUnicodeRange machine.state.tape.current)) machine

theorem written_wrote_singleton (console : Console) (character : Char) (midLine : Bool) :
    (console.wrote [character] midLine).sink.written.toList =
      console.sink.written.toList ++ String.utf8EncodeChar character := by
  unfold Console.wrote
  rw [Array.toList_appendList, Text.encode_singleton]

theorem writesScalars_of_output (outputs : program.effective machine.cursor = .ok .output) :
    machine.WritesScalars settings program := by
  refine { succeeds := ?succeeds, written := ?written, refused := ?refused }
  case succeeds =>
      constructor
      · intro unfailed
        by_cases writable : ∃ character, machine.state.tape.Shows character
        · obtain ⟨character, shows⟩ := writable
          exact ⟨character, shows, (error?_step_output_iff outputs shows).mp unfailed⟩
        · rw [step_output_of_not_shows outputs writable] at unfailed
          cases unfailed
      · rintro ⟨character, shows, room⟩
        exact (error?_step_output_iff outputs shows).mpr room
  case written =>
      intro later stepped
      by_cases writable : ∃ character, machine.state.tape.Shows character
      · obtain ⟨character, shows⟩ := writable
        have uncut : (machine.step settings program).error? ≠
            some (.stream .writeFailed) := by
          rw [stepped]
          nofun
        have performed := perform_uncut_of_step outputs uncut
        rw [perform_output_of_shows shows] at performed
        have put := Console.put_of_uncut (State.uncut_of_onConsole performed)
        rw [step_output_of_put outputs shows put] at stepped
        cases stepped
        exact ⟨character, shows, rfl, rfl, written_wrote_singleton _ _ _⟩
      · rw [step_output_of_not_shows outputs writable] at stepped
        cases stepped
  case refused => exact step_output_of_not_shows outputs

end Machine

/-! ### Pairs of input and output -/

namespace Command

def echoing (count : Nat) : List Command :=
  (List.replicate count [input, output]).flatten

theorem length_echoing (count : Nat) : (echoing count).length = 2 * count := by
  simp only [echoing, List.length_flatten, List.map_replicate, List.length_cons, List.length_nil,
    List.sum_replicate_nat]
  omega

theorem getElem?_echoing {count index : Nat} (early : index < count) :
    (echoing count)[2 * index]? = some input ∧
      (echoing count)[2 * index + 1]? = some output := by
  induction count generalizing index with
  | zero => cases early
  | succ count ih =>
      have whole : echoing (count + 1) = input :: output :: echoing count := rfl
      cases index with
      | zero => exact ⟨rfl, rfl⟩
      | succ index =>
          have further := ih (Nat.lt_of_succ_lt_succ early)
          rw [whole, Nat.mul_succ]
          exact further

end Command

theorem Program.command?_of_echoing (text : Text) {instructions : List Instruction}
    {count index : Nat} (listed : instructions.map Instruction.command = Command.echoing count)
    (early : index < count) :
    (ofInstructions text instructions).command? (2 * index + 1) = some .input ∧
      (ofInstructions text instructions).command? (2 * index + 2) = some .output := by
  obtain ⟨reads, writes⟩ := Command.getElem?_echoing early
  have inside : 2 * index + 1 < (Command.echoing count).length := by
    rw [Command.length_echoing]
    omega
  constructor
  · rw [command?_ofInstructions_succ text listed,
      List.getElem?_append_left (Nat.lt_of_succ_lt inside), reads]
  · rw [command?_ofInstructions_succ text listed, List.getElem?_append_left inside, writes]

namespace Machine

variable {settings : Settings} {program : Program} {machine : Machine} {text : Text}
  {instructions : List Instruction} {input echoed : Text} {character : Char}
  {count steps reads : Nat}

/-- How pairs of input and output end that have the characters to read: they come to the end
of the program, or to the output of the first character that is the highest. -/
structure Echoes (settings : Settings) (program : Program) (fresh : Machine)
    (characters : Text) : Prop where
  completes : Text.highest ∉ characters →
    ∃ final : Machine,
      final.state.console.sink.written.toList = characters.encode ∧
      ∀ fuel, 2 * characters.length + 2 < fuel →
        fresh.run settings program fuel = some (.stopped, final)
  reports : ∀ echoed unread, characters = echoed ++ Text.highest :: unread →
    Text.highest ∉ echoed → program.Sliceable →
      ∃ instruction cut final,
        program.instruction? (2 * echoed.length + 2) = some instruction ∧
        program.text.cut? instruction.span = some cut ∧
        final.state.console.sink.written.toList = Text.encode echoed ++
          (if echoed ≠ [] ∧ echoed.getLast? ≠ some '\n' then [lineFeed] else []) ∧
        ∀ fuel, 2 * echoed.length + 2 < fuel → fresh.run settings program fuel =
          some (.reported
            { lexeme := instruction.lexeme
              excerpt := Excerpt.ofCut cut
              pointer := 0
              message := (ExecutionError.outOfUnicodeRange 0x10FFFF).message }, final)

/-- So many steps, one instruction each, have read so many lines and written a text. -/
structure Echoed (settings : Settings) (program : Program) (input : Text)
    (steps reads : Nat) (echoed : Text) (machine : Machine) : Prop where
  reached : (onInput settings input).stepped? settings program steps = some machine
  before : (onInput settings input).RunningBefore settings program (steps + 1)
  cursor : machine.cursor = steps
  sound : machine.state.tape.Sound settings
  first : machine.state.tape.pointer = 0
  read : machine.state.console.HasRead input reads 0
  written : machine.state.console.sink.written.toList = echoed.encode
  midLine : machine.state.console.midLine = true ↔
    echoed ≠ [] ∧ echoed.getLast? ≠ some '\n'

namespace Echoed

theorem running (sofar : Echoed settings program input steps reads echoed machine) :
    machine.running = true :=
  sofar.before steps (Nat.lt_succ_self steps) machine sofar.reached

theorem effective (sofar : Echoed settings program input steps reads echoed machine)
    {command : Command} (found : program.command? steps = some command)
    (direct : command ≠ .again) : program.effective machine.cursor = .ok command := by
  rw [sofar.cursor]
  exact Program.effective_eq_ok found direct

theorem step_done (sofar : Echoed settings program input steps reads echoed machine)
    {later : Machine} (stepped : machine.step settings program = .done later)
    (goesOn : later.running = true) :
    (onInput settings input).stepped? settings program (steps + 1) = some later ∧
      (onInput settings input).RunningBefore settings program (steps + 1 + 1) := by
  have reached := stepped?_succ sofar.reached stepped
  exact ⟨reached, sofar.before.succ reached goesOn⟩

theorem begun (settings : Settings) (program : Program) (input : Text) :
    Echoed settings program input 1 0 [] { onInput settings input with cursor := 1 } := by
  have stepped := step_onInput settings program input
  exact
    { reached := stepped?_succ_of_done stepped 0
      before := .before rfl stepped (.one rfl)
      cursor := rfl
      sound := Tape.blank_sound settings
      first := rfl
      read := Console.ofStreams_hasRead input
      written := rfl
      midLine := ⟨nofun, fun nonempty => absurd rfl nonempty.1⟩ }

theorem after_input (sofar : Echoed settings program input steps reads echoed machine)
    (wide : 0x10FFFF < settings.variants) (found : program.command? steps = some .input) :
    ∃ later, Echoed settings program input (steps + 1) (reads + 1) echoed later ∧
      later.state.tape.current =
        (Text.inputCharacter ((Text.lines input)[reads]?.getD [])).toNat := by
  let character := Text.inputCharacter ((Text.lines input)[reads]?.getD [])
  have fits : (character.toNat : Int) ≤ settings.maximum := by
    have highest := Text.toNat_le_highest character
    unfold Settings.maximum
    omega
  have stored : machine.state.tape.storeCharacter settings character =
      .done (machine.state.tape.write character.toNat) := by
    unfold Tape.storeCharacter Settings.clampHigh
    rw [if_pos fits]
    rfl
  have performed : machine.state.perform settings .input =
      .done
        { tape := machine.state.tape.write character.toNat
          console := machine.state.console.prompted } := by
    rw [State.perform, State.input_eq_of_hasRead settings sofar.read]
    exact State.onTape_of_done stored _
  have stepped := step_done_of_plain (sofar.effective found (by decide)) (by decide) performed
  obtain ⟨reached, before⟩ := sofar.step_done stepped sofar.running
  have sound := sofar.sound.storeCharacter character
  rw [stored] at sound
  refine ⟨_,
    { reached
      before
      cursor := congrArg (· + 1) sofar.cursor
      sound
      first := sofar.first
      read := sofar.read.prompted
      written := sofar.written
      midLine := sofar.midLine }, Tape.current_write sofar.sound.inside _⟩

theorem after_output (sofar : Echoed settings program input steps reads echoed machine)
    (shows : machine.state.tape.Shows character)
    (found : program.command? steps = some .output) :
    ∃ later, Echoed settings program input (steps + 1) reads (echoed ++ [character]) later := by
  have put : machine.state.console.put character =
      .done (machine.state.console.wrote [character] (character != '\n')) :=
    sofar.read.faultless.write_eq _ _
  have stepped : machine.step settings program = .done _ :=
    step_output_of_put (sofar.effective found (by decide)) shows put
  obtain ⟨reached, before⟩ := sofar.step_done stepped sofar.running
  refine ⟨_,
    { reached
      before
      cursor := congrArg (· + 1) sofar.cursor
      sound := sofar.sound
      first := sofar.first
      read := sofar.read.of_same (sofar.read.faultless.wrote _ _) rfl rfl
      written := ?written
      midLine := ?midLine }⟩
  case written =>
      rw [written_wrote_singleton, sofar.written, Text.encode_append, Text.encode_singleton]
  case midLine => simp [Console.wrote]

end Echoed

section

variable {characters unread : Text}

theorem exists_typed (wide : 0x10FFFF < settings.variants)
    (listed : instructions.map Instruction.command = Command.echoing count)
    (sofar : Echoed settings (Program.ofInstructions text instructions) input
      (2 * echoed.length + 1) echoed.length echoed machine)
    (early : echoed.length < count)
    (read : Text.ReadInTurn input (echoed ++ character :: unread)) :
    ∃ typed, Echoed settings (Program.ofInstructions text instructions) input
        (2 * echoed.length + 2) (echoed.length + 1) echoed typed ∧
      typed.state.tape.current = character.toNat := by
  obtain ⟨typed, typing, code⟩ :=
    sofar.after_input wide (Program.command?_of_echoing text listed early).1
  rw [← read.of_append.2] at code
  exact ⟨typed, typing, code⟩

theorem exists_echoed (text : Text) (wide : 0x10FFFF < settings.variants)
    (listed : instructions.map Instruction.command = Command.echoing count)
    (within : echoed.length ≤ count) (read : Text.ReadInTurn input echoed)
    (writable : Text.highest ∉ echoed) :
    ∃ machine, Echoed settings (Program.ofInstructions text instructions) input
      (2 * echoed.length + 1) echoed.length echoed machine := by
  induction echoed using List.reverseRecOn with
  | nil => exact ⟨_, .begun settings _ input⟩
  | append_singleton echoed character ih =>
      rw [List.length_append, List.length_singleton] at within
      rw [List.mem_append, List.mem_singleton, not_or] at writable
      obtain ⟨machine, sofar⟩ := ih (Nat.le_of_succ_le within) read.of_append.1 writable.1
      obtain ⟨typed, typing, code⟩ := exists_typed wide listed sofar within read
      have shows : typed.state.tape.Shows character :=
        { code
          bounded := by
            have bounded := Text.toNat_lt_highest (Ne.symm writable.2)
            omega }
      obtain ⟨later, further⟩ :=
        typing.after_output shows (Program.command?_of_echoing text listed within).2
      rw [List.length_append, List.length_singleton]
      exact ⟨later, further⟩

theorem exists_run_of_writable (text : Text) (wide : 0x10FFFF < settings.variants)
    (listed : instructions.map Instruction.command = Command.echoing characters.length)
    (read : Text.ReadInTurn input characters) (writable : Text.highest ∉ characters) :
    ∃ final : Machine,
      final.state.console.sink.written.toList = characters.encode ∧
      ∀ fuel, 2 * characters.length + 2 < fuel →
        (onInput settings input).run settings (Program.ofInstructions text instructions) fuel =
          some (.stopped, final) := by
  obtain ⟨machine, sofar⟩ :=
    exists_echoed text wide listed (Nat.le_refl _) read writable
  have stops : (Program.ofInstructions text instructions).command? machine.cursor =
      some .stop := by
    rw [sofar.cursor, Program.command?_ofInstructions_succ text listed,
      ← Command.length_echoing, List.getElem?_append_right (Nat.le_refl _), Nat.sub_self]
    rfl
  let halted : Machine := { machine with cursor := machine.cursor + 1, running := false }
  have stepped : machine.step settings (Program.ofInstructions text instructions) =
      .done halted := step_stop stops
  have faultless : halted.state.Faultless := sofar.read.faultless
  refine ⟨halted.finish.2, ?_, ?_⟩
  · rw [console_finish]
    exact sofar.written
  · intro fuel enough
    rw [run_eq_finish sofar.reached sofar.before stepped rfl enough, finish_eq faultless]

theorem exists_run_of_highest (wide : 0x10FFFF < settings.variants)
    (listed : instructions.map Instruction.command = Command.echoing count)
    (early : echoed.length < count)
    (read : Text.ReadInTurn input (echoed ++ Text.highest :: unread))
    (writable : Text.highest ∉ echoed)
    (sliceable : (Program.ofInstructions text instructions).Sliceable) :
    ∃ instruction cut, ∃ final : Machine,
      (Program.ofInstructions text instructions).instruction? (2 * echoed.length + 2) =
        some instruction ∧
      text.cut? instruction.span = some cut ∧
      final.state.console.sink.written.toList = Text.encode echoed ++
        (if echoed ≠ [] ∧ echoed.getLast? ≠ some '\n' then [lineFeed] else []) ∧
      ∀ fuel, 2 * echoed.length + 2 < fuel →
        (onInput settings input).run settings (Program.ofInstructions text instructions) fuel =
          some (.reported
            { lexeme := instruction.lexeme
              excerpt := Excerpt.ofCut cut
              pointer := 0
              message := (ExecutionError.outOfUnicodeRange 0x10FFFF).message }, final) := by
  obtain ⟨machine, sofar⟩ :=
    exists_echoed text wide listed (Nat.le_of_lt early) read.of_append.1 writable
  obtain ⟨typed, typing, code⟩ := exists_typed wide listed sofar early read
  have unwritable : ¬ ∃ character, typed.state.tape.Shows character := by
    rintro ⟨character, shows⟩
    have bounded := shows.bounded
    rw [code] at bounded
    exact absurd bounded (by decide)
  have outputs := (Program.command?_of_echoing text listed early).2
  have failed : typed.step settings (Program.ofInstructions text instructions) =
      .failed (.execution (.outOfUnicodeRange typed.state.tape.current)) typed :=
    step_output_of_not_shows (typing.effective outputs (by decide)) unwritable
  rw [code] at failed
  obtain ⟨instruction, cut, found, sliced, placed⟩ :=
    exists_cut_of_step_execution sliceable failed
  have faultless : typed.state.Faultless := typing.read.faultless
  rw [typing.cursor] at found
  rw [typing.first] at placed
  refine ⟨instruction, cut, typed.afterReport, found, sliced, ?written, ?reported⟩
  case written =>
      rw [written_afterReport, Array.toList_appendList, typing.written]
      simp only [typing.midLine]
  case reported =>
      intro fuel enough
      rw [run_eq_report typing.reached typing.before failed enough, report_eq faultless placed]
      rfl

end

theorem echoes_of_pairs (text : Text) (input : Text) (wide : 0x10FFFF < settings.variants)
    (listed : instructions.map Instruction.command = Command.echoing count) :
    (∃ characters : Text,
      (∀ other : Text, other.length = count ∧ Text.ReadInTurn input other ↔
        other = characters) ∧
      Echoes settings (Program.ofInstructions text instructions) (onInput settings input)
        characters) ∧
      ∀ (others : Settings) (program : Program) (machine : Machine),
        program.effective machine.cursor = .ok .output →
          machine.WritesScalars others program := by
  refine ⟨⟨Text.inTurn input count, fun _ => Text.readInTurn_iff, ?echoes⟩, ?scalars⟩
  case echoes =>
      obtain ⟨counted, read⟩ := Text.readInTurn_iff.mpr (rfl : _ = Text.inTurn input count)
      refine { completes := ?completes, reports := ?reports }
      case completes =>
          rw [← counted] at listed
          exact exists_run_of_writable text wide listed read
      case reports =>
          intro echoed unread parts writable sliceable
          rw [parts] at counted read
          rw [List.length_append, List.length_cons] at counted
          exact exists_run_of_highest wide listed (by omega) read writable sliceable
  case scalars =>
      intro others program machine outputs
      exact writesScalars_of_output outputs

def characterCell : Settings :=
  { oneCell with
    variants := 0x110000
    two_le_variants := by decide
    variants_le := by decide }

def fourPairs : List Instruction :=
  [.startingAt 0 .input [','], .startingAt 1 .output ['.'], .startingAt 2 .input [','],
    .startingAt 3 .output ['.'], .startingAt 4 .input [','], .startingAt 5 .output ['.'],
    .startingAt 6 .input [','], .startingAt 7 .output ['.']]

/-- An empty line, a letter behind spaces, the highest character, and no line any more. -/
def highestOnThirdLine : Text :=
  "\r\n  é \n".toList ++ [Text.highest]

/-- The third output is reported, behind the line that the second one has left open.  A cell
with a surrogate is refused as well. -/
theorem fourPairs_echoes :
    (∃ diagnostic final,
        (onInput characterCell highestOnThirdLine).run characterCell
            (Program.ofInstructions ",.,.,.,.".toList fourPairs) 7 =
          some (.reported diagnostic, final) ∧
        diagnostic.lexeme = ['.'] ∧
        diagnostic.excerpt.before = ",.,.,".toList ∧
        final.state.console.sink.written.toList = Text.encode "\né\n".toList) ∧
      ∀ machine : Machine, machine.cursor = 2 → machine.state.tape.current = 0xD800 →
        machine.step characterCell (Program.ofInstructions ",.,.,.,.".toList fourPairs) =
          .failed (.execution (.outOfUnicodeRange 0xD800)) machine := by
  have wide : 0x10FFFF < characterCell.variants := by decide
  have listed : fourPairs.map Instruction.command = Command.echoing 4 := rfl
  obtain ⟨⟨characters, same, echoes⟩, scalars⟩ :=
    echoes_of_pairs ",.,.,.,.".toList highestOnThirdLine wide listed
  constructor
  · have read : characters = ['\n', 'é'] ++ Text.highest :: ['\n'] :=
      ((same _).mp (Text.readInTurn_iff.mpr rfl)).symm
    obtain ⟨instruction, cut, final, found, sliced, written, reported⟩ :=
      echoes.reports _ _ read (by decide) (Program.sliceable_of_body (by decide))
    cases found
    cases sliced
    exact ⟨_, final, reported 7 (by decide), rfl, rfl, written⟩
  · intro machine here surrogate
    have outputs : (Program.ofInstructions ",.,.,.,.".toList fourPairs).effective
        machine.cursor = .ok .output := by
      rw [here]
      rfl
    have refused := (scalars characterCell _ machine outputs).refused (by
      rintro ⟨character, shows⟩
      have valid : character.toNat.isValidChar := character.valid
      have code := shows.code
      rw [surrogate] at code
      unfold Nat.isValidChar at valid
      omega)
    rw [surrogate] at refused
    exact refused

end Machine
end TapeDialects
