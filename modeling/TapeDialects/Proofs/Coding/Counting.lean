/-
Reading texts whose words are counted: by the markers of a run, by the
characters of a word, or by the letter that a word repeats.
-/

import TapeDialects.Coding.CountedRun
import TapeDialects.Coding.SelfRepetition
import TapeDialects.Coding.WordLength
import TapeDialects.Proofs.Text.Word

namespace TapeDialects

namespace Command

def HasCode (command : Command) (code : Nat) : Prop :=
  0 < code ∧ basic[code - 1]? = some command

variable {command : Command} {code : Nat}

theorem exists_hasCode_iff : (∃ code, command.HasCode code) ↔ command ∈ basic := by
  rw [List.mem_iff_getElem?]
  constructor
  · intro coded
    rcases coded with ⟨code, -, found⟩
    exact ⟨code - 1, found⟩
  · intro listed
    rcases listed with ⟨index, found⟩
    exact ⟨index + 1, Nat.succ_pos index, found⟩

theorem exists_coded_word_iff (write : Nat → Text) :
    (∃ word, ∃ code, command.HasCode code ∧ word = write code) ↔ command ∈ basic := by
  rw [← exists_hasCode_iff]
  constructor
  · intro spellable
    rcases spellable with ⟨word, code, coded, -⟩
    exact ⟨code, coded⟩
  · intro codable
    rcases codable with ⟨code, coded⟩
    exact ⟨write code, code, coded, rfl⟩

theorem HasCode.le_length (coded : command.HasCode code) : code ≤ basic.length := by
  rcases coded with ⟨positive, found⟩
  rcases List.getElem?_eq_some_iff.mp found with ⟨bounded, -⟩
  omega

theorem HasCode.ofCode_eq (coded : command.HasCode code) : ofCode code = command := by
  have bounded := coded.le_length
  rcases coded with ⟨positive, found⟩
  have within : code - 1 < basic.length := by omega
  unfold ofCode
  rw [Nat.mod_eq_of_lt within, List.getD_eq_getElem?_getD, found]
  rfl

end Command

namespace RunFormat

variable {format : RunFormat}

def Distinct (format : RunFormat) : Prop :=
  format.terminator ≠ format.marker ∧ Text.isSpace format.marker = false ∧
    Text.isSpace format.terminator = false

instance (format : RunFormat) : Decidable format.Distinct :=
  inferInstanceAs (Decidable (_ ∧ _))

def Spells (format : RunFormat) (command : Command) (word : Text) : Prop :=
  ∃ code, command.HasCode code ∧
    word = List.replicate code format.marker ++ [format.terminator]

theorem exists_spells_iff {command : Command} :
    (∃ word, format.Spells command word) ↔ command ∈ Command.basic :=
  Command.exists_coded_word_iff _

theorem close_of_le (format : RunFormat) {run : OpenRun}
    (few : run.markers ≤ Command.basic.length) :
    ∃ instruction, instruction.command = Command.ofCode run.markers ∧
      run.close format = [instruction] := by
  have once : run.rounds format.cycles = 1 := by
    unfold OpenRun.rounds
    split
    · rw [Nat.div_eq_of_lt (Nat.lt_of_le_of_lt (Nat.sub_le_sub_right few 1) (by decide))]
    · rfl
  unfold OpenRun.close
  rw [once]
  exact ⟨_, rfl, rfl⟩

theorem tokenizeFrom_space (distinct : format.Distinct) {position : Nat}
    {character : Char} (space : Text.isSpace character = true) (rest : Text) :
    format.tokenizeFrom position none (character :: rest) =
      format.tokenizeFrom (position + character.utf8Size) none rest := by
  have unmarked : character ≠ format.marker := by
    intro same
    rw [same, distinct.2.1] at space
    cases space
  have unclosed : character ≠ format.terminator := by
    intro same
    rw [same, distinct.2.2] at space
    cases space
  rw [tokenizeFrom, if_neg unmarked, if_neg unclosed]
  rfl

theorem tokenizeFrom_markers (format : RunFormat) (count position : Nat) (run : OpenRun)
    (rest : Text) :
    ∃ later opened, OpenRun.markers opened = run.markers + count ∧
      format.tokenizeFrom position (some run)
          (List.replicate count format.marker ++ rest) =
        format.tokenizeFrom later (some opened) rest := by
  induction count generalizing position run with
  | zero => exact ⟨position, run, rfl, rfl⟩
  | succ count ih =>
      rw [List.replicate_succ, List.cons_append, tokenizeFrom, if_pos rfl]
      rcases ih (position + format.marker.utf8Size)
          (OpenRun.mark position format.marker (some run))
        with ⟨later, opened, counted, same⟩
      refine ⟨later, opened, ?_, same⟩
      have grown : (OpenRun.mark position format.marker (some run)).markers =
          run.markers + 1 := rfl
      omega

theorem tokenizeFrom_spells (distinct : format.Distinct) {command : Command}
    {word : Text} (spelled : format.Spells command word) (position : Nat) (rest : Text) :
    ∃ instruction later, Instruction.command instruction = command ∧
      format.tokenizeFrom position none (word ++ rest) =
        instruction :: format.tokenizeFrom later none rest := by
  rcases spelled with ⟨code, coded, same⟩
  subst same
  cases code with
  | zero => exact absurd coded.1 (Nat.lt_irrefl 0)
  | succ count =>
      rcases tokenizeFrom_markers format count (position + format.marker.utf8Size)
          (OpenRun.mark position format.marker none) ([format.terminator] ++ rest)
        with ⟨later, opened, counted, marked⟩
      have markers : opened.markers = count + 1 := by
        have opens : (OpenRun.mark position format.marker none).markers = 1 := rfl
        omega
      rcases format.close_of_le (markers ▸ coded.le_length)
        with ⟨instruction, named, closed⟩
      refine ⟨instruction, later + format.terminator.utf8Size, ?_, ?_⟩
      · rw [named, markers, coded.ofCode_eq]
      · rw [List.replicate_succ, List.append_assoc, List.cons_append, tokenizeFrom,
          if_pos rfl, marked, List.singleton_append, tokenizeFrom, if_neg distinct.1,
          if_pos rfl, Option.map_some, Option.getD_some, closed]
        rfl

theorem map_command_tokenize (distinct : format.Distinct) {commands : List Command}
    {text : Text} (written : Written format.Spells commands text) :
    (format.tokenize text).map Instruction.command = commands := by
  have reader : ReadsWords format.Spells (fun _ _ => True)
      (fun position => format.tokenizeFrom position none) := by
    refine { ends := ?ends, passes := ?passes, takes := ?takes }
    case ends =>
        intro position
        rfl
    case passes =>
        intro position character rest _ space
        exact ⟨position + character.utf8Size, trivial,
          tokenizeFrom_space distinct space rest⟩
    case takes =>
        intro position command word rest _ spelled _
        rcases tokenizeFrom_spells distinct spelled position rest
          with ⟨instruction, later, named, taken⟩
        exact ⟨instruction, later, named, trivial, taken⟩
  exact written.map_command_read reader 0 trivial

end RunFormat

/-! ### Characters and repetitions of words -/

namespace Text

variable {spells : Command → Text → Prop}

theorem map_command_wordsFrom {read : Word → Option Instruction}
    (spelled : ∀ command word, spells command word →
      word ≠ [] ∧ (∀ character ∈ word, isSpace character = false) ∧
        ∀ position, ∃ instruction, Instruction.command instruction = command ∧
          read { start := position, letters := word } = some instruction)
    {commands : List Command} {text : Text} (written : Written spells commands text) :
    (text.words.filterMap read).map Instruction.command = commands := by
  have reader : ReadsWords spells (fun _ _ => True)
      (fun position rest => (wordsFrom position rest).filterMap read) := by
    refine { ends := ?ends, passes := ?passes, takes := ?takes }
    case ends =>
        intro position
        rfl
    case passes =>
        intro position character rest _ space
        exact ⟨position + character.utf8Size, trivial, by rw [wordsFrom_space space]⟩
    case takes =>
        intro position command word rest _ stands apart
        rcases spelled command word stands with ⟨nonempty, solid, readable⟩
        rcases readable position with ⟨instruction, named, found⟩
        refine ⟨instruction, position + word.size, named, trivial, ?_⟩
        rw [wordsFrom_word nonempty solid apart, List.filterMap_cons_some found]
  exact written.map_command_read reader 0 trivial

end Text

namespace WordLength

def Spells (command : Command) (word : Text) : Prop :=
  command.HasCode word.length ∧ ∀ character ∈ word, Text.isSpace character = false

theorem exists_spells_iff {command : Command} :
    (∃ word, Spells command word) ↔ command ∈ Command.basic := by
  rw [← Command.exists_hasCode_iff]
  constructor
  · intro spellable
    rcases spellable with ⟨word, coded, -⟩
    exact ⟨word.length, coded⟩
  · intro codable
    rcases codable with ⟨code, coded⟩
    refine ⟨List.replicate code 'a', ?_, ?_⟩
    · rw [List.length_replicate]
      exact coded
    · intro character member
      rw [List.eq_of_mem_replicate member]
      rfl

theorem map_command_tokenize {commands : List Command} {text : Text}
    (written : Written Spells commands text) :
    (tokenize text).map Instruction.command = commands := by
  apply Text.map_command_wordsFrom _ written
  intro command word spelled
  rcases spelled with ⟨coded, solid⟩
  refine ⟨List.length_pos_iff.mp coded.1, solid, ?_⟩
  intro position
  unfold instruction?
  rw [if_pos coded.le_length]
  exact ⟨_, coded.ofCode_eq, rfl⟩

end WordLength

namespace SelfRepetition

def unit : Char := 'a'

def Spells (command : Command) (word : Text) : Prop :=
  ∃ code, command.HasCode code ∧ word = List.replicate code unit

theorem exists_spells_iff {command : Command} :
    (∃ word, Spells command word) ↔ command ∈ Command.basic :=
  Command.exists_coded_word_iff _

theorem repetitions_replicate {code : Nat} (positive : 0 < code)
    (bounded : code ≤ Command.basic.length) :
    repetitions (List.replicate code unit) = code := by
  have each : ∀ count < Command.basic.length,
      repetitions (List.replicate (count + 1) unit) = count + 1 := by
    decide
  have found := each (code - 1) (by omega)
  rw [Nat.sub_add_cancel positive] at found
  exact found

theorem map_command_tokenize {commands : List Command} {text : Text}
    (written : Written Spells commands text) :
    (tokenize text).map Instruction.command = commands := by
  unfold tokenize
  rw [← List.filterMap_eq_map (f := instruction)]
  apply Text.map_command_wordsFrom _ written
  intro command word spelled
  rcases spelled with ⟨code, coded, same⟩
  subst same
  refine ⟨?_, ?_, ?_⟩
  · exact List.length_pos_iff.mp (List.length_replicate ▸ coded.1)
  · intro character member
    rw [List.eq_of_mem_replicate member]
    rfl
  · intro position
    refine ⟨_, ?_, rfl⟩
    unfold instruction
    rw [repetitions_replicate coded.1 coded.le_length, coded.ofCode_eq]
    rfl

end SelfRepetition
end TapeDialects
