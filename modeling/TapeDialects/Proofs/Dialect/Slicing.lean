/-
Readers that check every slice of the text.

The readers of dialects go down the characters of a text, and nothing that they
do can fail.  Those of this file keep an offset and cut what they look at out of
the text; a code has to be at least one to have a command, and a part that a word
is compared with must not be empty.  Where such a check fails there is no
result.  The main statement is that none ever fails, and that what is read is the
same.
-/

import TapeDialects.Proofs.Dialect.Order
import TapeDialects.Proofs.Lexeme.Separable

namespace TapeDialects

namespace Text

def before? (text : Text) (offset : Nat) : Option Text :=
  (text.splitAt? offset).map Prod.fst

def after? (text : Text) (offset : Nat) : Option Text :=
  (text.splitAt? offset).map Prod.snd

/-- How far a reader goes over so many characters; it never stays where it is. -/
def stride (count : Nat) (rest : Text) : Nat :=
  max 1 (size (rest.take count))

variable {text front back : Text} {offset : Nat}

theorem before?_of_parts (parts : text = front ++ back) (reached : offset = front.size) :
    text.before? offset = some front := by
  rw [before?, splitAt?_eq_some_iff.mpr ⟨parts, reached.symm⟩, Option.map_some]

theorem after?_of_parts (parts : text = front ++ back) (reached : offset = front.size) :
    text.after? offset = some back := by
  rw [after?, splitAt?_eq_some_iff.mpr ⟨parts, reached.symm⟩, Option.map_some]

theorem stride_pos (count : Nat) (rest : Text) : 0 < stride count rest :=
  Nat.le_max_left 1 _

theorem stride_eq_size {count : Nat} {rest : Text} (counted : 0 < count) (filled : rest ≠ []) :
    stride count rest = size (rest.take count) := by
  have taken : rest.take count ≠ [] := by
    rw [Ne, List.take_eq_nil_iff, not_or]
    exact ⟨Nat.ne_of_gt counted, filled⟩
  exact Nat.max_eq_right (size_pos_of_ne_nil taken)

end Text

def Command.checkedOfCode (code : Nat) : Option Command :=
  if 0 < code then basic[(code - 1) % basic.length]? else none

theorem Command.checkedOfCode_eq {code : Nat} (positive : 0 < code) :
    checkedOfCode code = some (ofCode code) := by
  have bounded : (code - 1) % basic.length < basic.length := Nat.mod_lt _ (by decide)
  rw [checkedOfCode, if_pos positive, ofCode, List.getD_eq_getElem?_getD,
    List.getElem?_eq_getElem bounded, Option.getD_some]

theorem Instruction.ofSpan?_of_parts {text front lexeme back : Text} {position : Nat}
    (parts : text = front ++ lexeme ++ back) (reached : position = front.size)
    (command : Command) :
    ofSpan? text command { start := position, stop := position + lexeme.size } =
      some (startingAt position command lexeme) := by
  rw [parts, reached]
  exact ofSpan?_startingAt front lexeme back command

namespace Lexer

def checkedReadFrom (table : List Entry) (text : Text) (cursor : Nat) :
    Option (List Instruction) :=
  if _inside : cursor < text.size then do
    let rest ← text.after? cursor
    match _opened : Entry.find? table rest with
    | some entry => do
        let next := cursor + entry.lexeme.size
        let instruction ← Instruction.ofSpan? text entry.command { start := cursor, stop := next }
        let later ← checkedReadFrom table text next
        some (instruction :: later)
    | none => checkedReadFrom table text (cursor + Text.stride 1 rest)
  else
    some []
  termination_by text.size - cursor
  decreasing_by
    · have spelled := Text.size_pos_of_ne_nil (Entry.opens_of_find? _opened).2.1
      exact Nat.sub_lt_sub_left _inside (Nat.lt_add_of_pos_right spelled)
    · exact Nat.sub_lt_sub_left _inside (Nat.lt_add_of_pos_right (Text.stride_pos 1 rest))

theorem checkedReadFrom_eq {table : List Entry} {text front rest : Text} {cursor : Nat}
    (parts : text = front ++ rest) (reached : cursor = front.size) :
    checkedReadFrom table text cursor =
      some (readAll table { position := cursor, rest }) := by
  generalize bound : rest.length = length
  induction length using Nat.strongRecOn generalizing front rest cursor with
  | ind length ih =>
      have sized : text.size = cursor + rest.size := by
        rw [parts, Text.size_append, reached]
      unfold checkedReadFrom
      cases rest with
      | nil =>
          rw [dif_neg (by rw [sized]; exact Nat.lt_irrefl _)]
          have ended : next table { position := cursor, rest := [] } =
              (none, { position := cursor, rest := [] }) := rfl
          rw [readAll_of_next_none ended]
      | cons character rest =>
          have wide := character.utf8Size_pos
          rw [dif_pos (by rw [sized, Text.size_cons]; omega), Text.after?_of_parts parts reached]
          simp only [Option.bind_eq_bind, Option.bind_some]
          split
          · next entry opened =>
              have opens := (Entry.opens_of_find? opened).2
              have cut : text = front ++ entry.lexeme ++
                  (character :: rest).drop entry.lexeme.length := by
                rw [List.append_assoc, ← opens.eq_append_drop, parts]
              have further : cursor + entry.lexeme.size = (front ++ entry.lexeme).size := by
                rw [Text.size_append, reached]
              have shorter : ((character :: rest).drop entry.lexeme.length).length < length := by
                rw [← bound]
                exact opens.length_drop_lt
              rw [Instruction.ofSpan?_of_parts cut reached, ih _ shorter cut further rfl,
                readAll_of_find?_eq_some opened]
              rfl
          · next missed =>
              have passed : text = (front ++ [character]) ++ rest :=
                parts.trans (List.append_cons front character rest)
              have strode : Text.stride 1 (character :: rest) = character.utf8Size :=
                Text.stride_eq_size Nat.one_pos (List.cons_ne_nil _ _)
              have further : cursor + character.utf8Size = (front ++ [character]).size := by
                rw [Text.size_append_singleton, reached]
              rw [strode, readAll_of_find?_eq_none missed]
              exact ih _ (by rw [← bound]; exact Nat.lt_add_one _) passed further rfl

end Lexer

namespace Wildcard

def checkedIsAlone (text : Text) (span : Span) : Option Bool := do
  let before ← text.before? span.start
  let after ← text.after? span.stop
  some (isBorder before.getLast? && isBorder after.head?)

def checkedInstructionAt (text : Text) (cursor : Nat) (rest : Text) :
    Option (Option Instruction) :=
  if opensWord rest then
    match wordCommand? rest with
    | some command => do
        let span := { start := cursor, stop := cursor + Text.stride 4 rest }
        let instruction ← Instruction.ofSpan? text command span
        some (some instruction)
    | none => some none
  else if rest.head? = some star then do
    let span := { start := cursor, stop := cursor + Text.stride 1 rest }
    let alone ← checkedIsAlone text span
    let instruction ← Instruction.ofSpan? text .again span
    some (if alone then some instruction else none)
  else
    some none

def checkedTokenizeFrom (text : Text) (cursor : Nat) : Option (List Instruction) :=
  if _inside : cursor < text.size then do
    let rest ← text.after? cursor
    let here ← checkedInstructionAt text cursor rest
    let later ← checkedTokenizeFrom text
      (cursor + Text.stride (if opensWord rest then 4 else 1) rest)
    some (here.toList ++ later)
  else
    some []
  termination_by text.size - cursor
  decreasing_by
    exact Nat.sub_lt_sub_left _inside (Nat.lt_add_of_pos_right (Text.stride_pos _ rest))

variable {text front rest : Text} {cursor : Nat} {character : Char}

theorem checkedIsAlone_eq (parts : text = front ++ character :: rest)
    (reached : cursor = front.size) :
    checkedIsAlone text { start := cursor, stop := cursor + character.utf8Size } =
      some (isBorder front.getLast? && isBorder rest.head?) := by
  have passed : text = (front ++ [character]) ++ rest :=
    parts.trans (List.append_cons front character rest)
  have further : cursor + character.utf8Size = (front ++ [character]).size := by
    rw [Text.size_append_singleton, reached]
  unfold checkedIsAlone
  rw [Text.before?_of_parts parts reached, Text.after?_of_parts passed further]
  rfl

theorem checkedInstructionAt_eq (parts : text = front ++ character :: rest)
    (reached : cursor = front.size) :
    checkedInstructionAt text cursor (character :: rest) =
      some (instructionAt? cursor front.getLast? (character :: rest)) := by
  have filled : character :: rest ≠ [] := List.cons_ne_nil _ _
  unfold checkedInstructionAt instructionAt?
  by_cases opens : opensWord (character :: rest)
  · rw [if_pos opens, if_pos opens]
    cases known : wordCommand? (character :: rest) with
    | none => rfl
    | some command =>
        have cut : text = front ++ (character :: rest).take 4 ++ (character :: rest).drop 4 := by
          rw [List.append_assoc, List.take_append_drop, parts]
        simp only [Text.stride_eq_size (Nat.zero_lt_succ 3) filled]
        rw [Instruction.ofSpan?_of_parts cut reached]
        rfl
  · rw [if_neg opens, if_neg opens]
    have width : Text.stride 1 (character :: rest) = character.utf8Size :=
      Text.stride_eq_size Nat.one_pos filled
    have cut : text = front ++ [character] ++ rest :=
      parts.trans (List.append_cons front character rest)
    have placed := Instruction.ofSpan?_of_parts cut reached .again
    rw [Text.size_cons, Text.size_nil, Nat.add_zero] at placed
    simp only [List.head?_cons, Option.some.injEq, width, checkedIsAlone_eq parts reached,
      Option.bind_eq_bind, Option.bind_some, placed, Bool.and_eq_true]
    by_cases starred : character = star
    · simp only [starred, true_and, if_true]
    · simp only [starred, false_and, if_false]

theorem tokenizeFrom_taken (previous : Option Char) (taken : Nat) (rest : Text) :
    tokenizeFrom cursor previous taken rest =
      tokenizeFrom (cursor + Text.size (rest.take taken))
        ((rest.take taken).getLast?.or previous) 0 (rest.drop taken) := by
  induction taken generalizing cursor previous rest with
  | zero => rfl
  | succ taken ih =>
      cases rest with
      | nil => rfl
      | cons character rest =>
          rw [tokenizeFrom, ih, List.take_succ_cons, List.drop_succ_cons, Text.size_cons,
            Nat.add_assoc, List.getLast?_cons]
          cases (rest.take taken).getLast? <;> rfl

theorem checkedTokenizeFrom_eq (parts : text = front ++ rest) (reached : cursor = front.size) :
    checkedTokenizeFrom text cursor = some (tokenizeFrom cursor front.getLast? 0 rest) := by
  generalize bound : rest.length = length
  induction length using Nat.strongRecOn generalizing front rest cursor with
  | ind length ih =>
      have sized : text.size = cursor + rest.size := by
        rw [parts, Text.size_append, reached]
      unfold checkedTokenizeFrom
      cases rest with
      | nil =>
          rw [dif_neg (by rw [sized]; exact Nat.lt_irrefl _)]
          rfl
      | cons character rest =>
          have wide := character.utf8Size_pos
          have inside : cursor < text.size := by
            rw [sized, Text.size_cons]
            omega
          generalize counted : (if opensWord (character :: rest) then 3 else 0) = taken
          have whole : (if opensWord (character :: rest) then 4 else 1) = taken + 1 := by
            rw [← counted]
            split <;> rfl
          have stride := Text.stride_eq_size taken.succ_pos (List.cons_ne_nil character rest)
          have passed : text = (front ++ (character :: rest).take (taken + 1)) ++
              rest.drop taken := by
            rw [List.append_assoc, ← List.drop_succ_cons, List.take_append_drop, parts]
          have further : cursor + Text.size ((character :: rest).take (taken + 1)) =
              (front ++ (character :: rest).take (taken + 1)).size := by
            rw [Text.size_append, reached]
          have shorter : (rest.drop taken).length < length := by
            rw [← bound, List.length_drop, List.length_cons]
            omega
          have later := ih _ shorter passed further rfl
          rw [dif_pos inside, Text.after?_of_parts parts reached]
          simp only [Option.bind_eq_bind, Option.bind_some, checkedInstructionAt_eq parts reached,
            whole, stride, later]
          have behind : (front ++ (character :: rest).take (taken + 1)).getLast? =
              (rest.take taken).getLast?.or (some character) := by
            rw [List.getLast?_append, List.take_succ_cons, List.getLast?_cons]
            cases (rest.take taken).getLast? <;> rfl
          rw [tokenizeFrom, counted, tokenizeFrom_taken (some character) taken rest, behind,
            List.take_succ_cons, Text.size_cons, Nat.add_assoc]

end Wildcard

def OpenRun.checkedClose (format : RunFormat) (text : Text) (stop : Nat) (run : OpenRun) :
    Option (List Instruction) := do
  let command ← Command.checkedOfCode run.markers
  let instruction ← Instruction.ofSpan? text command { start := run.start, stop }
  some (List.replicate (run.rounds format.cycles) instruction)

namespace RunFormat

def checkedTokenizeFrom (format : RunFormat) (text : Text) (position : Nat)
    (run : Option OpenRun) : Text → Option (List Instruction)
  | [] => some []
  | character :: rest =>
      let later := position + character.utf8Size
      if character = format.marker then
        checkedTokenizeFrom format text later (some (OpenRun.mark position character run)) rest
      else if character = format.terminator then do
        let closed ← match run with
          | some opened => opened.checkedClose format text later
          | none => some []
        let others ← checkedTokenizeFrom format text later none rest
        some (closed ++ others)
      else
        checkedTokenizeFrom format text later (run.map (OpenRun.pass character)) rest

variable {format : RunFormat} {text before rest : Text} {position : Nat} {run : Option OpenRun}

def Marked (run : Option OpenRun) : Prop :=
  ∀ opened ∈ run, 0 < opened.markers

theorem marked_none : Marked none := nofun

theorem marked_mark (position : Nat) (marker : Char) (run : Option OpenRun) :
    Marked (some (OpenRun.mark position marker run)) := by
  intro opened member
  cases member
  cases run with
  | none => exact Nat.one_pos
  | some run => exact Nat.succ_pos run.markers

theorem marked_pass (marked : Marked run) (character : Char) :
    Marked (run.map (OpenRun.pass character)) := by
  intro opened member
  cases run with
  | none => cases member
  | some run =>
      cases member
      exact marked run rfl

theorem checkedClose_eq {opened : OpenRun} (marked : Marked (some opened))
    (holds : Holds before (some opened))
    (parts : text = before ++ [format.terminator] ++ rest) (reached : position = before.size) :
    opened.checkedClose format text (position + format.terminator.utf8Size) =
      some (opened.close format) := by
  obtain ⟨front, read, started⟩ := holds opened rfl
  have cut : text = front ++ (opened.reversed.reverse ++ [format.terminator]) ++ rest := by
    rw [parts, read, List.append_assoc front]
  have stop : position + format.terminator.utf8Size =
      opened.start + Text.size (opened.reversed.reverse ++ [format.terminator]) := by
    rw [reached, read, started, Text.size_append, Text.size_append, Nat.add_assoc]
    rfl
  unfold OpenRun.checkedClose
  rw [Command.checkedOfCode_eq (marked opened rfl), stop]
  simp only [Option.bind_eq_bind, Option.bind_some, Instruction.ofSpan?_of_parts cut started]
  rfl

theorem checkedTokenizeFrom_eq (parts : text = before ++ rest) (reached : position = before.size)
    (holds : Holds before run) (marked : Marked run) :
    format.checkedTokenizeFrom text position run rest =
      some (format.tokenizeFrom position run rest) := by
  induction rest generalizing before position run with
  | nil => rfl
  | cons character rest ih =>
      have laterParts : text = (before ++ [character]) ++ rest :=
        parts.trans (List.append_cons before character rest)
      have laterReached : position + character.utf8Size = (before ++ [character]).size := by
        rw [Text.size_append_singleton, reached]
      unfold checkedTokenizeFrom tokenizeFrom
      by_cases marks : character = format.marker
      · simp only [if_pos marks]
        exact ih laterParts laterReached (holds_mark holds reached) (marked_mark _ _ _)
      · simp only [if_neg marks]
        by_cases closes : character = format.terminator
        · subst closes
          simp only [if_true, Option.bind_eq_bind,
            ih laterParts laterReached (holds_none _) marked_none, Option.bind_some]
          cases run with
          | none => rfl
          | some opened =>
              simp only [checkedClose_eq marked holds laterParts reached, Option.bind_some]
              rfl
        · simp only [if_neg closes]
          exact ih laterParts laterReached (holds_pass holds) (marked_pass marked character)

end RunFormat

def Word.checkedInstruction (text : Text) (code : Option Nat) (word : Word) :
    Option (Option Instruction) :=
  match code with
  | some code => do
      let command ← Command.checkedOfCode code
      let instruction ← Instruction.ofSpan? text command word.span
      some (some instruction)
  | none => some none

def Word.checkedInstructions (text : Text) (checkedCode : Text → Option (Option Nat)) :
    List Word → Option (List Instruction)
  | [] => some []
  | word :: words => do
      let code ← checkedCode word.letters
      let here ← word.checkedInstruction text code
      let later ← checkedInstructions text checkedCode words
      some (here.toList ++ later)

theorem Word.checkedInstruction_eq {text : Text} {word : Word} (listed : word ∈ text.words)
    {code : Option Nat} (positive : ∀ number ∈ code, 0 < number) :
    word.checkedInstruction text code = some (code.map fun number =>
      Instruction.startingAt word.start (Command.ofCode number) word.letters) := by
  cases code with
  | none => rfl
  | some number =>
      obtain ⟨before, after, parts, started⟩ := Text.parts_of_mem_wordsFrom listed
      rw [Nat.zero_add] at started
      have placed := Instruction.ofSpan?_of_parts parts started (Command.ofCode number)
      simp only [checkedInstruction, Command.checkedOfCode_eq (positive number rfl),
        Option.bind_eq_bind, Option.bind_some]
      exact congrArg (·.bind fun instruction => some (some instruction)) placed

theorem Word.checkedInstructions_eq {text : Text}
    {checkedCode : Text → Option (Option Nat)} {code? : Text → Option Nat}
    (coded : ∀ letters, letters ≠ [] → checkedCode letters = some (code? letters))
    (positive : ∀ letters, letters ≠ [] → ∀ code ∈ code? letters, 0 < code)
    {words : List Word} (listed : ∀ word ∈ words, word ∈ text.words) :
    checkedInstructions text checkedCode words =
      some (words.filterMap fun word => (code? word.letters).map fun code =>
        Instruction.startingAt word.start (Command.ofCode code) word.letters) := by
  induction words with
  | nil => rfl
  | cons word words ih =>
      obtain ⟨here, others⟩ := List.forall_mem_cons.mp listed
      have filled := Text.letters_ne_nil_of_mem_wordsFrom 0 text word here
      unfold checkedInstructions
      rw [coded word.letters filled, ih others, List.filterMap_cons]
      simp only [Option.bind_eq_bind, Option.bind_some,
        Word.checkedInstruction_eq here (positive word.letters filled)]
      cases code? word.letters <;> rfl

def WordLength.checkedTokenize (text : Text) : Option (List Instruction) :=
  Word.checkedInstructions text
    (fun letters =>
      some (if letters.length ≤ Command.basic.length then some letters.length else none))
    text.words

theorem WordLength.checkedTokenize_eq (text : Text) :
    checkedTokenize text = some (tokenize text) := by
  unfold checkedTokenize
  rw [Word.checkedInstructions_eq (fun _ _ => rfl) _ (fun _ listed => listed)]
  · apply congrArg (fun read => some (text.words.filterMap read))
    funext word
    unfold instruction?
    split <;> rfl
  · intro letters filled code member
    split at member
    · cases member
      exact List.length_pos_iff.mpr filled
    · cases member

namespace SelfRepetition

def checkedIsRepeated (count : Nat) (letters : Text) : Option Bool :=
  if letters.length % count = 0 ∧ letters.length / count = 0 then
    none
  else
    some (decide (IsRepeated count letters))

def checkedRepetitionsUpTo (letters : Text) : Nat → Option Nat
  | 0 => some 1
  | bound + 1 => do
      let repeated ← checkedIsRepeated (bound + 1) letters
      if repeated then some (bound + 1) else checkedRepetitionsUpTo letters bound

def checkedRepetitions (letters : Text) : Option Nat :=
  if letters = [] then some 1 else checkedRepetitionsUpTo letters Command.basic.length

def checkedTokenize (text : Text) : Option (List Instruction) :=
  Word.checkedInstructions text (fun letters => (checkedRepetitions letters).map some) text.words

theorem checkedIsRepeated_eq {letters : Text} (filled : letters ≠ []) (count : Nat) :
    checkedIsRepeated count letters = some (decide (IsRepeated count letters)) := by
  have long := List.length_pos_iff.mpr filled
  apply if_neg
  rintro ⟨whole, empty⟩
  have divided := Nat.div_add_mod letters.length count
  rw [whole, empty, Nat.mul_zero] at divided
  omega

theorem checkedRepetitionsUpTo_eq {letters : Text} (filled : letters ≠ []) (bound : Nat) :
    checkedRepetitionsUpTo letters bound = some (repetitionsUpTo letters bound) := by
  induction bound with
  | zero => rfl
  | succ bound ih =>
      unfold checkedRepetitionsUpTo repetitionsUpTo
      rw [checkedIsRepeated_eq filled, ih]
      simp only [Option.bind_eq_bind, Option.bind_some, decide_eq_true_eq]
      split <;> rfl

theorem repetitionsUpTo_pos (letters : Text) (bound : Nat) :
    0 < repetitionsUpTo letters bound := by
  induction bound with
  | zero => exact Nat.one_pos
  | succ bound ih =>
      unfold repetitionsUpTo
      split
      · exact bound.succ_pos
      · exact ih

theorem checkedTokenize_eq (text : Text) : checkedTokenize text = some (tokenize text) := by
  have coded : ∀ letters : Text, letters ≠ [] →
      (checkedRepetitions letters).map some = some (some (repetitions letters)) := by
    intro letters filled
    unfold checkedRepetitions repetitions
    rw [if_neg filled, if_neg filled, checkedRepetitionsUpTo_eq filled]
    rfl
  have positive : ∀ letters : Text, letters ≠ [] →
      ∀ code ∈ some (repetitions letters), 0 < code := by
    intro letters filled code member
    cases member
    unfold repetitions
    rw [if_neg filled]
    exact repetitionsUpTo_pos letters _
  unfold checkedTokenize tokenize
  rw [Word.checkedInstructions_eq coded positive (fun _ listed => listed), ← List.filterMap_eq_map]
  rfl

end SelfRepetition

def Reading.checkedTokenize (reading : Reading) (text : Text) : Option (List Instruction) :=
  match reading with
  | .unique table => Lexer.checkedReadFrom table text 0
  | .ranked table => Lexer.checkedReadFrom (RankedEntry.toTable table) text 0
  | .wildcard => Wildcard.checkedTokenizeFrom text 0
  | .countedRuns format => format.checkedTokenizeFrom text 0 none text
  | .wordLength => WordLength.checkedTokenize text
  | .selfRepetition => SelfRepetition.checkedTokenize text
  | .commented table opener closer =>
      (Lexer.checkedReadFrom table text 0).map
        (Comment.strip (Comment.ranges opener closer text))

theorem Reading.checkedTokenize_eq (reading : Reading) (text : Text) :
    reading.checkedTokenize text = some (reading.tokenize text) := by
  have whole : text = [] ++ text := (List.nil_append text).symm
  cases reading with
  | unique table => exact Lexer.checkedReadFrom_eq whole rfl
  | ranked table => exact Lexer.checkedReadFrom_eq whole rfl
  | wildcard => exact Wildcard.checkedTokenizeFrom_eq whole rfl
  | countedRuns format =>
      exact RunFormat.checkedTokenizeFrom_eq whole rfl (RunFormat.holds_none [])
        RunFormat.marked_none
  | wordLength => exact WordLength.checkedTokenize_eq text
  | selfRepetition => exact SelfRepetition.checkedTokenize_eq text
  | commented table opener closer =>
      exact congrArg (Option.map (Comment.strip (Comment.ranges opener closer text)))
        (Lexer.checkedReadFrom_eq whole rfl)

end TapeDialects
