/-
Instructions stand in the order of the text that they are read from.

Each reader gives its instructions from its offset on, and each behind those
before it, because it goes on at the end of what it has just taken.  Only a run
of markers may stand for more than one instruction; these share their place and
their command.  No lexeme is empty, and no command is a mark.
-/

import TapeDialects.Proofs.Dialect.RoundTrip
import TapeDialects.Proofs.Dialect.Standing

namespace TapeDialects

/-- Instructions from an offset on.  Each stands behind those before it, or shares its place
with them. -/
structure InTurn (vocabulary : List Command) (shares : Instruction → Instruction → Prop)
    (position : Nat) (instructions : List Instruction) : Prop where
  spelled : ∀ instruction ∈ instructions,
    instruction.lexeme ≠ [] ∧ instruction.command ∈ vocabulary
  behind : ∀ instruction ∈ instructions, position ≤ instruction.span.start
  turns : instructions.Pairwise fun first second =>
    first.span.stop ≤ second.span.start ∨ shares first second

namespace InTurn

variable {vocabulary : List Command} {shares : Instruction → Instruction → Prop}
  {position middle : Nat} {front back : List Instruction} {first : Instruction}

theorem nil : InTurn vocabulary shares position [] :=
  { spelled := nofun
    behind := nofun
    turns := .nil }

theorem mono (inTurn : InTurn vocabulary shares middle back) (earlier : position ≤ middle) :
    InTurn vocabulary shares position back :=
  { spelled := inTurn.spelled
    behind := fun instruction member => Nat.le_trans earlier (inTurn.behind instruction member)
    turns := inTurn.turns }

theorem sublist (inTurn : InTurn vocabulary shares position back)
    (part : front.Sublist back) : InTurn vocabulary shares position front :=
  { spelled := fun instruction member => inTurn.spelled instruction (part.mem member)
    behind := fun instruction member => inTurn.behind instruction (part.mem member)
    turns := inTurn.turns.sublist part }

theorem append (inTurn : InTurn vocabulary shares position front)
    (ends : ∀ instruction ∈ front, instruction.span.stop ≤ middle)
    (later : InTurn vocabulary shares middle back) (forward : position ≤ middle) :
    InTurn vocabulary shares position (front ++ back) := by
  refine { spelled := ?spelled, behind := ?behind, turns := ?turns }
  case spelled =>
      exact List.forall_mem_append.mpr ⟨inTurn.spelled, later.spelled⟩
  case behind =>
      exact List.forall_mem_append.mpr ⟨inTurn.behind, (later.mono forward).behind⟩
  case turns =>
      apply List.pairwise_append.mpr
      refine ⟨inTurn.turns, later.turns, ?_⟩
      intro before inFront after inBack
      exact Or.inl (Nat.le_trans (ends before inFront) (later.behind after inBack))

theorem singleton (spelled : first.lexeme ≠ [] ∧ first.command ∈ vocabulary)
    (begins : position ≤ first.span.start) : InTurn vocabulary shares position [first] :=
  { spelled := List.forall_mem_singleton.mpr spelled
    behind := List.forall_mem_singleton.mpr begins
    turns := List.pairwise_singleton _ _ }

theorem cons (spelled : first.lexeme ≠ [] ∧ first.command ∈ vocabulary)
    (begins : position ≤ first.span.start) (ends : first.span.stop ≤ middle)
    (later : InTurn vocabulary shares middle back) (forward : position ≤ middle) :
    InTurn vocabulary shares position (first :: back) :=
  (singleton spelled begins).append (List.forall_mem_singleton.mpr ends) later forward

end InTurn

namespace Lexer

variable {table : List Entry} {shares : Instruction → Instruction → Prop}

theorem taken_of_nextFrom {position : Nat} {rest : Text} {later : Lexer}
    {instruction : Instruction}
    (read : nextFrom table position rest = (some instruction, later)) :
    (instruction.lexeme ≠ [] ∧ instruction.command ∈ table.map Entry.command) ∧
      position ≤ instruction.span.start ∧
      instruction.span.start ≤ instruction.span.stop ∧
      instruction.span.stop = later.position := by
  induction rest generalizing position with
  | nil => cases read
  | cons character rest ih =>
      rw [nextFrom] at read
      split at read
      · next entry found =>
          obtain ⟨listed, opens⟩ := Entry.opens_of_find? found
          cases read
          exact ⟨⟨opens.1, List.mem_map_of_mem listed⟩, Nat.le_refl position,
            Nat.le_add_right position _, rfl⟩
      · obtain ⟨spelled, begins, ordered, ends⟩ := ih read
        exact ⟨spelled, Nat.le_of_add_right_le begins, ordered, ends⟩

theorem inTurn_readAll (lexer : Lexer) :
    InTurn (table.map Entry.command) shares lexer.position (lexer.readAll table) := by
  generalize bound : lexer.rest.length = length
  induction length using Nat.strongRecOn generalizing lexer with
  | ind length ih =>
      cases read : lexer.next table with
      | mk found later =>
          cases found with
          | none =>
              rw [readAll_of_next_none read]
              exact InTurn.nil
          | some first =>
              obtain ⟨spelled, begins, ordered, ends⟩ := taken_of_nextFrom read
              have shorter : later.rest.length < length := by
                rw [← bound]
                exact length_rest_nextFrom_lt read
              rw [readAll_of_next_some read]
              exact .cons spelled begins (Nat.le_of_eq ends) (ih _ shorter later rfl) (by omega)

end Lexer

theorem RankedEntry.mem_map_toTable_iff {table : List RankedEntry} {command : Command} :
    command ∈ (toTable table).map Entry.command ↔
      command ∈ (table.map RankedEntry.entry).map Entry.command :=
  (((byPriority_perm table).map RankedEntry.entry).map Entry.command).mem_iff

namespace Wildcard

variable {shares : Instruction → Instruction → Prop} {position : Nat} {previous : Option Char}

theorem command_mem_of_command? {first last : Char} {command : Command}
    (found : command? first last = some command) :
    command ∈ outerLetters.map OuterLetters.command := by
  unfold command? at found
  rw [Option.map_eq_some_iff] at found
  obtain ⟨pair, listed, same⟩ := found
  rw [← same]
  exact List.mem_map_of_mem (List.mem_of_find?_eq_some listed)

theorem command_mem_of_wordCommand? {text : Text} {command : Command}
    (found : wordCommand? text = some command) :
    command ∈ outerLetters.map OuterLetters.command := by
  unfold wordCommand? at found
  split at found
  · exact command_mem_of_command? found
  · cases found

theorem taken_of_instructionAt? {character : Char} {rest : Text} {instruction : Instruction}
    (found : instructionAt? position previous (character :: rest) = some instruction) :
    (instruction.lexeme ≠ [] ∧
        instruction.command ∈ outerLetters.map OuterLetters.command ++ [.again]) ∧
      instruction.span.start = position ∧
      instruction.span.stop = position + character.utf8Size +
        Text.size (rest.take (if opensWord (character :: rest) then 3 else 0)) := by
  unfold instructionAt? at found
  by_cases opens : opensWord (character :: rest)
  · rw [if_pos opens, Option.map_eq_some_iff] at found
    obtain ⟨command, known, same⟩ := found
    rw [← same, if_pos opens]
    refine ⟨⟨List.cons_ne_nil _ _, ?_⟩, rfl, ?_⟩
    · exact List.mem_append_left _ (command_mem_of_wordCommand? known)
    · exact (Nat.add_assoc _ _ _).symm
  · rw [if_neg opens] at found
    simp only at found
    split at found
    · cases found
      rw [if_neg opens]
      refine ⟨⟨List.cons_ne_nil _ _, ?_⟩, rfl, rfl⟩
      exact List.mem_append_right _ List.mem_cons_self
    · cases found

theorem inTurn_tokenizeFrom (taken : Nat) (rest : Text) :
    InTurn (outerLetters.map OuterLetters.command ++ [.again]) shares
      (position + Text.size (rest.take taken))
      (tokenizeFrom position previous taken rest) := by
  induction rest generalizing position previous taken with
  | nil =>
      rw [tokenizeFrom]
      exact InTurn.nil
  | cons character rest ih =>
      cases taken with
      | succ taken =>
          rw [tokenizeFrom, List.take_succ_cons, Text.size_cons, ← Nat.add_assoc]
          exact ih taken
      | zero =>
          rw [tokenizeFrom, List.take_zero, Text.size_nil, Nat.add_zero]
          have later := @ih (position + character.utf8Size) (some character)
            (if opensWord (character :: rest) then 3 else 0)
          cases found : instructionAt? position previous (character :: rest) with
          | none => exact later.mono (by omega)
          | some instruction =>
              obtain ⟨spelled, begins, ends⟩ := taken_of_instructionAt? found
              exact .cons spelled (Nat.le_of_eq begins.symm) (Nat.le_of_eq ends) later
                (by omega)

end Wildcard

namespace RunFormat

variable {format : RunFormat} {before : Text} {position : Nat} {run : Option OpenRun}

/-- A marker, what follows it up to the next terminator, and this terminator. -/
def IsRun (format : RunFormat) (lexeme : Text) : Prop :=
  ∃ inner, lexeme = format.marker :: inner ++ [format.terminator] ∧ format.terminator ∉ inner

structure OfOneRun (format : RunFormat) (first second : Instruction) : Prop where
  cycles : format.cycles = true
  run : format.IsRun first.lexeme
  span : first.span = second.span
  command : first.command = second.command

def Unclosed (format : RunFormat) (run : Option OpenRun) : Prop :=
  ∀ opened ∈ run, ∃ inner, opened.reversed.reverse = format.marker :: inner ∧
    (format.terminator ≠ format.marker → format.terminator ∉ inner)

theorem unclosed_none (format : RunFormat) : format.Unclosed none := nofun

theorem unclosed_mark (unclosed : format.Unclosed run) (position : Nat) :
    format.Unclosed (some (OpenRun.mark position format.marker run)) := by
  intro opened member
  cases member
  cases run with
  | none => exact ⟨[], rfl, fun _ => List.not_mem_nil⟩
  | some run =>
      obtain ⟨inner, marked, unended⟩ := unclosed run rfl
      refine ⟨inner ++ [format.marker], ?_, ?_⟩
      · rw [OpenRun.mark, List.reverse_cons, marked]
        rfl
      · intro distinct
        rw [List.mem_append, List.mem_singleton, not_or]
        exact ⟨unended distinct, distinct⟩

theorem unclosed_pass (unclosed : format.Unclosed run) {character : Char}
    (other : character ≠ format.terminator) :
    format.Unclosed (run.map (OpenRun.pass character)) := by
  intro opened member
  cases run with
  | none => cases member
  | some run =>
      cases member
      obtain ⟨inner, marked, unended⟩ := unclosed run rfl
      refine ⟨inner ++ [character], ?_, ?_⟩
      · rw [OpenRun.pass, List.reverse_cons, marked]
        rfl
      · intro distinct
        rw [List.mem_append, List.mem_singleton, not_or]
        exact ⟨unended distinct, other.symm⟩

theorem inTurn_close {opened : OpenRun} (unclosed : format.Unclosed (some opened))
    (distinct : format.terminator ≠ format.marker) :
    InTurn Command.basic format.OfOneRun opened.start (opened.close format) := by
  obtain ⟨inner, marked, unended⟩ := unclosed opened rfl
  unfold OpenRun.close
  refine { spelled := ?spelled, behind := ?behind, turns := ?turns }
  case spelled =>
      intro instruction member
      rw [(List.mem_replicate.mp member).2]
      exact ⟨List.append_ne_nil_of_right_ne_nil _ (List.cons_ne_nil _ _),
        Command.ofCode_mem_basic _⟩
  case behind =>
      intro instruction member
      rw [(List.mem_replicate.mp member).2]
      exact Nat.le_refl opened.start
  case turns =>
      rw [List.pairwise_replicate]
      by_cases cycles : format.cycles
      · refine Or.inr (Or.inr { cycles, run := ?_, span := rfl, command := rfl })
        exact ⟨inner, congrArg (· ++ [format.terminator]) marked, unended distinct⟩
      · unfold OpenRun.rounds
        rw [if_neg cycles]
        exact Or.inl (Nat.le_refl 1)

theorem stop_of_mem_close {opened : OpenRun} (holds : Holds before (some opened))
    (reached : position = before.size) {instruction : Instruction}
    (member : instruction ∈ opened.close format) :
    instruction.span.stop = position + format.terminator.utf8Size := by
  obtain ⟨front, parts, started⟩ := holds opened rfl
  rw [(List.mem_replicate.mp member).2]
  unfold Instruction.startingAt
  simp only [Text.size_append, Text.size_cons, Text.size_nil]
  rw [reached, parts, Text.size_append]
  omega

theorem inTurn_tokenizeFrom (reached : position = before.size) (holds : Holds before run)
    (unclosed : format.Unclosed run) (rest : Text) :
    InTurn Command.basic format.OfOneRun ((run.map OpenRun.start).getD position)
      (format.tokenizeFrom position run rest) := by
  induction rest generalizing before position run with
  | nil =>
      rw [tokenizeFrom]
      exact InTurn.nil
  | cons character rest ih =>
      have laterReached : position + character.utf8Size = (before ++ [character]).size := by
        rw [Text.size_append_singleton, reached]
      rw [tokenizeFrom]
      by_cases marks : character = format.marker
      · rw [if_pos marks]
        subst marks
        have later := ih laterReached (holds_mark holds reached)
          (unclosed_mark unclosed position)
        cases run with
        | none => exact later
        | some opened => exact later
      · rw [if_neg marks]
        by_cases closes : character = format.terminator
        · rw [if_pos closes]
          subst closes
          have later := ih laterReached (holds_none _) format.unclosed_none
          cases run with
          | none => exact later.mono (Nat.le_add_right position _)
          | some opened =>
              have within : opened.start ≤ position := by
                obtain ⟨front, parts, started⟩ := holds opened rfl
                rw [reached, parts, Text.size_append]
                omega
              apply (inTurn_close unclosed marks).append _ later
              · exact Nat.le_trans within (Nat.le_add_right position _)
              · intro instruction member
                exact Nat.le_of_eq (stop_of_mem_close holds reached member)
        · rw [if_neg closes]
          have later := ih laterReached (holds_pass holds) (unclosed_pass unclosed closes)
          cases run with
          | none => exact later.mono (Nat.le_add_right position _)
          | some opened => exact later

end RunFormat

namespace Word

theorem pairwise_attach {position : Nat} {character : Char} {words : List Word}
    (gap : ∀ word ∈ words, position + character.utf8Size ≤ word.start)
    (turns : words.Pairwise fun first second => first.stop ≤ second.start) :
    (attach position character words).Pairwise
      fun first second => first.stop ≤ second.start := by
  have alone : ({ start := position, letters := [character] } : Word).stop =
      position + character.utf8Size := rfl
  cases words with
  | nil =>
      rw [attach]
      exact List.pairwise_singleton _ _
  | cons first others =>
      obtain ⟨ahead, further⟩ := List.pairwise_cons.mp turns
      rw [attach]
      split
      · next joined =>
          have same : ({ start := position, letters := character :: first.letters } : Word).stop =
              first.stop := by
            unfold stop
            rw [joined, Text.size_cons, Nat.add_assoc]
          apply List.pairwise_cons.mpr
          refine ⟨?_, further⟩
          intro word member
          rw [same]
          exact ahead word member
      · apply List.pairwise_cons.mpr
        refine ⟨?_, turns⟩
        intro word member
        rw [alone]
        exact gap word member

theorem letters_ne_nil_of_mem_attach {position : Nat} {character : Char} {words : List Word}
    (filled : ∀ word ∈ words, word.letters ≠ []) :
    ∀ word ∈ attach position character words, word.letters ≠ [] := by
  cases words with
  | nil =>
      rw [attach]
      exact List.forall_mem_singleton.mpr (List.cons_ne_nil _ _)
  | cons first others =>
      rw [attach]
      split
      · exact List.forall_mem_cons.mpr
          ⟨List.cons_ne_nil _ _, (List.forall_mem_cons.mp filled).2⟩
      · exact List.forall_mem_cons.mpr ⟨List.cons_ne_nil _ _, filled⟩

end Word

namespace Text

variable {position : Nat} {text : Text}

theorem pairwise_wordsFrom (position : Nat) (text : Text) :
    (wordsFrom position text).Pairwise fun first second => first.stop ≤ second.start := by
  induction text generalizing position with
  | nil => exact .nil
  | cons character rest ih =>
      rw [wordsFrom]
      split
      · exact ih _
      · exact Word.pairwise_attach (fun _ => le_start_of_mem_wordsFrom) (ih _)

theorem letters_ne_nil_of_mem_wordsFrom (position : Nat) (text : Text) :
    ∀ word ∈ wordsFrom position text, word.letters ≠ [] := by
  induction text generalizing position with
  | nil => exact nofun
  | cons character rest ih =>
      rw [wordsFrom]
      split
      · exact ih _
      · exact Word.letters_ne_nil_of_mem_attach (ih _)

theorem inTurn_filterMap_words {shares : Instruction → Instruction → Prop}
    {read : Word → Option Instruction}
    (reads : ∀ word instruction, read word = some instruction →
      ∃ code, instruction = Instruction.startingAt word.start (Command.ofCode code) word.letters) :
    InTurn Command.basic shares 0 (text.words.filterMap read) := by
  refine { spelled := ?spelled, behind := fun _ _ => Nat.zero_le _, turns := ?turns }
  case spelled =>
      intro instruction member
      obtain ⟨word, listed, found⟩ := List.mem_filterMap.mp member
      obtain ⟨code, same⟩ := reads word instruction found
      rw [same]
      exact ⟨letters_ne_nil_of_mem_wordsFrom 0 text word listed, Command.ofCode_mem_basic code⟩
  case turns =>
      apply (pairwise_wordsFrom 0 text).filterMap read
      intro first second ahead firstRead firstFound secondRead secondFound
      obtain ⟨code, same⟩ := reads first firstRead firstFound
      obtain ⟨otherCode, otherSame⟩ := reads second secondRead secondFound
      rw [same, otherSame]
      exact Or.inl ahead

end Text

namespace Reading

/-- Which instructions may have one place in common. -/
def Shares : Reading → Instruction → Instruction → Prop
  | .countedRuns format => format.OfOneRun
  | _ => fun _ _ => False

theorem inTurn_tokenize (reading : Reading) (text : Text) :
    InTurn reading.vocabulary reading.Shares 0 (reading.tokenize text) := by
  cases reading with
  | unique table => exact Lexer.inTurn_readAll (Lexer.ofText text)
  | ranked table =>
      have read : InTurn _ (fun _ _ => False) 0 (text.tokenizeRanked table) :=
        Lexer.inTurn_readAll (Lexer.ofText text)
      refine { read with spelled := ?_ }
      intro instruction member
      obtain ⟨filled, listed⟩ := read.spelled instruction member
      exact ⟨filled, RankedEntry.mem_map_toTable_iff.mp listed⟩
  | wildcard => exact Wildcard.inTurn_tokenizeFrom 0 text
  | countedRuns format =>
      exact RunFormat.inTurn_tokenizeFrom rfl (RunFormat.holds_none []) format.unclosed_none text
  | wordLength =>
      apply Text.inTurn_filterMap_words
      intro word instruction found
      unfold WordLength.instruction? at found
      split at found
      · cases found
        exact ⟨_, rfl⟩
      · cases found
  | selfRepetition =>
      have read : InTurn Command.basic (fun _ _ => False) 0
          (text.words.filterMap (some ∘ SelfRepetition.instruction)) := by
        apply Text.inTurn_filterMap_words
        intro word instruction found
        cases found
        exact ⟨_, rfl⟩
      rw [List.filterMap_eq_map] at read
      exact read
  | commented table opener closer =>
      exact (Lexer.inTurn_readAll (Lexer.ofText text)).sublist (Comment.strip_sublist _ _)

end Reading
end TapeDialects
