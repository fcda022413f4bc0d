/-
Every instruction that a dialect reads stands in its text: what its span cuts
out of the text is its lexeme.

Each reader keeps an account of its offset.  It has passed over some front of
the text, whose size is the offset, and has the rest before it; a run that it
has opened starts behind some front of its own.  The instructions that it gives
are cut at such offsets.
-/

import TapeDialects.Dialect.Registry
import TapeDialects.Program

namespace TapeDialects

namespace Instruction

def StandsIn (text : Text) (instruction : Instruction) : Prop :=
  ∃ before after, text = before ++ instruction.lexeme ++ after ∧
    instruction.span =
      { start := before.size, stop := before.size + instruction.lexeme.size }

variable {text before after lexeme : Text} {instruction : Instruction} {position : Nat}

theorem standsIn_startingAt (parts : text = before ++ lexeme ++ after)
    (reached : position = before.size) (command : Command) :
    (startingAt position command lexeme).StandsIn text := by
  refine ⟨before, after, parts, ?_⟩
  rw [reached]
  rfl

theorem StandsIn.isSome_cut? (stands : instruction.StandsIn text) :
    (text.cut? instruction.span).isSome = true := by
  obtain ⟨before, after, parts, spanned⟩ := stands
  have found : text.cut? instruction.span =
      some { before, inside := instruction.lexeme, after } := by
    rw [Text.cut?_eq_some_iff, spanned]
    exact ⟨parts, rfl, rfl⟩
  rw [found]
  rfl

end Instruction

namespace Lexer

variable {table : List Entry} {text before : Text} {instruction : Instruction}

theorem standsIn_of_nextFrom {position : Nat} {rest : Text} {later : Lexer}
    (parts : text = before ++ rest) (reached : position = before.size)
    (read : nextFrom table position rest = (some instruction, later)) :
    instruction.StandsIn text ∧
      ∃ front, text = front ++ later.rest ∧ later.position = front.size := by
  induction rest generalizing before position with
  | nil => cases read
  | cons character rest ih =>
      rw [nextFrom] at read
      split at read
      · next entry found =>
          have opened := (Entry.opens_of_find? found).2.eq_append_drop
          cases read
          have split : text = before ++ entry.lexeme ++
              (character :: rest).drop entry.lexeme.length := by
            rw [List.append_assoc, ← opened, parts]
          refine ⟨Instruction.standsIn_startingAt split reached entry.command, ?_⟩
          refine ⟨before ++ entry.lexeme, split, ?_⟩
          rw [Text.size_append, reached]
      · apply ih _ _ read
        · exact before ++ [character]
        · exact parts.trans (List.append_cons before character rest)
        · rw [Text.size_append_singleton, reached]

theorem standsIn_of_mem_readAll {lexer : Lexer} (parts : text = before ++ lexer.rest)
    (reached : lexer.position = before.size)
    (member : instruction ∈ lexer.readAll table) : instruction.StandsIn text := by
  generalize bound : lexer.rest.length = length
  induction length using Nat.strongRecOn generalizing lexer before with
  | ind length ih =>
      cases read : lexer.next table with
      | mk found later =>
          cases found with
          | none =>
              rw [readAll_of_next_none read] at member
              cases member
          | some first =>
              rw [readAll_of_next_some read] at member
              obtain ⟨stands, front, laterParts, laterReached⟩ :=
                standsIn_of_nextFrom parts reached read
              rcases List.mem_cons.mp member with same | behind
              · rw [same]
                exact stands
              · have shorter : later.rest.length < length := by
                  rw [← bound]
                  exact length_rest_nextFrom_lt read
                exact ih _ shorter laterParts laterReached behind rfl

end Lexer

theorem Text.standsIn_of_mem_tokenize {table : List Entry} {text : Text}
    {instruction : Instruction} (member : instruction ∈ text.tokenize table) :
    instruction.StandsIn text :=
  Lexer.standsIn_of_mem_readAll (List.nil_append text).symm rfl member

theorem Comment.strip_sublist (comments : List Span) (instructions : List Instruction) :
    (strip comments instructions).Sublist instructions := by
  induction instructions generalizing comments with
  | nil =>
      unfold strip
      exact List.Sublist.refl []
  | cons first rest ih =>
      rw [strip]
      split
      · exact (ih _).cons_cons first
      · split
        · exact (ih _).cons first
        · exact (ih _).cons_cons first

namespace Wildcard

variable {text before rest : Text} {instruction : Instruction} {position : Nat}
  {previous : Option Char}

theorem standsIn_of_instructionAt? (parts : text = before ++ rest)
    (reached : position = before.size)
    (found : instructionAt? position previous rest = some instruction) :
    instruction.StandsIn text := by
  unfold instructionAt? at found
  split at found
  · rw [Option.map_eq_some_iff] at found
    obtain ⟨command, -, same⟩ := found
    rw [← same]
    have split : text = before ++ rest.take 4 ++ rest.drop 4 := by
      rw [List.append_assoc, List.take_append_drop, parts]
    exact Instruction.standsIn_startingAt split reached command
  · cases rest with
    | nil => cases found
    | cons character rest =>
        simp only at found
        split at found
        · cases found
          have split : text = before ++ [character] ++ rest :=
            parts.trans (List.append_cons before character rest)
          exact Instruction.standsIn_startingAt split reached .again
        · cases found

theorem standsIn_of_mem_tokenizeFrom {taken : Nat} (parts : text = before ++ rest)
    (reached : position = before.size)
    (member : instruction ∈ tokenizeFrom position previous taken rest) :
    instruction.StandsIn text := by
  induction rest generalizing before position previous taken with
  | nil =>
      rw [tokenizeFrom] at member
      cases member
  | cons character rest ih =>
      have laterParts : text = (before ++ [character]) ++ rest :=
        parts.trans (List.append_cons before character rest)
      have laterReached : position + character.utf8Size = (before ++ [character]).size := by
        rw [Text.size_append_singleton, reached]
      cases taken with
      | succ taken =>
          rw [tokenizeFrom] at member
          exact ih laterParts laterReached member
      | zero =>
          rw [tokenizeFrom] at member
          rcases List.mem_append.mp member with here | behind
          · rw [Option.mem_toList] at here
            exact standsIn_of_instructionAt? parts reached here
          · exact ih laterParts laterReached behind

end Wildcard

namespace RunFormat

variable {format : RunFormat} {text before rest : Text} {instruction : Instruction}

/-- The open run, if there is one, is the last part of what has been read. -/
def Holds (before : Text) (run : Option OpenRun) : Prop :=
  ∀ opened ∈ run, ∃ front,
    before = front ++ opened.reversed.reverse ∧ opened.start = front.size

theorem holds_none (before : Text) : Holds before none := by
  intro opened member
  cases member

theorem holds_mark {position : Nat} {marker : Char} {run : Option OpenRun}
    (holds : Holds before run) (reached : position = before.size) :
    Holds (before ++ [marker]) (some (OpenRun.mark position marker run)) := by
  intro opened member
  cases member
  cases run with
  | none => exact ⟨before, rfl, reached⟩
  | some opened =>
      obtain ⟨front, parts, started⟩ := holds opened rfl
      refine ⟨front, ?_, started⟩
      rw [OpenRun.mark, List.reverse_cons, ← List.append_assoc, ← parts]

theorem holds_pass {character : Char} {run : Option OpenRun} (holds : Holds before run) :
    Holds (before ++ [character]) (run.map (OpenRun.pass character)) := by
  intro opened member
  cases run with
  | none => cases member
  | some run =>
      cases member
      obtain ⟨front, parts, started⟩ := holds run rfl
      refine ⟨front, ?_, started⟩
      rw [OpenRun.pass, List.reverse_cons, ← List.append_assoc, ← parts]

theorem standsIn_of_mem_close {run : Option OpenRun} (holds : Holds before run)
    (parts : text = before ++ [format.terminator] ++ rest)
    (member : instruction ∈ (run.map (OpenRun.close format)).getD []) :
    instruction.StandsIn text := by
  cases run with
  | none => cases member
  | some opened =>
      obtain ⟨front, read, started⟩ := holds opened rfl
      rw [Option.map_some, Option.getD_some, OpenRun.close] at member
      rw [(List.mem_replicate.mp member).2]
      have split : text =
          front ++ (opened.reversed.reverse ++ [format.terminator]) ++ rest := by
        rw [parts, read, List.append_assoc front]
      exact Instruction.standsIn_startingAt split started _

theorem standsIn_of_mem_tokenizeFrom {position : Nat} {run : Option OpenRun}
    (parts : text = before ++ rest) (reached : position = before.size)
    (holds : Holds before run)
    (member : instruction ∈ format.tokenizeFrom position run rest) :
    instruction.StandsIn text := by
  induction rest generalizing before position run with
  | nil =>
      rw [tokenizeFrom] at member
      cases member
  | cons character rest ih =>
      have laterParts : text = (before ++ [character]) ++ rest :=
        parts.trans (List.append_cons before character rest)
      have laterReached : position + character.utf8Size = (before ++ [character]).size := by
        rw [Text.size_append_singleton, reached]
      rw [tokenizeFrom] at member
      split at member
      · exact ih laterParts laterReached (holds_mark holds reached) member
      · split at member
        · next closes =>
            subst closes
            rcases List.mem_append.mp member with here | behind
            · exact standsIn_of_mem_close holds laterParts here
            · exact ih laterParts laterReached (holds_none _) behind
        · exact ih laterParts laterReached (holds_pass holds) member

end RunFormat

namespace Text

theorem parts_of_mem_wordsFrom {position : Nat} {text : Text} {word : Word}
    (member : word ∈ wordsFrom position text) :
    ∃ before after : Text, text = before ++ word.letters ++ after ∧
      word.start = position + before.size := by
  induction text generalizing position word with
  | nil => cases member
  | cons character rest ih =>
      have moved : ∀ other ∈ wordsFrom (position + character.utf8Size) rest,
          ∃ before after : Text, character :: rest = before ++ other.letters ++ after ∧
            other.start = position + before.size := by
        intro other listed
        obtain ⟨before, after, parts, started⟩ := ih listed
        refine ⟨character :: before, after, ?_, ?_⟩
        · rw [parts]
          rfl
        · rw [started, size_cons, Nat.add_assoc]
      have alone : ∃ before after : Text, character :: rest = before ++ [character] ++ after ∧
          position = position + before.size :=
        ⟨[], rest, rfl, rfl⟩
      rw [wordsFrom] at member
      split at member
      · exact moved word member
      · cases words : wordsFrom (position + character.utf8Size) rest with
        | nil =>
            rw [words, Word.attach, List.mem_singleton] at member
            rw [member]
            exact alone
        | cons first others =>
            rw [words] at moved
            rw [words, Word.attach] at member
            split at member
            · next joined =>
                rcases List.mem_cons.mp member with same | behind
                · have listed : first ∈ wordsFrom (position + character.utf8Size) rest := by
                    rw [words]
                    exact List.mem_cons_self
                  obtain ⟨before, after, parts, started⟩ := ih listed
                  rw [same]
                  cases before with
                  | nil =>
                      refine ⟨[], after, ?_, rfl⟩
                      rw [parts]
                      rfl
                  | cons passed before =>
                      have wide := passed.utf8Size_pos
                      rw [size_cons] at started
                      omega
                · exact moved word (List.mem_cons_of_mem first behind)
            · rcases List.mem_cons.mp member with same | behind
              · rw [same]
                exact alone
              · exact moved word behind

theorem standsIn_of_mem_words {text : Text} {word : Word} (member : word ∈ text.words)
    (command : Command) :
    (Instruction.startingAt word.start command word.letters).StandsIn text := by
  obtain ⟨before, after, parts, started⟩ := parts_of_mem_wordsFrom member
  rw [Nat.zero_add] at started
  exact Instruction.standsIn_startingAt parts started command

end Text

theorem Reading.standsIn_of_mem_tokenize {reading : Reading} {text : Text}
    {instruction : Instruction} (member : instruction ∈ reading.tokenize text) :
    instruction.StandsIn text := by
  have whole : text = [] ++ text := (List.nil_append text).symm
  cases reading with
  | unique table => exact Text.standsIn_of_mem_tokenize member
  | ranked table => exact Text.standsIn_of_mem_tokenize member
  | wildcard => exact Wildcard.standsIn_of_mem_tokenizeFrom whole rfl member
  | countedRuns format =>
      exact RunFormat.standsIn_of_mem_tokenizeFrom whole rfl (RunFormat.holds_none []) member
  | wordLength =>
      obtain ⟨word, listed, found⟩ := List.mem_filterMap.mp member
      unfold WordLength.instruction? at found
      split at found
      · cases found
        exact Text.standsIn_of_mem_words listed _
      · cases found
  | selfRepetition =>
      obtain ⟨word, listed, same⟩ := List.mem_map.mp member
      rw [← same]
      exact Text.standsIn_of_mem_words listed _
  | commented table opener closer =>
      exact Text.standsIn_of_mem_tokenize ((Comment.strip_sublist _ _).mem member)

namespace Program

/-- Every instruction has a place in the text that a report can show. -/
def Sliceable (program : Program) : Prop :=
  ∀ instruction ∈ program.instructions,
    (program.text.cut? instruction.span).isSome = true

theorem isSome_cut?_startMark (text : Text) :
    (text.cut? startMark.span).isSome = true := by
  have found : text.cut? startMark.span = some { before := [], inside := [], after := text } :=
    Text.cut?_eq_some_iff.mpr ⟨rfl, rfl, rfl⟩
  rw [found]
  rfl

theorem isSome_cut?_stopMark (text : Text) :
    (text.cut? (stopMark text).span).isSome = true := by
  have found : text.cut? (stopMark text).span =
      some { before := text, inside := [], after := [] } := by
    apply Text.cut?_eq_some_iff.mpr
    refine ⟨?_, rfl, rfl⟩
    rw [List.append_nil, List.append_nil]
  rw [found]
  rfl

theorem sliceable_of_body {program : Program}
    (placed : ∀ instruction ∈ program.body,
      (program.text.cut? instruction.span).isSome = true) : program.Sliceable := by
  intro instruction member
  rw [instructions, List.cons_append, List.mem_cons, List.mem_append,
    List.mem_singleton] at member
  rcases member with start | inside | stop
  · rw [start]
    exact isSome_cut?_startMark program.text
  · exact placed instruction (Array.mem_toList_iff.mp inside)
  · rw [stop]
    exact isSome_cut?_stopMark program.text

theorem ofText_sliceable (dialect : Dialect) (text : Text) :
    (ofText dialect text).Sliceable := by
  apply sliceable_of_body
  intro instruction member
  have read : instruction ∈ dialect.tokenize text := List.mem_toArray.mp member
  exact (Reading.standsIn_of_mem_tokenize read).isSome_cut?

end Program
end TapeDialects
