/-
Readers that are local to words.

White space parts a text into two that are read apart, the second one as if it stood
alone, only farther on.  For readers of whole words this is so because no word goes on
over white space.  For words of which the outer letters count, no word can hold white
space, and a star meets the same border at white space as at the start or the end of a
text.  So it does not matter for the commands how much white space there is between
words, and of which kind.
-/

import TapeDialects.Coding.WordLength
import TapeDialects.Coding.SelfRepetition
import TapeDialects.Proofs.Coding.Moved
import TapeDialects.Proofs.Coding.Wildcard
import TapeDialects.Proofs.Text.Word

namespace TapeDialects

/-- What stands on both sides of a white space character is read apart. -/
def SplitsAtSpace (tokenize : Text → List Instruction) : Prop :=
  ∀ (front : Text) (space : Char) (back : Text), Text.isSpace space = true →
    tokenize (front ++ space :: back) =
      tokenize front ++ (tokenize back).map (Instruction.movedBy (front ++ [space]).size)

structure LocalToWords (tokenize : Text → List Instruction) : Prop where
  splits : SplitsAtSpace tokenize
  respaces : ∀ front gap otherGap back : Text, gap ≠ [] → gap.Blank → otherGap ≠ [] →
    otherGap.Blank →
      (tokenize (front ++ (gap ++ back))).map Instruction.command =
        (tokenize (front ++ (otherGap ++ back))).map Instruction.command

namespace LocalToWords

variable {tokenize : Text → List Instruction}

theorem map_command_gap (ends : tokenize [] = []) (splits : SplitsAtSpace tokenize) (front : Text)
    {gap : Text} (back : Text) (filled : gap ≠ []) (blank : gap.Blank) :
    (tokenize (front ++ (gap ++ back))).map Instruction.command =
      (tokenize front).map Instruction.command ++ (tokenize back).map Instruction.command := by
  induction gap generalizing front with
  | nil => exact absurd rfl filled
  | cons space gap ih =>
      obtain ⟨here, later⟩ := List.forall_mem_cons.mp blank
      rw [List.cons_append, splits front space _ here, List.map_append,
        Instruction.map_command_map_movedBy]
      cases gap with
      | nil => rfl
      | cons next gap =>
          have behind := ih [] (List.cons_ne_nil next gap) later
          rw [List.nil_append, ends] at behind
          rw [behind]
          rfl

theorem of_splits (ends : tokenize [] = []) (splits : SplitsAtSpace tokenize) :
    LocalToWords tokenize := by
  refine { splits, respaces := ?respaces }
  intro front gap otherGap back filled blank otherFilled otherBlank
  rw [map_command_gap ends splits front back filled blank,
    map_command_gap ends splits front back otherFilled otherBlank]

end LocalToWords

theorem Word.attach_movedBy (offset position : Nat) (character : Char) (words : List Word) :
    attach (offset + position) character (words.map (movedBy offset)) =
      (attach position character words).map (movedBy offset) := by
  cases words with
  | nil => rfl
  | cons first others =>
      rw [List.map_cons, attach, attach]
      by_cases joined : first.start = position + character.utf8Size
      · have moved : (first.movedBy offset).start = offset + position + character.utf8Size := by
          rw [Nat.add_assoc, ← joined]
          rfl
        rw [if_pos joined, if_pos moved]
        rfl
      · have apart : (first.movedBy offset).start ≠ offset + position + character.utf8Size := by
          rw [Nat.add_assoc]
          exact fun same => joined (Nat.add_left_cancel same)
        rw [if_neg joined, if_neg apart]
        rfl

namespace Text

variable {space : Char} {read : Word → Option Instruction}

theorem wordsFrom_add (offset position : Nat) (text : Text) :
    wordsFrom (offset + position) text = (wordsFrom position text).map (Word.movedBy offset) := by
  induction text generalizing position with
  | nil => rfl
  | cons character rest ih =>
      rw [wordsFrom, wordsFrom, Nat.add_assoc, ih]
      split
      · rfl
      · exact Word.attach_movedBy offset position character _

theorem wordsFrom_append_space (blank : isSpace space = true) (position : Nat)
    (front back : Text) :
    wordsFrom position (front ++ space :: back) =
      wordsFrom position front ++ wordsFrom (position + (front ++ [space]).size) back := by
  induction front generalizing position with
  | nil => exact wordsFrom_space blank back
  | cons character front ih =>
      rw [List.cons_append, wordsFrom, wordsFrom, ih, List.cons_append, size_cons, ← Nat.add_assoc]
      split
      · rfl
      · cases words : wordsFrom (position + character.utf8Size) front with
        | nil =>
            apply Word.attach_of_gap
            intro word member
            have behind := le_start_of_mem_wordsFrom member
            have wide := space.utf8Size_pos
            rw [size_append_singleton] at behind
            omega
        | cons first others =>
            rw [List.cons_append, Word.attach, Word.attach]
            split <;> rfl

theorem filterMap_words_append_space
    (moves : ∀ offset word,
      read (Word.movedBy offset word) = (read word).map (Instruction.movedBy offset))
    (front : Text) (back : Text) (blank : isSpace space = true) :
    (words (front ++ space :: back)).filterMap read =
      (words front).filterMap read ++
        ((words back).filterMap read).map (Instruction.movedBy (front ++ [space]).size) := by
  have moved : read ∘ Word.movedBy (front ++ [space]).size =
      fun word => (read word).map (Instruction.movedBy (front ++ [space]).size) :=
    funext (moves _)
  unfold words
  rw [wordsFrom_append_space blank, List.filterMap_append, Nat.add_comm, wordsFrom_add,
    List.filterMap_map, List.map_filterMap, moved]

end Text

theorem WordLength.localToWords : LocalToWords tokenize := by
  apply LocalToWords.of_splits rfl
  intro front space back blank
  apply Text.filterMap_words_append_space _ front back blank
  intro offset word
  unfold instruction? Word.movedBy
  split
  · exact congrArg some (Instruction.startingAt_add offset word.start _ word.letters)
  · rfl

theorem SelfRepetition.localToWords : LocalToWords tokenize := by
  apply LocalToWords.of_splits rfl
  intro front space back blank
  unfold tokenize
  rw [← List.filterMap_eq_map (f := instruction)]
  apply Text.filterMap_words_append_space _ front back blank
  intro offset word
  exact congrArg some (Instruction.startingAt_add offset word.start _ word.letters)

/-! ### Words of which the outer letters count -/

namespace Wildcard

variable {text front : Text} {space : Char} {position : Nat} {previous other : Option Char}

theorem opensWord_append (long : 4 ≤ text.length) (back : Text) :
    opensWord (text ++ back) = opensWord text ∧ wordCommand? (text ++ back) = wordCommand? text := by
  match text, long with
  | _ :: _ :: _ :: _ :: _, _ => exact ⟨rfl, rfl⟩

theorem length_of_opensWord (opens : opensWord text = true) : 4 ≤ text.length := by
  obtain ⟨word, rest, rfl, sized, -⟩ := exists_word_of_opensWord opens
  rw [List.length_append, sized]
  exact Nat.le_add_right 4 _

theorem opensWord_append_space (blank : Text.isSpace space = true) (text back : Text) :
    opensWord (text ++ space :: back) = opensWord text := by
  rw [Bool.eq_iff_iff]
  constructor
  · intro opens
    obtain ⟨word, rest, parts, sized, solid⟩ := exists_word_of_opensWord opens
    have long : 4 ≤ text.length := by
      apply Nat.le_of_not_lt
      intro short
      have before : text ++ [space] <+: word ++ rest :=
        ⟨back, (List.append_cons text space back).symm.trans parts⟩
      have within : (text ++ [space]).length ≤ word.length := by
        rw [List.length_append, List.length_singleton, sized]
        exact short
      have begins : text ++ [space] <+: word :=
        List.prefix_of_prefix_length_le before (List.prefix_append word rest) within
      have dense := solid space (begins.mem (List.mem_append_right _ List.mem_cons_self))
      rw [blank] at dense
      cases dense
    rwa [(opensWord_append long _).1] at opens
  · intro opens
    rwa [(opensWord_append (length_of_opensWord opens) _).1]

theorem instructionAt?_append_space (blank : Text.isSpace space = true) (character : Char)
    (rest back : Text) :
    instructionAt? position previous (character :: rest ++ space :: back) =
      instructionAt? position previous (character :: rest) := by
  unfold instructionAt?
  rw [opensWord_append_space blank]
  by_cases opens : opensWord (character :: rest) = true
  · have long := length_of_opensWord opens
    rw [if_pos opens, if_pos opens, (opensWord_append long _).2,
      List.take_append_of_le_length long]
  · have ends : isBorder (rest ++ space :: back).head? = isBorder rest.head? := by
      cases rest with
      | nil => exact blank
      | cons next rest => rfl
    rw [if_neg opens, if_neg opens, List.cons_append]
    simp only [ends]

/-- The reader starts anew behind white space, whatever it has taken before. -/
theorem tokenizeFrom_append_space (blank : Text.isSpace space = true) (front back : Text)
    {taken : Nat} (within : taken ≤ front.length) :
    tokenizeFrom position previous taken (front ++ space :: back) =
      tokenizeFrom position previous taken front ++
        tokenizeFrom (position + (front ++ [space]).size) (some space) 0 back := by
  induction front generalizing position previous taken with
  | nil =>
      rw [Nat.le_zero.mp within]
      exact tokenizeFrom_space blank back
  | cons character front ih =>
      rw [List.cons_append, List.cons_append, Text.size_cons, ← Nat.add_assoc]
      cases taken with
      | succ taken =>
          rw [tokenizeFrom, tokenizeFrom, ih (Nat.le_of_succ_le_succ within)]
      | zero =>
          have later : (if opensWord (character :: front) then 3 else 0) ≤ front.length := by
            split
            · next opens => exact Nat.le_of_succ_le_succ (length_of_opensWord opens)
            · exact Nat.zero_le _
          rw [tokenizeFrom, tokenizeFrom, ← List.cons_append, instructionAt?_append_space blank,
            opensWord_append_space blank, ih later, List.append_assoc]

theorem instructionAt?_add (offset position : Nat) (previous : Option Char) (text : Text) :
    instructionAt? (offset + position) previous text =
      (instructionAt? position previous text).map (Instruction.movedBy offset) := by
  unfold instructionAt?
  split
  · rw [Option.map_map]
    congr 1
    funext command
    exact Instruction.startingAt_add offset position command _
  · cases text with
    | nil => rfl
    | cons character rest =>
        simp only
        split
        · exact congrArg some (Instruction.startingAt_add offset position _ _)
        · rfl

theorem tokenizeFrom_add (offset : Nat) (taken : Nat) (text : Text) :
    tokenizeFrom (offset + position) previous taken text =
      (tokenizeFrom position previous taken text).map (Instruction.movedBy offset) := by
  induction text generalizing position previous taken with
  | nil =>
      rw [tokenizeFrom, tokenizeFrom]
      rfl
  | cons character rest ih =>
      cases taken with
      | succ taken => rw [tokenizeFrom, tokenizeFrom, Nat.add_assoc, ih]
      | zero =>
          rw [tokenizeFrom, tokenizeFrom, Nat.add_assoc, ih, List.map_append, instructionAt?_add]
          cases instructionAt? position previous (character :: rest) <;> rfl

theorem tokenizeFrom_congr (alike : isBorder previous = isBorder other) (taken : Nat)
    (text : Text) :
    tokenizeFrom position previous taken text = tokenizeFrom position other taken text := by
  cases text with
  | nil => rw [tokenizeFrom, tokenizeFrom]
  | cons character rest =>
      cases taken with
      | succ taken => rw [tokenizeFrom, tokenizeFrom]
      | zero =>
          rw [tokenizeFrom, tokenizeFrom, instructionAt?, instructionAt?, alike]

theorem localToWords : LocalToWords tokenize := by
  apply LocalToWords.of_splits rfl
  intro front space back blank
  unfold tokenize
  have bordered : isBorder (some space) = isBorder none := blank
  rw [tokenizeFrom_append_space blank front back (Nat.zero_le _), Nat.add_comm, tokenizeFrom_add,
    tokenizeFrom_congr bordered]

end Wildcard

theorem wordReaders_localToWords :
    LocalToWords Wildcard.tokenize ∧ LocalToWords WordLength.tokenize ∧
      LocalToWords SelfRepetition.tokenize :=
  ⟨Wildcard.localToWords, WordLength.localToWords, SelfRepetition.localToWords⟩

end TapeDialects
