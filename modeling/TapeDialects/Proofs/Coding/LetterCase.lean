/-
The case of ASCII letters in words of which the outer letters count.

All that the reader asks of a character is the same for both cases of a letter: how many
bytes it has, whether it is white space, a star or an inner character of a word, and what
it becomes under case folding and in lower case.  So reading a text in lower case is
reading the text, and then putting the lexemes into lower case.
-/

import Mathlib.Data.List.Forall2
import TapeDialects.Coding.Wildcard

namespace TapeDialects

namespace Text

def capital (place : Nat) : Char :=
  Char.ofNat (65 + place)

theorem toLower_eq_self_or_capital (character : Char) :
    character.toLower = character ∨ ∃ place < 26, character = capital place := by
  unfold Char.toLower
  split
  · next letter =>
      have low : 65 ≤ character.toNat := letter.1
      have high : character.toNat ≤ 90 := letter.2
      refine Or.inr ⟨character.toNat - 65, by omega, ?_⟩
      rw [capital, Nat.add_sub_cancel' low, Char.ofNat_toNat]
  · exact Or.inl rfl

/-- What does not tell the two cases of a letter apart is the same for a text in lower case. -/
theorem toLower_congr {Value : Type} {ask : Char → Value}
    (blind : ∀ place < 26, ask (capital place).toLower = ask (capital place)) (character : Char) :
    ask character.toLower = ask character := by
  rcases toLower_eq_self_or_capital character with same | ⟨place, bound, rfl⟩
  · rw [same]
  · exact blind place bound

theorem utf8Size_toLower : ∀ character : Char, character.toLower.utf8Size = character.utf8Size :=
  toLower_congr (by decide)

theorem isSpace_toLower : ∀ character : Char, isSpace character.toLower = isSpace character :=
  toLower_congr (by decide)

theorem lowerCase_toLower : ∀ character : Char, lowerCase character.toLower = lowerCase character :=
  toLower_congr (by decide)

theorem foldCase_toLower : ∀ character : Char, foldCase character.toLower = foldCase character :=
  toLower_congr (by decide)

theorem size_map_toLower (text : Text) : size (text.map Char.toLower) = size text := by
  induction text with
  | nil => rfl
  | cons character rest ih => rw [List.map_cons, size_cons, size_cons, utf8Size_toLower, ih]

end Text

namespace Instruction

def lowered (instruction : Instruction) : Instruction :=
  { instruction with lexeme := instruction.lexeme.map Char.toLower }

structure AlikeUpToCase (first second : Instruction) : Prop where
  command : first.command = second.command
  span : first.span = second.span
  lexeme : first.lexeme.map Char.toLower = second.lexeme.map Char.toLower

theorem lowered_startingAt (position : Nat) (command : Command) (lexeme : Text) :
    (startingAt position command lexeme).lowered =
      startingAt position command (lexeme.map Char.toLower) := by
  unfold startingAt lowered
  rw [Text.size_map_toLower]

theorem alikeUpToCase_of_lowered_eq {first second : Instruction}
    (same : first.lowered = second.lowered) : first.AlikeUpToCase second := by
  obtain ⟨command, lexeme, span⟩ := Instruction.mk.inj same
  exact { command, span, lexeme }

end Instruction

namespace Wildcard

variable {text other : Text}

theorem isInner_toLower : ∀ character : Char, isInner character.toLower = isInner character :=
  Text.toLower_congr (by decide)

theorem toLower_eq_star_iff (character : Char) : character.toLower = star ↔ character = star := by
  have blind : ∀ place < 26, decide ((Text.capital place).toLower = star) =
      decide (Text.capital place = star) := by decide
  exact decide_eq_decide.mp
    (@Text.toLower_congr Bool (fun other => decide (other = star)) blind character)

theorem isBorder_map_toLower (previous : Option Char) :
    isBorder (previous.map Char.toLower) = isBorder previous := by
  cases previous with
  | none => rfl
  | some character => exact Text.isSpace_toLower character

theorem isOuter_toLower (first last : Char) :
    isOuter first.toLower last.toLower = isOuter first last := by
  unfold isOuter
  rw [Text.foldCase_toLower, Text.foldCase_toLower]

theorem command?_toLower (first last : Char) :
    command? first.toLower last.toLower = command? first last := by
  unfold command?
  rw [Text.lowerCase_toLower, Text.lowerCase_toLower]

theorem opensWord_map_toLower (text : Text) :
    opensWord (text.map Char.toLower) = opensWord text := by
  match text with
  | first :: second :: third :: last :: _ =>
      simp only [List.map_cons, opensWord, isOuter_toLower, isInner_toLower]
  | [] | [_] | [_, _] | [_, _, _] => rfl

theorem wordCommand?_map_toLower (text : Text) :
    wordCommand? (text.map Char.toLower) = wordCommand? text := by
  match text with
  | first :: _ :: _ :: last :: _ => exact command?_toLower first last
  | [] | [_] | [_, _] | [_, _, _] => rfl

theorem instructionAt?_map_toLower (position : Nat) (previous : Option Char) (text : Text) :
    instructionAt? position (previous.map Char.toLower) (text.map Char.toLower) =
      (instructionAt? position previous text).map Instruction.lowered := by
  unfold instructionAt?
  rw [opensWord_map_toLower]
  by_cases opens : opensWord text = true
  · rw [if_pos opens, if_pos opens, wordCommand?_map_toLower, Option.map_map, ← List.map_take]
    congr 1
    funext command
    exact (Instruction.lowered_startingAt position command _).symm
  · rw [if_neg opens, if_neg opens]
    cases text with
    | nil => rfl
    | cons character rest =>
        simp only [List.map_cons, toLower_eq_star_iff, isBorder_map_toLower, List.head?_map]
        split
        · exact congrArg some (Instruction.lowered_startingAt position .again [character]).symm
        · rfl

theorem tokenizeFrom_map_toLower (position : Nat) (previous : Option Char) (taken : Nat)
    (text : Text) :
    tokenizeFrom position (previous.map Char.toLower) taken (text.map Char.toLower) =
      (tokenizeFrom position previous taken text).map Instruction.lowered := by
  induction text generalizing position previous taken with
  | nil =>
      rw [List.map_nil, tokenizeFrom, tokenizeFrom]
      rfl
  | cons character rest ih =>
      have behind : ∀ taken, tokenizeFrom (position + character.toLower.utf8Size)
          (some character.toLower) taken (rest.map Char.toLower) =
            (tokenizeFrom (position + character.utf8Size) (some character) taken rest).map
              Instruction.lowered := by
        intro taken
        rw [Text.utf8Size_toLower]
        exact ih _ (some character) taken
      cases taken with
      | succ taken =>
          rw [List.map_cons, tokenizeFrom, tokenizeFrom]
          exact behind taken
      | zero =>
          have here := instructionAt?_map_toLower position previous (character :: rest)
          have opens := opensWord_map_toLower (character :: rest)
          rw [List.map_cons] at here opens ⊢
          rw [tokenizeFrom, tokenizeFrom, here, opens, behind, List.map_append,
            Option.toList_map]

theorem tokenize_alikeUpToCase (same : text.map Char.toLower = other.map Char.toLower) :
    List.Forall₂ Instruction.AlikeUpToCase (tokenize text) (tokenize other) := by
  have lowered : ∀ text : Text,
      tokenize (text.map Char.toLower) = (tokenize text).map Instruction.lowered :=
    fun text => tokenizeFrom_map_toLower 0 none 0 text
  have equal : (tokenize text).map Instruction.lowered =
      (tokenize other).map Instruction.lowered := by
    rw [← lowered, ← lowered, same]
  rw [← List.forall₂_eq_eq_eq, List.forall₂_map_left_iff, List.forall₂_map_right_iff] at equal
  exact equal.imp fun _ _ => Instruction.alikeUpToCase_of_lowered_eq

/-- A word behind a character of two bytes, one with the Kelvin sign, one with a long s that is
taken and gives nothing, and a star. -/
def mixedCase : Text :=
  ['é', 'f', 'U', 'c', 'K', ' ', '\u212A', 'n', 'O', 'b', ' ', '\u017F', 'h', 'a', 'G', ' ', '*']

def swappedCase : Text :=
  ['é', 'F', 'u', 'C', 'k', ' ', '\u212A', 'N', 'o', 'B', ' ', '\u017F', 'H', 'a', 'g', ' ', '*']

theorem swappedCase_alike :
    mixedCase.map Char.toLower = swappedCase.map Char.toLower ∧
      List.Forall₂ Instruction.AlikeUpToCase (tokenize mixedCase) (tokenize swappedCase) ∧
      (tokenize swappedCase).map (fun instruction => (instruction.command, instruction.span)) =
        [(.right, { start := 2, stop := 6 }), (.input, { start := 7, stop := 13 }),
          (.again, { start := 20, stop := 21 })] := by
  have same : mixedCase.map Char.toLower = swappedCase.map Char.toLower := by decide
  exact ⟨same, tokenize_alikeUpToCase same, by decide⟩

end Wildcard
end TapeDialects
