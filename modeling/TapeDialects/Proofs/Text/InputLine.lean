/-
The lines of a text, and the character that each of them is read as.

A line keeps the line feed that ends it, and the last line alone may lack one.
To be read, a line loses all line breaks at its end, whatever their order, and
then all spaces at its front.
-/

import TapeDialects.Proofs.Text.Line
import TapeDialects.Text.Line

namespace TapeDialects.Text

/-- The lines of the text, each with the line feed that ends it. -/
def lines : Text → List Text
  | [] => []
  | character :: rest =>
      if character = '\n' then
        [character] :: lines rest
      else
        match lines rest with
        | [] => [[character]]
        | line :: others => (character :: line) :: others

variable {text line : Text} {character other : Char}

theorem lines_eq_cons (nonempty : text ≠ []) :
    lines text = firstLine text :: lines (afterLine text) := by
  induction text with
  | nil => exact absurd rfl nonempty
  | cons character rest ih =>
      rw [lines, firstLine, afterLine]
      by_cases lineEnds : character = '\n'
      · rw [if_pos lineEnds, if_pos lineEnds, if_pos lineEnds]
      · rw [if_neg lineEnds, if_neg lineEnds, if_neg lineEnds]
        cases rest with
        | nil => rfl
        | cons next rest => rw [ih (List.cons_ne_nil next rest)]

theorem flatten_lines (text : Text) : (lines text).flatten = text := by
  induction text with
  | nil => rfl
  | cons character rest ih =>
      rw [lines]
      by_cases lineEnds : character = '\n'
      · rw [if_pos lineEnds, List.flatten_cons, ih]
        rfl
      · rw [if_neg lineEnds]
        cases cut : lines rest with
        | nil =>
            rw [cut] at ih
            rw [← ih]
            rfl
        | cons line others =>
            rw [cut] at ih
            rw [← ih]
            rfl

theorem lines_afterLine (text : Text) : lines (afterLine text) = (lines text).drop 1 := by
  cases text with
  | nil => rfl
  | cons character rest =>
      rw [lines_eq_cons (List.cons_ne_nil character rest), List.drop_succ_cons,
        List.drop_zero]

/-- At the end of the text the first line is empty, and there is no line. -/
theorem firstLine_eq_head (text : Text) : firstLine text = (lines text).headD [] := by
  cases text with
  | nil => rfl
  | cons character rest =>
      rw [lines_eq_cons (List.cons_ne_nil character rest)]
      rfl

/-! ### What a line is read as -/

/-- The parts of a line: as many spaces at its front and as many line breaks at its end
as can be left out, the line breaks first. -/
structure Trims (line spaces kept breaks : Text) : Prop where
  whole : line = spaces ++ kept ++ breaks
  breaks : ∀ character ∈ breaks, character = '\n' ∨ character = '\r'
  unbroken : ∀ last, (spaces ++ kept).getLast? = some last → last ≠ '\n' ∧ last ≠ '\r'
  spaces : ∀ character ∈ spaces, character = ' '
  unspaced : kept.head? ≠ some ' '

def ReadAs (line : Text) (character : Char) : Prop :=
  ∃ spaces kept breaks, Trims line spaces kept breaks ∧ kept.headD '\n' = character

theorem isLineBreak_eq_true_iff :
    isLineBreak character = true ↔ character = '\n' ∨ character = '\r' := by
  rw [isLineBreak, Bool.or_eq_true, beq_iff_eq, beq_iff_eq]

theorem trimEnd_append_breaks (line : Text) :
    trimEnd line ++ (line.reverse.takeWhile isLineBreak).reverse = line := by
  rw [trimEnd, ← List.reverse_append, List.takeWhile_append_dropWhile, List.reverse_reverse]

theorem unbroken_of_getLast?_trimEnd (ends : (trimEnd line).getLast? = some character) :
    character ≠ '\n' ∧ character ≠ '\r' := by
  rw [trimEnd, List.getLast?_reverse] at ends
  have kept := List.head?_dropWhile_not isLineBreak line.reverse
  rw [ends] at kept
  rw [← not_or, ← isLineBreak_eq_true_iff, Bool.not_eq_true]
  exact kept

theorem readAs_inputCharacter (line : Text) : ReadAs line line.inputCharacter := by
  refine ⟨line.trimEnd.takeWhile (· == ' '), line.trimEnd.dropWhile (· == ' '),
    (line.reverse.takeWhile isLineBreak).reverse, ?_, rfl⟩
  have parted : line.trimEnd.takeWhile (· == ' ') ++ line.trimEnd.dropWhile (· == ' ') =
      line.trimEnd := List.takeWhile_append_dropWhile
  refine
    { whole := ?whole
      breaks := ?breaks
      unbroken := ?unbroken
      spaces := ?spaces
      unspaced := ?unspaced }
  case whole => rw [parted, trimEnd_append_breaks]
  case breaks =>
      intro character member
      rw [List.mem_reverse] at member
      exact isLineBreak_eq_true_iff.mp (List.all_eq_true.mp List.all_takeWhile _ member)
  case unbroken =>
      intro last ends
      rw [parted] at ends
      exact unbroken_of_getLast?_trimEnd ends
  case spaces =>
      intro character member
      have space := List.all_eq_true.mp List.all_takeWhile character member
      exact beq_iff_eq.mp space
  case unspaced =>
      intro spaced
      have kept := List.head?_dropWhile_not (· == ' ') line.trimEnd
      rw [spaced] at kept
      cases kept

theorem dropWhile_eq_self {drops : Char → Bool}
    (kept : ∀ first, text.head? = some first → drops first = false) :
    text.dropWhile drops = text := by
  cases text with
  | nil => rfl
  | cons first rest =>
      have stays : ¬ drops first = true := by
        rw [kept first rfl]
        exact Bool.false_ne_true
      exact List.dropWhile_cons_of_neg stays

section

variable {spaces kept breaks : Text}

theorem Trims.trimEnd_eq (trims : Trims line spaces kept breaks) :
    line.trimEnd = spaces ++ kept := by
  have allBreaks : ∀ character ∈ breaks.reverse, isLineBreak character = true := by
    intro character member
    exact isLineBreak_eq_true_iff.mpr (trims.breaks character (List.mem_reverse.mp member))
  have stops : ∀ last, (spaces ++ kept).reverse.head? = some last →
      isLineBreak last = false := by
    intro last ends
    rw [List.head?_reverse] at ends
    rw [← Bool.not_eq_true, isLineBreak_eq_true_iff, not_or]
    exact trims.unbroken last ends
  rw [trimEnd, trims.whole, List.reverse_append, List.dropWhile_append_of_pos allBreaks,
    dropWhile_eq_self stops, List.reverse_reverse]

theorem Trims.kept_eq (trims : Trims line spaces kept breaks) :
    line.trimEnd.dropWhile (· == ' ') = kept := by
  have allSpaces : ∀ character ∈ spaces, (character == ' ') = true := by
    intro character member
    exact beq_iff_eq.mpr (trims.spaces character member)
  have stops : ∀ first, kept.head? = some first → (first == ' ') = false := by
    intro first starts
    rw [beq_eq_false_iff_ne]
    intro space
    rw [space] at starts
    exact trims.unspaced starts
  rw [trims.trimEnd_eq, List.dropWhile_append_of_pos allSpaces, dropWhile_eq_self stops]

end

theorem readAs_iff : ReadAs line character ↔ character = line.inputCharacter := by
  constructor
  · rintro ⟨spaces, kept, breaks, trims, first⟩
    rw [inputCharacter, trims.kept_eq, first]
  · intro same
    rw [same]
    exact readAs_inputCharacter line

end TapeDialects.Text
