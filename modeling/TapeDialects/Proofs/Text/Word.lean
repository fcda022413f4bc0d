/-
The words of a text, one at a time.

White space in front of a text does not change its words.  A longest piece
without white space is a word of its own: the words behind it start behind the
white space that ends it, so they do not join it.
-/

import TapeDialects.Proofs.Text.Written
import TapeDialects.Text.Word

namespace TapeDialects

namespace Word

theorem start_eq_or_mem_of_mem_attach {position : Nat} {character : Char}
    {words : List Word} {word : Word} (member : word ∈ attach position character words) :
    word.start = position ∨ word ∈ words := by
  cases words with
  | nil =>
      rw [attach, List.mem_singleton] at member
      rw [member]
      exact Or.inl rfl
  | cons first others =>
      rw [attach] at member
      split at member
      · rcases List.mem_cons.mp member with same | behind
        · rw [same]
          exact Or.inl rfl
        · exact Or.inr (List.mem_cons_of_mem first behind)
      · rcases List.mem_cons.mp member with same | behind
        · rw [same]
          exact Or.inl rfl
        · exact Or.inr behind

theorem attach_of_gap {position : Nat} {character : Char} {words : List Word}
    (gap : ∀ word ∈ words, position + character.utf8Size < word.start) :
    attach position character words =
      { start := position, letters := [character] } :: words := by
  cases words with
  | nil => rfl
  | cons first others =>
      have behind := gap first List.mem_cons_self
      rw [attach, if_neg (by omega)]

end Word

namespace Text

theorem wordsFrom_space {position : Nat} {character : Char}
    (space : isSpace character = true) (rest : Text) :
    wordsFrom position (character :: rest) =
      wordsFrom (position + character.utf8Size) rest := by
  rw [wordsFrom, if_pos space]

theorem wordsFrom_solid {position : Nat} {character : Char}
    (solid : isSpace character = false) (rest : Text) :
    wordsFrom position (character :: rest) =
      Word.attach position character (wordsFrom (position + character.utf8Size) rest) := by
  rw [wordsFrom, solid]
  rfl

theorem le_start_of_mem_wordsFrom {text : Text} {position : Nat} {word : Word}
    (member : word ∈ wordsFrom position text) : position ≤ word.start := by
  induction text generalizing position with
  | nil => cases member
  | cons character rest ih =>
      cases blank : isSpace character with
      | true =>
          rw [wordsFrom_space blank] at member
          have later := ih member
          omega
      | false =>
          rw [wordsFrom_solid blank] at member
          rcases Word.start_eq_or_mem_of_mem_attach member with same | behind
          · omega
          · have later := ih behind
            omega

theorem Apart.lt_start_of_mem_wordsFrom {text : Text} (apart : text.Apart) {position : Nat}
    {word : Word} (member : word ∈ wordsFrom position text) : position < word.start := by
  cases text with
  | nil => cases member
  | cons character rest =>
      rw [wordsFrom_space (apart_cons.mp apart)] at member
      have later := le_start_of_mem_wordsFrom member
      have wide := character.utf8Size_pos
      omega

theorem wordsFrom_word {letters rest : Text} {position : Nat} (nonempty : letters ≠ [])
    (solid : ∀ character ∈ letters, isSpace character = false) (apart : rest.Apart) :
    wordsFrom position (letters ++ rest) =
      { start := position, letters } :: wordsFrom (position + letters.size) rest := by
  induction letters generalizing position with
  | nil => exact absurd rfl nonempty
  | cons character letters ih =>
      rw [List.cons_append, wordsFrom_solid (solid character List.mem_cons_self)]
      cases letters with
      | nil =>
          rw [List.nil_append, size_cons, size_nil, Nat.add_zero]
          apply Word.attach_of_gap
          intro word member
          exact apart.lt_start_of_mem_wordsFrom member
      | cons second others =>
          rw [ih (List.cons_ne_nil second others)
              fun other member => solid other (List.mem_cons_of_mem character member),
            Word.attach, if_pos rfl, size_cons character, Nat.add_assoc]

end Text
end TapeDialects
