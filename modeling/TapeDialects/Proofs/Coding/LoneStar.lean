/-
Stars that stand alone.

A star repeats the command before it if white space or a border of the text stands on
both sides of it.  A word of four characters holds no such star: the character before a
star inside the word, or the one behind a star at its front, is not white space.  So the
reader, wherever it stands, meets each star that stands alone outside of all words, and
finds the same characters on both sides of it as there are in the whole text.
-/

import TapeDialects.Proofs.Coding.Wildcard
import TapeDialects.Proofs.Dialect.Order

namespace TapeDialects.Wildcard

/-- A star stands at the place, and nothing but white space or a border beside it. -/
def StandsAlone (text : Text) (index : Nat) : Prop :=
  text[index]? = some star ∧ isBorder (text.take index).getLast? = true ∧
    isBorder (text.drop (index + 1)).head? = true

instance (text : Text) (index : Nat) : Decidable (StandsAlone text index) :=
  inferInstanceAs (Decidable (_ ∧ _))

def loneStars (text : Text) : List Nat :=
  (List.range text.length).filter fun index => decide (StandsAlone text index)

def repeatAt (text : Text) (index : Nat) : Instruction :=
  { command := .again
    lexeme := [star]
    span := { start := Text.size (text.take index), stop := Text.size (text.take index) + 1 } }

def repeats (instruction : Instruction) : Bool :=
  decide (instruction.command = .again)

variable {text front rest : Text} {character : Char} {taken position : Nat}
  {previous : Option Char} {instruction : Instruction}

theorem standsAlone_iff :
    StandsAlone (front ++ character :: rest) front.length ↔
      character = star ∧ isBorder front.getLast? = true ∧ isBorder rest.head? = true := by
  unfold StandsAlone
  rw [List.getElem?_append_right (Nat.le_refl _), Nat.sub_self, List.getElem?_cons_zero,
    Option.some.injEq, List.take_left, List.drop_length_add_append, List.drop_succ_cons,
    List.drop_zero]

theorem repeatAt_length (front rest : Text) :
    repeatAt (front ++ rest) front.length = .startingAt front.size .again [star] := by
  unfold repeatAt
  rw [List.take_left]
  rfl

def repeatsBehind (front rest : Text) : List Instruction :=
  ((List.range' front.length rest.length).filter fun index =>
    decide (StandsAlone (front ++ rest) index)).map (repeatAt (front ++ rest))

theorem repeatsBehind_nil (front : Text) : repeatsBehind front [] = [] := rfl

theorem repeatsBehind_cons (front : Text) (character : Char) (rest : Text) :
    repeatsBehind front (character :: rest) =
      (if character = star ∧ isBorder front.getLast? = true ∧ isBorder rest.head? = true then
        [.startingAt front.size .again [star]]
      else
        []) ++ repeatsBehind (front ++ [character]) rest := by
  unfold repeatsBehind
  rw [List.length_cons, List.range'_succ, List.length_append, List.length_singleton,
    ← List.append_cons]
  by_cases alone : StandsAlone (front ++ character :: rest) front.length
  · rw [List.filter_cons, if_pos (decide_eq_true alone), if_pos (standsAlone_iff.mp alone),
      List.map_cons, repeatAt_length]
    rfl
  · rw [List.filter_cons, if_neg (by simpa using alone),
      if_neg fun stands => alone (standsAlone_iff.mpr stands)]
    rfl

/-! ### What the reader meets at a place -/

theorem command_ne_again_of_wordCommand? {command : Command}
    (known : wordCommand? text = some command) : command ≠ .again := by
  have others : .again ∉ outerLetters.map OuterLetters.command := by decide
  intro same
  exact others (same ▸ command_mem_of_wordCommand? known)

/-- The characters of a word are solid, so behind the first of them there is no border. -/
theorem solid_of_opensWord (opens : opensWord (character :: rest) = true) :
    isBorder rest.head? = false ∧ Text.isSpace character = false ∧
      ∀ inner ∈ rest.take 3, Text.isSpace inner = false := by
  obtain ⟨word, later, parts, sized, solid⟩ := exists_word_of_opensWord opens
  match word, sized with
  | [first, second, third, last], _ =>
      cases parts
      obtain ⟨front, inner⟩ := List.forall_mem_cons.mp solid
      exact ⟨inner second List.mem_cons_self, front, inner⟩

theorem filter_repeats_instructionAt? (position : Nat) (previous : Option Char)
    (character : Char) (rest : Text) :
    (instructionAt? position previous (character :: rest)).toList.filter repeats =
      if character = star ∧ isBorder previous = true ∧ isBorder rest.head? = true then
        [.startingAt position .again [star]]
      else
        [] := by
  unfold instructionAt?
  by_cases opens : opensWord (character :: rest) = true
  · rw [if_pos opens, (solid_of_opensWord opens).1, if_neg (by simp)]
    cases known : wordCommand? (character :: rest) with
    | none => rfl
    | some command =>
        apply List.filter_cons_of_neg
        intro again
        exact command_ne_again_of_wordCommand? known (of_decide_eq_true again)
  · rw [if_neg opens]
    simp only
    split
    · next alone =>
        rw [alone.1]
        rfl
    · rfl

theorem filter_repeats_tokenizeFrom (inside : taken ≠ 0 → isBorder front.getLast? = false)
    (solid : ∀ inner ∈ rest.take taken, Text.isSpace inner = false) :
    (tokenizeFrom front.size front.getLast? taken rest).filter repeats =
      repeatsBehind front rest := by
  induction rest generalizing front taken with
  | nil => rw [tokenizeFrom, repeatsBehind_nil, List.filter_nil]
  | cons character rest ih =>
      have last : (front ++ [character]).getLast? = some character := List.getLast?_concat
      rw [repeatsBehind_cons]
      cases taken with
      | succ taken =>
          have unbordered := inside taken.succ_ne_zero
          rw [List.take_succ_cons, List.forall_mem_cons] at solid
          rw [tokenizeFrom, unbordered, if_neg (by simp), List.nil_append, ← last,
            ← Text.size_append_singleton]
          apply ih _ solid.2
          intro _
          rw [last]
          exact solid.1
      | zero =>
          rw [tokenizeFrom, List.filter_append, filter_repeats_instructionAt?, ← last,
            ← Text.size_append_singleton]
          apply congrArg
          by_cases opens : opensWord (character :: rest) = true
          · obtain ⟨-, here, later⟩ := solid_of_opensWord opens
            rw [if_pos opens]
            apply ih _ later
            intro _
            rw [last]
            exact here
          · rw [if_neg opens]
            exact ih (fun taken => absurd rfl taken) (List.forall_mem_nil _)

theorem StandsAlone.opensWord_eq_false {index start : Nat} (alone : StandsAlone text index)
    (behind : start ≤ index) (within : index < start + 4) :
    opensWord (text.drop start) = false := by
  rw [Bool.eq_false_iff]
  intro opens
  obtain ⟨word, later, parts, sized, solid⟩ := exists_word_of_opensWord opens
  obtain ⟨-, left, right⟩ := alone
  have inWord : ∀ offset < 4, ∃ inner, text[start + offset]? = some inner ∧
      Text.isSpace inner = false := by
    intro offset bounded
    have counted : offset < word.length := sized ▸ bounded
    refine ⟨word[offset], ?_, solid _ (List.getElem_mem counted)⟩
    rw [← List.getElem?_drop, parts, List.getElem?_append_left counted,
      List.getElem?_eq_getElem counted]
  -- One of the two neighbours of the star is in the word with it.
  rcases Nat.eq_or_lt_of_le behind with rfl | further
  · obtain ⟨next, found, dense⟩ := inWord 1 (by omega)
    rw [List.head?_drop, found, isBorder, dense] at right
    cases right
  · obtain ⟨next, found, dense⟩ := inWord (index - 1 - start) (by omega)
    have place : start + (index - 1 - start) = index - 1 := by omega
    rw [place] at found
    rw [List.getLast?_take, if_neg (by omega), found, Option.some_or, isBorder, dense] at left
    cases left

theorem word_of_instructionAt? (found : instructionAt? position previous rest = some instruction)
    (other : instruction.command ≠ .again) :
    instruction.lexeme.length = 4 ∧
      ∀ character ∈ instruction.lexeme, Text.isSpace character = false := by
  unfold instructionAt? at found
  by_cases opens : opensWord rest = true
  · rw [if_pos opens, Option.map_eq_some_iff] at found
    obtain ⟨command, -, rfl⟩ := found
    obtain ⟨word, later, parts, sized, solid⟩ := exists_word_of_opensWord opens
    have taken : rest.take 4 = word := by rw [parts, List.take_left' sized]
    unfold Instruction.startingAt
    rw [taken]
    exact ⟨sized, solid⟩
  · rw [if_neg opens] at found
    split at found
    · split at found
      · cases found
        exact absurd rfl other
      · cases found
    · cases found

theorem word_of_mem_tokenizeFrom (member : instruction ∈ tokenizeFrom position previous taken rest)
    (other : instruction.command ≠ .again) :
    instruction.lexeme.length = 4 ∧
      ∀ character ∈ instruction.lexeme, Text.isSpace character = false := by
  induction rest generalizing position previous taken with
  | nil =>
      rw [tokenizeFrom] at member
      cases member
  | cons character rest ih =>
      cases taken with
      | succ taken =>
          rw [tokenizeFrom] at member
          exact ih member
      | zero =>
          rw [tokenizeFrom, List.mem_append, Option.mem_toList] at member
          rcases member with here | behind
          · exact word_of_instructionAt? here other
          · exact ih behind

/-- The repeating instructions are the stars that stand alone, and all others are words. -/
structure RepeatsLoneStars (text : Text) : Prop where
  stars : (tokenize text).filter repeats = (loneStars text).map (repeatAt text)
  untaken : ∀ index ∈ loneStars text, ∀ start, start ≤ index → index < start + 4 →
    opensWord (text.drop start) = false
  words : ∀ instruction ∈ tokenize text, instruction.command ≠ .again →
    instruction.lexeme.length = 4 ∧
      ∀ character ∈ instruction.lexeme, Text.isSpace character = false

theorem repeatsLoneStars (text : Text) : RepeatsLoneStars text := by
  refine { stars := ?stars, untaken := ?untaken, words := fun _ => word_of_mem_tokenizeFrom }
  case stars =>
      have outside : (0 : Nat) ≠ 0 → isBorder ([] : Text).getLast? = false :=
        fun taken => absurd rfl taken
      unfold tokenize loneStars
      rw [List.range_eq_range']
      exact filter_repeats_tokenizeFrom outside (List.forall_mem_nil _)
  case untaken =>
      intro index listed start
      exact StandsAlone.opensWord_eq_false (of_decide_eq_true (List.mem_filter.mp listed).2)

/-- The stars in front of the word, in it and in the last word have a neighbour. -/
example : loneStars ['*', 'f', '*', '*', 'k', ' ', '*', '\u3000', '*', '*'] = [6] := by decide

end TapeDialects.Wildcard
