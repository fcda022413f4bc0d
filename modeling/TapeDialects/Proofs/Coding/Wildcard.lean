/-
Reading texts written in words of which only the outer letters count.

White space is none of the outer letters in any case, so it neither opens a word
nor closes one.  The star counts only between borders: a reader behind the last
character of a word stands in front of white space or the end, and one behind
white space has its border, so a star that is written out always has two.
-/

import TapeDialects.Coding.Wildcard
import TapeDialects.Proofs.Text.Written

namespace TapeDialects

namespace Text

theorem ne_of_space {character other : Char} (space : isSpace character = true)
    (solid : isSpace other = false) : character ≠ other := by
  intro same
  rw [same, solid] at space
  cases space

theorem not_between_of_space {character : Char} (space : isSpace character = true)
    (low high : Nat) (apart : ∀ range ∈ spaceRanges, range.2 < low ∨ high < range.1) :
    ¬ (low ≤ character.toNat ∧ character.toNat ≤ high) := by
  rintro ⟨above, below⟩
  rcases (isSpace_iff character).mp space with ⟨range, listed, starts, stops⟩
  rcases apart range listed with early | late <;> omega

theorem foldCase_of_space {character : Char} (space : isSpace character = true) :
    foldCase character = character := by
  have unraised : ¬ (character.val ≥ 'A'.val ∧ character.val ≤ 'Z'.val) :=
    not_between_of_space space 65 90 (by decide)
  unfold foldCase lowerCase Char.toLower
  rw [if_neg (ne_of_space space rfl), if_neg (ne_of_space space rfl), dif_neg unraised]

theorem solid_of_foldCase {character : Char} (solid : isSpace (foldCase character) = false) :
    isSpace character = false := by
  rw [← Bool.not_eq_true]
  intro space
  rw [foldCase_of_space space, space] at solid
  cases solid

end Text

namespace Wildcard

def OuterLetters.word (pair : OuterLetters) : Text :=
  [pair.first, '_', '_', pair.last]

def Spells (command : Command) (word : Text) : Prop :=
  (command = .again ∧ word = [star]) ∨
    ∃ pair ∈ outerLetters, command = pair.command ∧ word = pair.word

theorem exists_spells_iff {command : Command} :
    (∃ word, Spells command word) ↔
      command ∈ outerLetters.map OuterLetters.command ++ [.again] := by
  rw [List.mem_append, List.mem_map, List.mem_singleton]
  constructor
  · intro spellable
    rcases spellable with ⟨word, repeats | ⟨pair, listed, same, -⟩⟩
    · exact Or.inr repeats.1
    · exact Or.inl ⟨pair, listed, same.symm⟩
  · intro member
    rcases member with ⟨pair, listed, same⟩ | repeats
    · exact ⟨pair.word, Or.inr ⟨pair, listed, same.symm, rfl⟩⟩
    · exact ⟨[star], Or.inl ⟨repeats, rfl⟩⟩

theorem known_of_mem : ∀ pair ∈ outerLetters,
    isOuter pair.first pair.last = true ∧
      command? pair.first pair.last = some pair.command := by
  decide

theorem solid_of_isOuter {first last : Char} (outer : isOuter first last = true) :
    Text.isSpace first = false ∧ Text.isSpace last = false := by
  have solid : ∀ pair ∈ outerLetters,
      Text.isSpace pair.first = false ∧ Text.isSpace pair.last = false := by decide
  unfold isOuter at outer
  rw [List.any_eq_true] at outer
  obtain ⟨pair, listed, same⟩ := outer
  rw [Bool.and_eq_true, beq_iff_eq, beq_iff_eq] at same
  have dense := solid pair listed
  rw [same.1, same.2] at dense
  exact ⟨Text.solid_of_foldCase dense.1, Text.solid_of_foldCase dense.2⟩

theorem solid_of_isInner {character : Char} (inner : isInner character = true) :
    Text.isSpace character = false := by
  rw [← Bool.not_eq_true]
  intro space
  have lower : ¬ (character.val ≥ 'a'.val ∧ character.val ≤ 'z'.val) :=
    Text.not_between_of_space space 97 122 (by decide)
  have digit : ¬ (character.val ≥ '0'.val ∧ character.val ≤ '9'.val) :=
    Text.not_between_of_space space 48 57 (by decide)
  unfold isInner Char.isLower Char.isDigit at inner
  simp only [Text.foldCase_of_space space, Bool.or_eq_true, Bool.and_eq_true, decide_eq_true_eq,
    beq_iff_eq] at inner
  rcases inner with ((lowered | counted) | underscored) | starred
  · exact lower lowered
  · exact digit counted
  · exact Text.ne_of_space space rfl underscored
  · exact Text.ne_of_space space rfl starred

theorem exists_word_of_opensWord {text : Text} (opens : opensWord text = true) :
    ∃ word rest : Text, text = word ++ rest ∧ word.length = 4 ∧
      ∀ character ∈ word, Text.isSpace character = false := by
  unfold opensWord at opens
  split at opens
  · next first second third last rest =>
      rw [Bool.and_eq_true, Bool.and_eq_true] at opens
      obtain ⟨⟨outer, inner⟩, otherInner⟩ := opens
      refine ⟨[first, second, third, last], rest, rfl, rfl, ?_⟩
      simp only [List.forall_mem_cons]
      exact ⟨(solid_of_isOuter outer).1, solid_of_isInner inner, solid_of_isInner otherInner,
        (solid_of_isOuter outer).2, List.forall_mem_nil _⟩
  · cases opens

theorem opensWord_of_space {character : Char} (space : Text.isSpace character = true)
    (rest : Text) : opensWord (character :: rest) = false := by
  rw [Bool.eq_false_iff]
  intro opens
  rcases exists_word_of_opensWord opens with ⟨word, later, parts, sized, solid⟩
  cases word with
  | nil => cases sized
  | cons first others =>
      have dense := solid first List.mem_cons_self
      rw [← (List.cons.inj parts).1, space] at dense
      cases dense

theorem tokenizeFrom_space {position : Nat} {previous : Option Char} {character : Char}
    (space : Text.isSpace character = true) (rest : Text) :
    tokenizeFrom position previous 0 (character :: rest) =
      tokenizeFrom (position + character.utf8Size) (some character) 0 rest := by
  have ordinary : character ≠ star := Text.ne_of_space space rfl
  have closed := opensWord_of_space space rest
  rw [tokenizeFrom, instructionAt?, closed]
  simp [ordinary]

theorem instructionAt?_word {pair : OuterLetters} (listed : pair ∈ outerLetters)
    (position : Nat) (previous : Option Char) (rest : Text) :
    opensWord (pair.word ++ rest) = true ∧
      instructionAt? position previous (pair.word ++ rest) =
        some (Instruction.startingAt position pair.command pair.word) := by
  rcases known_of_mem pair listed with ⟨outer, commanded⟩
  have opens : opensWord (pair.word ++ rest) = true := by
    unfold OuterLetters.word
    rw [List.cons_append, List.cons_append, List.cons_append, List.cons_append, opensWord,
      outer]
    rfl
  refine ⟨opens, ?_⟩
  unfold instructionAt?
  rw [if_pos opens]
  unfold OuterLetters.word
  rw [List.cons_append, List.cons_append, List.cons_append, List.cons_append, wordCommand?,
    commanded]
  rfl

theorem tokenizeFrom_word {pair : OuterLetters} (listed : pair ∈ outerLetters)
    (position : Nat) (previous : Option Char) (rest : Text) :
    ∃ later, tokenizeFrom position previous 0 (pair.word ++ rest) =
      Instruction.startingAt position pair.command pair.word ::
        tokenizeFrom later (some pair.last) 0 rest := by
  rcases instructionAt?_word listed position previous rest with ⟨opens, found⟩
  unfold OuterLetters.word at opens found ⊢
  rw [List.cons_append] at opens found ⊢
  rw [tokenizeFrom, found, if_pos opens]
  exact ⟨_, rfl⟩

theorem tokenizeFrom_star {previous : Option Char} (bordered : isBorder previous = true)
    {rest : Text} (apart : rest.Apart) (position : Nat) :
    tokenizeFrom position previous 0 (star :: rest) =
      Instruction.startingAt position .again [star] ::
        tokenizeFrom (position + star.utf8Size) (some star) 0 rest := by
  have closed : opensWord (star :: rest) = false := by
    unfold opensWord
    split
    · next first second third last others same =>
        rw [← (List.cons.inj same).1]
        rfl
    · rfl
  have ending : isBorder rest.head? = true := by
    cases rest with
    | nil => rfl
    | cons character others => exact Text.apart_cons.mp apart
  rw [tokenizeFrom, instructionAt?, closed]
  simp [bordered, ending]

theorem bordered_of_ready {previous : Option Char} {character : Char} {rest : Text}
    (ready : isBorder previous = true ∨ Text.Apart (character :: rest))
    (solid : Text.isSpace character = false) : isBorder previous = true := by
  rcases ready with bordered | apart
  · exact bordered
  · rw [Text.apart_cons, solid] at apart
    cases apart

theorem readsWords :
    ReadsWords Spells
      (fun state rest => isBorder (Prod.snd state) = true ∨ Text.Apart rest)
      (fun state rest => tokenizeFrom (Prod.fst state) state.2 0 rest) := by
  refine { ends := ?ends, passes := ?passes, takes := ?takes }
  case ends =>
      intro state
      rfl
  case passes =>
      intro state character rest _ space
      exact ⟨(state.1 + character.utf8Size, some character), Or.inl space,
        tokenizeFrom_space space rest⟩
  case takes =>
      intro state command word rest ready spelled apart
      rcases spelled with ⟨repeats, same⟩ | ⟨pair, listed, named, same⟩
      · subst same
        have bordered := bordered_of_ready ready rfl
        exact ⟨_, (state.1 + star.utf8Size, some star), repeats.symm, Or.inr apart,
          tokenizeFrom_star bordered apart state.1⟩
      · subst same
        rcases tokenizeFrom_word listed state.1 state.2 rest with ⟨later, taken⟩
        exact ⟨_, (later, some pair.last), named.symm, Or.inr apart, taken⟩

theorem map_command_tokenize {commands : List Command} {text : Text}
    (written : Written Spells commands text) :
    (tokenize text).map Instruction.command = commands :=
  written.map_command_read readsWords (0, none) (Or.inl rfl)

end Wildcard
end TapeDialects
