/-
Words that are taken, and which of them are lost.

Of the words that open somewhere in a text the leftmost are taken that do not overlap.
There is one way to do so: words open at the taken places, four characters or more apart,
and wherever else a word opens it begins inside a taken one.  The instructions of a text,
its stars apart, are those of the taken words, each with the command of the pair that its
outer characters are under case folding.  But the command is looked up in lower case, and
the long s is in lower case already, so no pair has it: a word with a long s outside is
taken and lost, and so is whatever word begins inside it.
-/

import Mathlib.Data.List.Forall2
import Mathlib.Data.List.Pairwise
import Mathlib.Data.List.Sort
import TapeDialects.Proofs.Coding.LoneStar

namespace TapeDialects

namespace Wildcard

variable {text front rest : Text} {starts others : List Nat} {index place : Nat}
  {first last : Char} {pair : OuterLetters} {command : Command} {instruction : Instruction}

/-! ### The leftmost words that do not overlap -/

/-- The places of the taken words, counted in characters. -/
structure TakesAt (text : Text) (starts : List Nat) : Prop where
  opens : ∀ start ∈ starts, opensWord (text.drop start) = true
  apart : starts.Pairwise fun first second => first + 4 ≤ second
  covers : ∀ place, opensWord (text.drop place) = true →
    ∃ start ∈ starts, start ≤ place ∧ place < start + 4

theorem TakesAt.add_four_le (takes : TakesAt text starts) {start : Nat} (member : start ∈ starts)
    (listed : place ∈ starts) (before : start < place) : start + 4 ≤ place := by
  have turns : starts.Pairwise fun first second => first + 4 ≤ second ∨ second + 4 ≤ first :=
    takes.apart.imp fun apart => Or.inl apart
  have symmetric : Std.Symm fun first second : Nat => first + 4 ≤ second ∨ second + 4 ≤ first :=
    ⟨fun _ _ => Or.symm⟩
  have apart := turns.forall member listed (Nat.ne_of_lt before)
  omega

/-- If the places in front of one are the same, it is taken both ways. -/
theorem TakesAt.mem_of_mem (takes : TakesAt text starts) (otherwise : TakesAt text others)
    (alike : ∀ start < place, start ∈ others → start ∈ starts) (member : place ∈ starts) :
    place ∈ others := by
  obtain ⟨start, listed, behind, within⟩ := otherwise.covers place (takes.opens place member)
  rcases Nat.eq_or_lt_of_le behind with same | before
  · exact same ▸ listed
  · have apart := takes.add_four_le (alike start before listed) member before
    omega

theorem TakesAt.unique (takes : TakesAt text starts) (otherwise : TakesAt text others) :
    others = starts := by
  have ascending : ∀ {places : List Nat}, TakesAt text places → places.Pairwise (· < ·) :=
    fun taken => taken.apart.imp fun apart => by omega
  refine (ascending otherwise).eq_of_mem_iff (ascending takes) ?_
  intro place
  induction place using Nat.strongRecOn with
  | ind place ih =>
      constructor
      · exact otherwise.mem_of_mem takes fun start before => (ih start before).mpr
      · exact takes.mem_of_mem otherwise fun start before => (ih start before).mp

/-- The places of taken words from an index on, behind the rest of a word taken already. -/
def takenFrom (index : Nat) : Nat → Text → List Nat
  | _, [] => []
  | taken + 1, _ :: rest => takenFrom (index + 1) taken rest
  | 0, character :: rest =>
      if opensWord (character :: rest) then
        index :: takenFrom (index + 1) 3 rest
      else
        takenFrom (index + 1) 0 rest

theorem le_of_mem_takenFrom {taken start : Nat} (member : start ∈ takenFrom index taken rest) :
    index + taken ≤ start := by
  induction rest generalizing index taken with
  | nil =>
      rw [takenFrom] at member
      cases member
  | cons character rest ih =>
      cases taken with
      | succ taken =>
          rw [takenFrom] at member
          have behind := ih member
          omega
      | zero =>
          rw [takenFrom] at member
          split at member
          · rcases List.mem_cons.mp member with same | later
            · omega
            · have behind := ih later
              omega
          · have behind := ih member
            omega

theorem drop_length_cons (front rest : Text) (character : Char) :
    (front ++ character :: rest).drop front.length = character :: rest :=
  List.drop_left

theorem opensWord_of_mem_takenFrom {taken start : Nat} (front : Text)
    (member : start ∈ takenFrom front.length taken rest) :
    opensWord ((front ++ rest).drop start) = true := by
  induction rest generalizing front taken with
  | nil =>
      rw [takenFrom] at member
      cases member
  | cons character rest ih =>
      have longer : front.length + 1 = (front ++ [character]).length := by
        rw [List.length_append, List.length_singleton]
      have onward : ∀ {taken}, start ∈ takenFrom (front.length + 1) taken rest →
          opensWord ((front ++ character :: rest).drop start) = true := by
        intro taken later
        rw [longer] at later
        rw [List.append_cons]
        exact ih _ later
      cases taken with
      | succ taken =>
          rw [takenFrom] at member
          exact onward member
      | zero =>
          rw [takenFrom] at member
          split at member
          · next opens =>
              rcases List.mem_cons.mp member with same | later
              · rw [same, drop_length_cons]
                exact opens
              · exact onward later
          · exact onward member

theorem pairwise_takenFrom (index taken : Nat) (rest : Text) :
    (takenFrom index taken rest).Pairwise fun first second => first + 4 ≤ second := by
  induction rest generalizing index taken with
  | nil =>
      rw [takenFrom]
      exact .nil
  | cons character rest ih =>
      cases taken with
      | succ taken =>
          rw [takenFrom]
          exact ih _ _
      | zero =>
          rw [takenFrom]
          split
          · refine List.pairwise_cons.mpr ⟨?_, ih _ _⟩
            intro later member
            have behind := le_of_mem_takenFrom member
            omega
          · exact ih _ _

theorem exists_mem_takenFrom {taken : Nat} (front : Text) (ahead : front.length + taken ≤ place)
    (opens : opensWord ((front ++ rest).drop place) = true) :
    ∃ start ∈ takenFrom front.length taken rest, start ≤ place ∧ place < start + 4 := by
  induction rest generalizing front taken with
  | nil =>
      have ended : front.length ≤ place := Nat.le_of_add_right_le ahead
      rw [List.append_nil, List.drop_of_length_le ended] at opens
      cases opens
  | cons character rest ih =>
      have longer : front.length + 1 = (front ++ [character]).length := by
        rw [List.length_append, List.length_singleton]
      have onward : ∀ {taken}, front.length + 1 + taken ≤ place →
          ∃ start ∈ takenFrom (front.length + 1) taken rest, start ≤ place ∧ place < start + 4 := by
        intro taken later
        rw [longer] at later ⊢
        rw [List.append_cons] at opens
        exact ih _ later opens
      cases taken with
      | succ taken =>
          rw [takenFrom]
          exact onward (by omega)
      | zero =>
          rw [takenFrom]
          by_cases here : opensWord (character :: rest) = true
          · rw [if_pos here]
            by_cases inside : place < front.length + 4
            · exact ⟨front.length, List.mem_cons_self, ahead, inside⟩
            · have behind : front.length + 1 + 3 ≤ place := Nat.le_of_not_lt inside
              obtain ⟨start, member, covered⟩ := onward behind
              exact ⟨start, List.mem_cons_of_mem _ member, covered⟩
          · rw [if_neg here]
            have further : place ≠ front.length := by
              rintro rfl
              rw [drop_length_cons] at opens
              exact here opens
            exact onward (by omega)

theorem takenFrom_takesAt (text : Text) : TakesAt text (takenFrom 0 0 text) :=
  { opens := fun _ => opensWord_of_mem_takenFrom []
    apart := pairwise_takenFrom 0 0 text
    covers := fun place => exists_mem_takenFrom [] (Nat.zero_le place) }

/-! ### The command of a word -/

structure OuterLetters.FitsAt (pair : OuterLetters) (text : Text) (start : Nat) : Prop where
  first : text[start]?.map Text.foldCase = some pair.first
  last : text[start + 3]?.map Text.foldCase = some pair.last

def HasLongS (text : Text) (start : Nat) : Prop :=
  text[start]? = some Text.longS ∨ text[start + 3]? = some Text.longS

instance (text : Text) (start : Nat) : Decidable (HasLongS text start) :=
  inferInstanceAs (Decidable (_ ∨ _))

theorem ne_longS_of_mem : ∀ pair ∈ outerLetters, pair.first ≠ Text.longS ∧ pair.last ≠ Text.longS := by
  decide

theorem command?_eq_none_iff (outer : isOuter first last = true) :
    command? first last = none ↔ first = Text.longS ∨ last = Text.longS := by
  unfold command?
  rw [Option.map_eq_none_iff, List.find?_eq_none]
  constructor
  · intro missed
    by_contra short
    rw [not_or] at short
    unfold isOuter at outer
    rw [List.any_eq_true, Text.foldCase_eq_lowerCase short.1,
      Text.foldCase_eq_lowerCase short.2] at outer
    obtain ⟨pair, listed, same⟩ := outer
    exact missed pair listed same
  · intro long pair listed same
    rw [Bool.and_eq_true, beq_iff_eq, beq_iff_eq] at same
    obtain ⟨firstOther, lastOther⟩ := ne_longS_of_mem pair listed
    rcases long with rfl | rfl
    · exact firstOther same.1
    · exact lastOther same.2

theorem exists_pair_of_command? (known : command? first last = some command) :
    ∃ pair ∈ outerLetters, pair.command = command ∧ Text.foldCase first = pair.first ∧
      Text.foldCase last = pair.last := by
  unfold command? at known
  obtain ⟨pair, found, named⟩ := Option.map_eq_some_iff.mp known
  have listed := List.mem_of_find?_eq_some found
  have same := List.find?_some found
  rw [Bool.and_eq_true, beq_iff_eq, beq_iff_eq] at same
  have folded : ∀ {character lowered : Char}, lowered = Text.lowerCase character →
      lowered ≠ Text.longS → Text.foldCase character = lowered := by
    rintro character _ rfl other
    apply Text.foldCase_eq_lowerCase
    rintro rfl
    exact other rfl
  obtain ⟨firstOther, lastOther⟩ := ne_longS_of_mem pair listed
  exact ⟨pair, listed, named, folded same.1 firstOther, folded same.2 lastOther⟩

theorem exists_outer_of_opensWord (opens : opensWord (text.drop index) = true) :
    ∃ first last, text[index]? = some first ∧ text[index + 3]? = some last ∧
      isOuter first last = true ∧ wordCommand? (text.drop index) = command? first last := by
  rw [← Nat.add_zero index, ← List.getElem?_drop, Nat.add_zero, ← List.getElem?_drop]
  match text.drop index, opens with
  | first :: second :: third :: last :: rest, opens =>
      rw [opensWord, Bool.and_eq_true, Bool.and_eq_true] at opens
      exact ⟨first, last, rfl, rfl, opens.1.1, rfl⟩

def instructionOf? (text : Text) (start : Nat) : Option Instruction :=
  (wordCommand? (text.drop start)).map fun command =>
    .startingAt (Text.size (text.take start)) command ((text.drop start).take 4)

/-- An instruction is read from the word at a place: it has the command of the pair that the
outer characters are under case folding. -/
def IsReadAt (text : Text) (start : Nat) (instruction : Instruction) : Prop :=
  ∃ pair ∈ outerLetters, pair.FitsAt text start ∧
    instruction =
      .startingAt (Text.size (text.take start)) pair.command ((text.drop start).take 4)

theorem instructionOf?_eq_none_iff (opens : opensWord (text.drop index) = true) :
    instructionOf? text index = none ↔ HasLongS text index := by
  obtain ⟨first, last, begins, ends, outer, named⟩ := exists_outer_of_opensWord opens
  rw [instructionOf?, Option.map_eq_none_iff, named, command?_eq_none_iff outer, HasLongS, begins,
    ends, Option.some.injEq, Option.some.injEq]

theorem isReadAt_of_instructionOf? (opens : opensWord (text.drop index) = true)
    (read : instructionOf? text index = some instruction) : IsReadAt text index instruction := by
  obtain ⟨first, last, begins, ends, outer, named⟩ := exists_outer_of_opensWord opens
  obtain ⟨command, known, rfl⟩ := Option.map_eq_some_iff.mp read
  rw [named] at known
  obtain ⟨pair, listed, rfl, firstSame, lastSame⟩ := exists_pair_of_command? known
  refine ⟨pair, listed, { first := ?first, last := ?last }, rfl⟩
  case first => rw [begins, Option.map_some, firstSame]
  case last => rw [ends, Option.map_some, lastSame]

/-- The instructions of a text for its words, its stars left out. -/
def wordInstructions (text : Text) : List Instruction :=
  (tokenize text).filter fun instruction => !repeats instruction

theorem filter_words_instructionAt? (position : Nat) (previous : Option Char) (text : Text) :
    (instructionAt? position previous text).toList.filter (fun found => !repeats found) =
      if opensWord text = true then
        ((wordCommand? text).map fun command =>
          Instruction.startingAt position command (text.take 4)).toList
      else
        [] := by
  unfold instructionAt?
  by_cases opens : opensWord text = true
  · rw [if_pos opens, if_pos opens]
    cases known : wordCommand? text with
    | none => rfl
    | some command =>
        have other : repeats (.startingAt position command (text.take 4)) = false :=
          decide_eq_false (command_ne_again_of_wordCommand? known)
        rw [Option.map_some, Option.toList_some, List.filter_cons, other]
        rfl
  · rw [if_neg opens, if_neg opens]
    cases text with
    | nil => rfl
    | cons character rest =>
        simp only
        split
        · rfl
        · rfl

theorem filter_words_tokenizeFrom (front : Text) (previous : Option Char) (taken : Nat)
    (rest : Text) :
    (tokenizeFrom front.size previous taken rest).filter (fun found => !repeats found) =
      (takenFrom front.length taken rest).filterMap (instructionOf? (front ++ rest)) := by
  induction rest generalizing front previous taken with
  | nil =>
      rw [tokenizeFrom, takenFrom]
      rfl
  | cons character rest ih =>
      have onward := ih (front ++ [character]) (some character)
      rw [Text.size_append_singleton, List.length_append, List.length_singleton,
        ← List.append_cons] at onward
      cases taken with
      | succ taken =>
          rw [tokenizeFrom, takenFrom]
          exact onward taken
      | zero =>
          rw [tokenizeFrom, takenFrom, List.filter_append, onward, filter_words_instructionAt?]
          by_cases opens : opensWord (character :: rest) = true
          · rw [if_pos opens, if_pos opens, if_pos opens, List.filterMap_cons, instructionOf?,
              drop_length_cons, List.take_left]
            cases wordCommand? (character :: rest) <;> rfl
          · rw [if_neg opens, if_neg opens, if_neg opens, List.nil_append]

theorem wordInstructions_eq (text : Text) :
    wordInstructions text = (takenFrom 0 0 text).filterMap (instructionOf? text) :=
  filter_words_tokenizeFrom [] none 0 text

theorem forall₂_filterMap_instructionOf?
    (opens : ∀ start ∈ starts, opensWord (text.drop start) = true) :
    List.Forall₂ (IsReadAt text) (starts.filter fun start => !decide (HasLongS text start))
      (starts.filterMap (instructionOf? text)) := by
  induction starts with
  | nil => exact .nil
  | cons start starts ih =>
      obtain ⟨here, behind⟩ := List.forall_mem_cons.mp opens
      cases read : instructionOf? text start with
      | none =>
          have long := (instructionOf?_eq_none_iff here).mp read
          rw [List.filterMap_cons_none read, List.filter_cons_of_neg (by simp [long])]
          exact ih behind
      | some instruction =>
          have short : ¬ HasLongS text start := by
            intro long
            rw [(instructionOf?_eq_none_iff here).mpr long] at read
            cases read
          rw [List.filterMap_cons_some read, List.filter_cons_of_pos (by simp [short])]
          exact .cons (isReadAt_of_instructionOf? here read) (ih behind)

/-- No taken word is lost: each gives one instruction. -/
def LosesNone (text : Text) : Prop :=
  ∀ starts, TakesAt text starts → List.Forall₂ (IsReadAt text) starts (wordInstructions text)

structure ReadsTaken (text : Text) (starts : List Nat) : Prop where
  takes : TakesAt text starts
  only : ∀ others, TakesAt text others → others = starts
  read : List.Forall₂ (IsReadAt text) (starts.filter fun start => !decide (HasLongS text start))
    (wordInstructions text)
  losesNone : LosesNone text ↔ ∀ start ∈ starts, ¬ HasLongS text start

theorem exists_readsTaken (text : Text) : ∃ starts, ReadsTaken text starts := by
  have takes := takenFrom_takesAt text
  have read := forall₂_filterMap_instructionOf? takes.opens
  rw [← wordInstructions_eq] at read
  refine ⟨takenFrom 0 0 text, { takes, only := fun _ => takes.unique, read, losesNone := ?_ }⟩
  constructor
  · intro kept start member long
    -- There are as many instructions as taken words, so none is filtered out.
    have counted := (kept _ takes).length_eq.trans read.length_eq.symm
    have all := List.length_filter_eq_length_iff.mp counted.symm start member
    simp [long] at all
  · intro short starts otherwise
    rw [takes.unique otherwise]
    rwa [List.filter_eq_self.mpr fun start member => by simp [short start member]] at read

/-- A word with a long s in front is taken and gives nothing, nor does the word that begins
inside it. -/
theorem longSInFront_lost :
    TakesAt [Text.longS, 'b', 'a', 'g', 'b'] [0] ∧
      opensWord ['b', 'a', 'g', 'b'] = true ∧
      tokenize [Text.longS, 'b', 'a', 'g', 'b'] = [] ∧
      ¬ LosesNone [Text.longS, 'b', 'a', 'g', 'b'] := by
  have taken : TakesAt [Text.longS, 'b', 'a', 'g', 'b'] [0] := takenFrom_takesAt _
  have unread : tokenize [Text.longS, 'b', 'a', 'g', 'b'] = [] := by decide
  refine ⟨taken, by decide, unread, ?_⟩
  intro kept
  have counted := (kept [0] taken).length_eq
  rw [wordInstructions, unread] at counted
  cases counted

end Wildcard
end TapeDialects
