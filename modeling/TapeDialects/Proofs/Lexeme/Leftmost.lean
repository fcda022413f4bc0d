/-
Where a lexer finds its instructions.

An entry of a table opens a text at a place if a character starts there and the
lexeme follows.  Whatever tables a lexer has been given before, it answers the next
one at the least such place behind what it has read, and there by the first entry
of the table that opens the text.  Where there is no such place it goes to the end
of the text, and has no answer to any later table.  So the instructions that one
table finds are known by what they cover: each is the first entry at its start, and
all places where some entry opens the text lie in one of them.
-/

import Mathlib.Order.Bounds.Defs
import TapeDialects.Proofs.Dialect.Order

namespace TapeDialects

namespace Text

variable {text before rest front back : Text}

theorem eq_nil_of_size_eq_zero (empty : text.size = 0) : text = [] := by
  cases text with
  | nil => rfl
  | cons character rest =>
      have wide := character.utf8Size_pos
      rw [size_cons] at empty
      omega

theorem exists_part_of_size_le (parts : text = before ++ rest) (otherParts : text = front ++ back)
    (behind : before.size ≤ front.size) : ∃ part, front = before ++ part ∧ rest = part ++ back := by
  rcases List.append_eq_append_iff.mp (parts.symm.trans otherParts) with
    longer | ⟨more, shorter, left⟩
  · exact longer
  · have empty : more = [] := by
      apply eq_nil_of_size_eq_zero
      rw [shorter, size_append] at behind
      omega
    rw [empty, List.append_nil] at shorter
    rw [empty, List.nil_append] at left
    exact ⟨[], by rw [shorter, List.append_nil], left.symm⟩

theorem parts_eq_of_size_eq (parts : text = before ++ rest) (otherParts : text = front ++ back)
    (same : front.size = before.size) : front = before ∧ back = rest := by
  obtain ⟨part, longer, left⟩ := exists_part_of_size_le parts otherParts (Nat.le_of_eq same.symm)
  have empty : part = [] := by
    apply eq_nil_of_size_eq_zero
    rw [longer, size_append] at same
    omega
  rw [empty, List.append_nil] at longer
  rw [empty, List.nil_append] at left
  exact ⟨longer, left.symm⟩

theorem size_eq_or_le {character : Char} (parts : text = before ++ character :: rest)
    (otherParts : text = front ++ back) (behind : before.size ≤ front.size) :
    front.size = before.size ∨ before.size + character.utf8Size ≤ front.size := by
  obtain ⟨part, longer, left⟩ := exists_part_of_size_le parts otherParts behind
  cases part with
  | nil =>
      rw [longer, List.append_nil]
      exact Or.inl rfl
  | cons next part =>
      rw [List.cons_append, List.cons.injEq] at left
      rw [longer, size_append, size_cons, ← left.1]
      exact Or.inr (by omega)

end Text

/-! ### Places where entries open a text -/

namespace Entry

/-- A character of the text starts at the place, or the text ends there, and the entry opens
what follows. -/
def OpensAt (text : Text) (place : Nat) (entry : Entry) : Prop :=
  ∃ before rest, text = before ++ rest ∧ place = before.size ∧ entry.Opens rest

def AnyOpensAt (table : List Entry) (text : Text) (place : Nat) : Prop :=
  ∃ entry ∈ table, entry.OpensAt text place

def FirstAt (table : List Entry) (text : Text) (place : Nat) (entry : Entry) : Prop :=
  entry.OpensAt text place ∧
    ∃ earlier later, table = earlier ++ entry :: later ∧
      ∀ other ∈ earlier, ¬ other.OpensAt text place

variable {table : List Entry} {text before rest : Text} {place : Nat} {entry other : Entry}

theorem opensAt_iff (parts : text = before ++ rest) :
    entry.OpensAt text before.size ↔ entry.Opens rest := by
  constructor
  · rintro ⟨front, back, otherParts, sized, opens⟩
    obtain ⟨-, same⟩ := Text.parts_eq_of_size_eq parts otherParts sized.symm
    rw [same] at opens
    exact opens
  · intro opens
    exact ⟨before, rest, parts, rfl, opens⟩

theorem firstAt_iff (parts : text = before ++ rest) :
    FirstAt table text before.size entry ↔ find? table rest = some entry := by
  unfold FirstAt find?
  rw [List.find?_eq_some_iff_append]
  simp only [opensAt_iff parts, decide_eq_true_iff, Bool.not_eq_true', decide_eq_false_iff_not]

theorem FirstAt.unique (first : FirstAt table text place entry)
    (second : FirstAt table text place other) : entry = other := by
  obtain ⟨before, rest, parts, reached, -⟩ := first.1
  rw [reached, firstAt_iff parts] at first second
  rw [first] at second
  exact Option.some.inj second

theorem FirstAt.mem (first : FirstAt table text place entry) : entry ∈ table := by
  obtain ⟨-, earlier, later, listed, -⟩ := first
  rw [listed]
  exact List.mem_append_right earlier List.mem_cons_self

theorem FirstAt.anyOpensAt (first : FirstAt table text place entry) : AnyOpensAt table text place :=
  ⟨entry, first.mem, first.1⟩

theorem not_anyOpensAt_of_find?_eq_none (parts : text = before ++ rest)
    (missed : find? table rest = none) : ¬ AnyOpensAt table text before.size := by
  rintro ⟨entry, listed, opens⟩
  exact find?_eq_none_iff.mp missed entry listed ((opensAt_iff parts).mp opens)

theorem not_anyOpensAt_of_size_le (ended : text.size ≤ place) : ¬ AnyOpensAt table text place := by
  rintro ⟨entry, -, before, rest, parts, reached, spelled, begins⟩
  cases rest with
  | nil => exact spelled (List.prefix_nil.mp begins)
  | cons character rest =>
      have wide := character.utf8Size_pos
      rw [parts, Text.size_append, Text.size_cons] at ended
      omega

end Entry

def Instruction.FirstIn (table : List Entry) (text : Text) (instruction : Instruction) : Prop :=
  ∃ start entry, Entry.FirstAt table text start entry ∧
    instruction = startingAt start entry.command entry.lexeme

namespace Instruction.FirstIn

variable {table : List Entry} {text : Text} {instruction other : Instruction}

theorem anyOpensAt (first : instruction.FirstIn table text) :
    Entry.AnyOpensAt table text instruction.span.start := by
  obtain ⟨start, entry, found, same⟩ := first
  rw [same]
  exact found.anyOpensAt

theorem start_lt_stop (first : instruction.FirstIn table text) :
    instruction.span.start < instruction.span.stop := by
  obtain ⟨start, entry, ⟨⟨before, rest, -, -, spelled, -⟩, -⟩, same⟩ := first
  rw [same]
  exact Nat.lt_add_of_pos_right (Text.size_pos_of_ne_nil spelled)

theorem eq_of_start_eq (first : instruction.FirstIn table text)
    (second : other.FirstIn table text) (same : instruction.span.start = other.span.start) :
    instruction = other := by
  obtain ⟨start, entry, found, rfl⟩ := first
  obtain ⟨otherStart, otherEntry, otherFound, rfl⟩ := second
  obtain rfl : start = otherStart := same
  rw [found.unique otherFound]

end Instruction.FirstIn

namespace Lexer

variable {table : List Entry} {tables : List (List Entry)} {text before : Text}
  {place later : Nat} {answer : Option Instruction} {replies : List (Option Instruction)}
  {lexer : Lexer}

/-! ### The answer to one table -/

/-- How a lexer that has read up to a place answers a table. -/
structure Answers (table : List Entry) (text : Text) (place : Nat)
    (answer : Option Instruction) : Prop where
  isSome_iff : answer.isSome = true ↔ ∃ start, place ≤ start ∧ Entry.AnyOpensAt table text start
  leftmost : ∀ instruction ∈ answer,
    IsLeast {start | place ≤ start ∧ Entry.AnyOpensAt table text start} instruction.span.start
  first : ∀ instruction ∈ answer, instruction.FirstIn table text

theorem answers_none (unmatched : ∀ start, place ≤ start → ¬ Entry.AnyOpensAt table text start) :
    Answers table text place none := by
  refine { isSome_iff := ?isSome_iff, leftmost := nofun, first := nofun }
  case isSome_iff =>
      constructor
      · nofun
      · rintro ⟨start, behind, found⟩
        exact absurd found (unmatched start behind)

theorem answers_some {entry : Entry} (first : Entry.FirstAt table text place entry) :
    Answers table text place (some (.startingAt place entry.command entry.lexeme)) := by
  have found := first.anyOpensAt
  refine { isSome_iff := ?isSome_iff, leftmost := ?leftmost, first := ?first }
  case isSome_iff => exact iff_of_true rfl ⟨place, Nat.le_refl place, found⟩
  case leftmost =>
      intro instruction member
      cases member
      exact ⟨⟨Nat.le_refl place, found⟩, fun start behind => behind.1⟩
  case first =>
      intro instruction member
      cases member
      exact ⟨place, entry, first, rfl⟩

theorem Answers.of_later (further : Answers table text later answer) (earlier : place ≤ later)
    (unmatched : ∀ start, place ≤ start → Entry.AnyOpensAt table text start → later ≤ start) :
    Answers table text place answer := by
  refine { isSome_iff := ?isSome_iff, leftmost := ?leftmost, first := further.first }
  case isSome_iff =>
      rw [further.isSome_iff]
      constructor
      · rintro ⟨start, behind, found⟩
        exact ⟨start, Nat.le_trans earlier behind, found⟩
      · rintro ⟨start, behind, found⟩
        exact ⟨start, unmatched start behind found, found⟩
  case leftmost =>
      intro instruction member
      obtain ⟨⟨behind, found⟩, least⟩ := further.leftmost instruction member
      refine ⟨⟨Nat.le_trans earlier behind, found⟩, ?_⟩
      rintro start ⟨onward, opened⟩
      exact least ⟨unmatched start onward opened, opened⟩

def StandsIn (text : Text) (lexer : Lexer) : Prop :=
  ∃ before, text = before ++ lexer.rest ∧ lexer.position = before.size

theorem ofText_standsIn (text : Text) : (ofText text).StandsIn text := ⟨[], rfl, rfl⟩

theorem nextFrom_answers (table : List Entry) {position : Nat} {rest : Text}
    (parts : text = before ++ rest) (reached : position = before.size) :
    Answers table text position (nextFrom table position rest).1 := by
  induction rest generalizing before position with
  | nil =>
      apply answers_none
      intro start behind
      apply Entry.not_anyOpensAt_of_size_le
      rw [parts, List.append_nil, ← reached]
      exact behind
  | cons character rest ih =>
      rw [nextFrom]
      split
      · next entry found =>
          rw [reached]
          exact answers_some ((Entry.firstAt_iff parts).mpr found)
      · next missed =>
          have further : Answers table text (position + character.utf8Size)
              (nextFrom table (position + character.utf8Size) rest).1 := by
            apply @ih (before ++ [character])
            · exact parts.trans (List.append_cons before character rest)
            · rw [reached, Text.size_append_singleton]
          apply further.of_later (Nat.le_add_right position _)
          rintro start behind ⟨entry, listed, front, back, otherParts, sized, opens⟩
          rw [reached] at behind ⊢
          rw [sized] at behind ⊢
          rcases Text.size_eq_or_le parts otherParts behind with same | beyond
          · have found : Entry.AnyOpensAt table text front.size :=
              ⟨entry, listed, front, back, otherParts, rfl, opens⟩
            rw [same] at found
            exact absurd found (Entry.not_anyOpensAt_of_find?_eq_none parts missed)
          · exact beyond

theorem StandsIn.answers (stands : lexer.StandsIn text) (table : List Entry) :
    Answers table text lexer.position (lexer.next table).1 := by
  obtain ⟨before, parts, reached⟩ := stands
  exact nextFrom_answers table parts reached

theorem StandsIn.behind (stands : lexer.StandsIn text) {instruction : Instruction} {next : Lexer}
    (read : lexer.next table = (some instruction, next)) :
    next.StandsIn text ∧ next.position = instruction.span.stop := by
  obtain ⟨before, parts, reached⟩ := stands
  obtain ⟨-, front, further, behind⟩ := standsIn_of_nextFrom parts reached read
  obtain ⟨-, -, -, stops⟩ := taken_of_nextFrom read
  exact ⟨⟨front, further, behind⟩, stops.symm⟩

theorem rest_eq_nil_of_nextFrom {position : Nat} {rest : Text} {next : Lexer}
    (missed : nextFrom table position rest = (none, next)) : next.rest = [] := by
  induction rest generalizing position with
  | nil =>
      cases missed
      rfl
  | cons character rest ih =>
      rw [nextFrom] at missed
      split at missed
      · cases missed
      · exact ih missed

/-! ### The answers to successive tables -/

/-- Where the last of the answered instructions stops, or the given place if there is none. -/
def stopOf (place : Nat) (replies : List (Option Instruction)) : Nat :=
  ((replies.filterMap id).getLast?.map fun instruction => instruction.span.stop).getD place

theorem stopOf_cons (place : Nat) (instruction : Instruction)
    (replies : List (Option Instruction)) :
    stopOf place (some instruction :: replies) = stopOf instruction.span.stop replies := by
  have kept : (some instruction :: replies).filterMap id =
      instruction :: replies.filterMap id := rfl
  unfold stopOf
  rw [kept, List.getLast?_cons]
  cases (replies.filterMap id).getLast? <;> rfl

structure AnswersEach (text : Text) (place : Nat) (tables : List (List Entry))
    (replies : List (Option Instruction)) : Prop where
  length : replies.length = tables.length
  /-- As long as each table has been answered by an instruction, the next one is read from the
  end of the last instruction on. -/
  next : ∀ count table, tables[count]? = some table → none ∉ replies.take count →
    ∃ answer, replies[count]? = some answer ∧
      Answers table text (stopOf place (replies.take count)) answer
  ended : ∀ earlier later, earlier ≤ later → later < replies.length →
    replies[earlier]? = some none → replies[later]? = some none

theorem nextEach_of_rest_eq_nil (ended : lexer.rest = []) (tables : List (List Entry)) :
    lexer.nextEach tables = List.replicate tables.length none := by
  induction tables with
  | nil => rfl
  | cons table tables ih =>
      have missed : lexer.next table = (none, lexer) := by
        cases lexer
        cases ended
        rfl
      rw [nextEach, missed]
      simp only
      rw [ih]
      rfl

theorem answersEach_ended {table : List Entry} (answered : Answers table text place none)
    (tables : List (List Entry)) :
    AnswersEach text place (table :: tables) (none :: List.replicate tables.length none) := by
  have all : (none :: List.replicate tables.length none : List (Option Instruction)) =
      List.replicate (tables.length + 1) none := rfl
  refine { length := ?length, next := ?next, ended := ?ended }
  case length => rw [all, List.length_replicate, List.length_cons]
  case next =>
      intro count other listed going
      cases count with
      | zero =>
          cases listed
          exact ⟨none, rfl, answered⟩
      | succ count => exact absurd List.mem_cons_self going
  case ended =>
      intro earlier later _ inside _
      rw [all] at inside ⊢
      rw [List.getElem?_replicate, if_pos (by rwa [List.length_replicate] at inside)]

theorem AnswersEach.cons {instruction : Instruction}
    (answered : Answers table text place (some instruction))
    (further : AnswersEach text instruction.span.stop tables replies) :
    AnswersEach text place (table :: tables) (some instruction :: replies) := by
  refine { length := congrArg (· + 1) further.length, next := ?next, ended := ?ended }
  case next =>
      intro count other listed going
      cases count with
      | zero =>
          cases listed
          exact ⟨some instruction, rfl, answered⟩
      | succ count =>
          rw [List.take_succ_cons, List.mem_cons, not_or] at going
          rw [List.take_succ_cons, stopOf_cons]
          exact further.next count other listed going.2
  case ended =>
      intro earlier later ordered inside none
      cases earlier with
      | zero => cases none
      | succ earlier =>
          cases later with
          | zero => exact absurd ordered (Nat.not_succ_le_zero earlier)
          | succ later =>
              exact further.ended earlier later (Nat.le_of_succ_le_succ ordered)
                (Nat.lt_of_succ_lt_succ inside) none

theorem StandsIn.answersEach (stands : lexer.StandsIn text) (tables : List (List Entry)) :
    AnswersEach text lexer.position tables (lexer.nextEach tables) := by
  induction tables generalizing lexer with
  | nil => exact { length := rfl, next := nofun, ended := nofun }
  | cons table tables ih =>
      have answered := stands.answers table
      rw [nextEach]
      cases read : lexer.next table with
      | mk instruction? next =>
          rw [read] at answered
          cases instruction? with
          | none =>
              simp only
              rw [nextEach_of_rest_eq_nil (rest_eq_nil_of_nextFrom read)]
              exact answersEach_ended answered tables
          | some instruction =>
              obtain ⟨further, stops⟩ := stands.behind read
              apply AnswersEach.cons answered
              rw [← stops]
              exact ih further

/-! ### The instructions of one table -/

/-- The instructions that a table finds in a text from a place on.  They stand one behind the
other, each is the first entry at its start, and no entry opens the text outside of them. -/
structure Exhausts (table : List Entry) (text : Text) (place : Nat)
    (instructions : List Instruction) : Prop where
  behind : ∀ instruction ∈ instructions, place ≤ instruction.span.start
  apart : instructions.Pairwise fun first second => first.span.stop ≤ second.span.start
  first : ∀ instruction ∈ instructions, instruction.FirstIn table text
  covers : ∀ start, place ≤ start → Entry.AnyOpensAt table text start →
    ∃ instruction ∈ instructions,
      instruction.span.start ≤ start ∧ start < instruction.span.stop

namespace Exhausts

variable {first second : Instruction} {instructions others : List Instruction}

theorem tail (exhausts : Exhausts table text place (first :: instructions)) :
    Exhausts table text first.span.stop instructions := by
  obtain ⟨ahead, apart⟩ := List.pairwise_cons.mp exhausts.apart
  have begins := exhausts.behind first List.mem_cons_self
  have long := (exhausts.first first List.mem_cons_self).start_lt_stop
  refine
    { behind := ahead
      apart
      first := fun other member => exhausts.first other (List.mem_cons_of_mem first member)
      covers := ?covers }
  case covers =>
      intro start behind found
      obtain ⟨other, member, starts, stops⟩ := exhausts.covers start (by omega) found
      rcases List.mem_cons.mp member with rfl | later
      · exact absurd behind (Nat.not_le_of_lt stops)
      · exact ⟨other, later, starts, stops⟩

theorem head_le (exhausts : Exhausts table text place (first :: instructions)) {start : Nat}
    (behind : place ≤ start) (found : Entry.AnyOpensAt table text start) :
    first.span.start ≤ start := by
  obtain ⟨ahead, -⟩ := List.pairwise_cons.mp exhausts.apart
  have long := (exhausts.first first List.mem_cons_self).start_lt_stop
  obtain ⟨other, member, starts, -⟩ := exhausts.covers start behind found
  rcases List.mem_cons.mp member with rfl | later
  · exact starts
  · have after := ahead other later
    omega

theorem head_eq (exhausts : Exhausts table text place (first :: instructions))
    (otherwise : Exhausts table text place (second :: others)) : first = second := by
  have foundFirst := exhausts.first first List.mem_cons_self
  have foundSecond := otherwise.first second List.mem_cons_self
  apply foundFirst.eq_of_start_eq foundSecond
  apply Nat.le_antisymm
  · exact exhausts.head_le (otherwise.behind second List.mem_cons_self) foundSecond.anyOpensAt
  · exact otherwise.head_le (exhausts.behind first List.mem_cons_self) foundFirst.anyOpensAt

theorem not_of_nil (exhausts : Exhausts table text place [])
    (otherwise : Exhausts table text place (first :: instructions)) : False := by
  have found := otherwise.first first List.mem_cons_self
  obtain ⟨other, member, -⟩ := exhausts.covers first.span.start
    (otherwise.behind first List.mem_cons_self) found.anyOpensAt
  cases member

theorem unique (exhausts : Exhausts table text place instructions)
    (otherwise : Exhausts table text place others) : instructions = others := by
  induction instructions generalizing place others with
  | nil =>
      cases others with
      | nil => rfl
      | cons second others => exact (exhausts.not_of_nil otherwise).elim
  | cons first instructions ih =>
      cases others with
      | nil => exact (otherwise.not_of_nil exhausts).elim
      | cons second others =>
          obtain rfl := exhausts.head_eq otherwise
          rw [ih exhausts.tail otherwise.tail]

theorem nil (answered : Answers table text place none) : Exhausts table text place [] := by
  refine { behind := nofun, apart := .nil, first := nofun, covers := ?covers }
  case covers =>
      intro start behind found
      cases answered.isSome_iff.mpr ⟨start, behind, found⟩

theorem cons (answered : Answers table text place (some first))
    (further : Exhausts table text first.span.stop instructions) :
    Exhausts table text place (first :: instructions) := by
  obtain ⟨⟨begins, -⟩, least⟩ := answered.leftmost first rfl
  have found := answered.first first rfl
  have long := found.start_lt_stop
  refine { behind := ?behind, apart := ?apart, first := ?first, covers := ?covers }
  case behind =>
      have after : ∀ other ∈ instructions, place ≤ other.span.start := by
        intro other member
        have onward := further.behind other member
        omega
      exact List.forall_mem_cons.mpr ⟨begins, after⟩
  case apart => exact List.pairwise_cons.mpr ⟨further.behind, further.apart⟩
  case first => exact List.forall_mem_cons.mpr ⟨found, further.first⟩
  case covers =>
      intro start behind opened
      by_cases inside : start < first.span.stop
      · exact ⟨first, List.mem_cons_self, least ⟨behind, opened⟩, inside⟩
      · obtain ⟨other, member, covered⟩ := further.covers start (Nat.le_of_not_lt inside) opened
        exact ⟨other, List.mem_cons_of_mem first member, covered⟩

end Exhausts

theorem StandsIn.exhausts_readAll (stands : lexer.StandsIn text) (table : List Entry) :
    Exhausts table text lexer.position (lexer.readAll table) := by
  generalize bound : lexer.rest.length = length
  induction length using Nat.strongRecOn generalizing lexer with
  | ind length ih =>
      have answered := stands.answers table
      cases read : lexer.next table with
      | mk instruction? next =>
          rw [read] at answered
          cases instruction? with
          | none =>
              rw [readAll_of_next_none read]
              exact .nil answered
          | some instruction =>
              obtain ⟨further, stops⟩ := stands.behind read
              have shorter : next.rest.length < length := by
                rw [← bound]
                exact length_rest_nextFrom_lt read
              rw [readAll_of_next_some read]
              apply Exhausts.cons answered
              rw [← stops]
              exact ih _ shorter further rfl

theorem exhausts_tokenize (table : List Entry) (text : Text) :
    Exhausts table text 0 (text.tokenize table) :=
  (ofText_standsIn text).exhausts_readAll table

/-- Each call finds the leftmost place behind the last instruction and there the first entry of
its own table, and the instructions of one table are all that it can find. -/
theorem readsLeftmostFirst (text : Text) :
    (∀ tables, AnswersEach text 0 tables ((ofText text).nextEach tables)) ∧
      ∀ table instructions,
        Exhausts table text 0 instructions ↔ instructions = text.tokenize table := by
  refine ⟨(ofText_standsIn text).answersEach, ?_⟩
  intro table instructions
  constructor
  · intro exhausts
    exact exhausts.unique (exhausts_tokenize table text)
  · intro same
    rw [same]
    exact exhausts_tokenize table text

/-- An empty lexeme is found nowhere, and the shorter of two lexemes is found if it comes first.
What the second table does not find is lost to the third one. -/
example :
    (ofText ['b', 'a', 'b', 'a']).nextEach
        [[{ lexeme := [], command := .input }, { lexeme := ['a'], command := .right },
            { lexeme := ['a', 'b'], command := .left }],
          [{ lexeme := ['b', 'b'], command := .output }],
          [{ lexeme := ['a'], command := .right }]] =
      [some (.startingAt 1 .right ['a']), none, none] := by
  decide

end Lexer
end TapeDialects
