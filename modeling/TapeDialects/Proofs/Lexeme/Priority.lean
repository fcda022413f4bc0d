/-
Tables whose entries are tried by priority.

Of the entries that open the text at a place, the one with the least priority is
taken, and of several with this priority the one that the table has first: it is
the least of them by priority and index.  So the order of the entries does not
matter where no two of them have one priority.  Where each lexeme is tried before
the other lexemes that it begins with, the longest lexeme is taken.
-/

import Mathlib.Data.List.Nodup
import Mathlib.Data.Prod.Lex
import TapeDialects.Dialect.Tables
import TapeDialects.Proofs.Lexeme.Leftmost

namespace TapeDialects

namespace RankedEntry

variable {table others : List RankedEntry} {first ranked other : RankedEntry} {index : Nat}

def Rising (table : List RankedEntry) : Prop :=
  table.Pairwise fun earlier later => earlier.priority ≤ later.priority

theorem Rising.place (rising : Rising others) (ranked : RankedEntry) :
    Rising (place ranked others) := by
  induction others with
  | nil => exact List.pairwise_singleton _ _
  | cons other others ih =>
      obtain ⟨ahead, further⟩ := List.pairwise_cons.mp rising
      rw [RankedEntry.place]
      split
      · next lower =>
          apply List.pairwise_cons.mpr
          refine ⟨List.forall_mem_cons.mpr ⟨lower, ?_⟩, rising⟩
          intro later member
          exact Nat.le_trans lower (ahead later member)
      · next higher =>
          apply List.pairwise_cons.mpr
          refine ⟨?_, ih further⟩
          intro later member
          rcases List.mem_cons.mp ((place_perm ranked others).mem_iff.mp member) with rfl | old
          · exact Nat.le_of_not_le higher
          · exact ahead later old

theorem rising_byPriority (table : List RankedEntry) : Rising (byPriority table) := by
  induction table with
  | nil => exact .nil
  | cons ranked table ih => exact ih.place ranked

theorem toTable_eq_of_perm (distinct : (table.map priority).Nodup) (same : others.Perm table) :
    toTable others = toTable table := by
  have shuffled : (byPriority others).Perm (byPriority table) :=
    (byPriority_perm others).trans (same.trans (byPriority_perm table).symm)
  have ordered : byPriority others = byPriority table := by
    apply shuffled.eq_of_pairwise _ (rising_byPriority others) (rising_byPriority table)
    intro one another listed otherListed lower higher
    rw [shuffled.mem_iff, (byPriority_perm table).mem_iff] at listed
    rw [(byPriority_perm table).mem_iff] at otherListed
    exact List.inj_on_of_nodup_map distinct listed otherListed (Nat.le_antisymm lower higher)
  rw [toTable, ordered, toTable]

/-! ### The entry that is taken -/

section Choice

variable {eligible : RankedEntry → Prop} [DecidablePred eligible]

theorem find?_place_of_not (barred : ¬ eligible ranked) (others : List RankedEntry) :
    (place ranked others).find? (fun entry => decide (eligible entry)) =
      others.find? fun entry => decide (eligible entry) := by
  induction others with
  | nil => rw [place, List.find?_cons_of_neg (by simpa using barred)]
  | cons other others ih =>
      rw [place]
      split
      · rw [List.find?_cons_of_neg (by simpa using barred)]
      · rw [List.find?_cons, List.find?_cons, ih]

theorem find?_place_of_le (suits : eligible ranked)
    (least : ∀ other ∈ others, eligible other → ranked.priority ≤ other.priority) :
    (place ranked others).find? (fun entry => decide (eligible entry)) = some ranked := by
  induction others with
  | nil => exact List.find?_cons_of_pos (decide_eq_true suits)
  | cons other others ih =>
      obtain ⟨ahead, further⟩ := List.forall_mem_cons.mp least
      rw [place]
      split
      · exact List.find?_cons_of_pos (decide_eq_true suits)
      · next higher =>
          have barred : ¬ eligible other := fun otherSuits => higher (ahead otherSuits)
          rw [List.find?_cons_of_neg (by simpa using barred)]
          exact ih further

theorem find?_place_of_lt (rising : Rising others)
    (found : others.find? (fun entry => decide (eligible entry)) = some other)
    (lower : other.priority < ranked.priority) :
    (place ranked others).find? (fun entry => decide (eligible entry)) = some other := by
  induction others with
  | nil => cases found
  | cons head others ih =>
      obtain ⟨ahead, further⟩ := List.pairwise_cons.mp rising
      have above : ¬ ranked.priority ≤ head.priority := by
        rcases List.mem_cons.mp (List.mem_of_find?_eq_some found) with rfl | member
        · exact Nat.not_le_of_lt lower
        · exact Nat.not_le_of_lt (Nat.lt_of_le_of_lt (ahead other member) lower)
      rw [place, if_neg above]
      rw [List.find?_cons] at found ⊢
      split
      · next suits =>
          rw [suits] at found
          exact found
      · next barred =>
          rw [barred] at found
          exact ih further found

end Choice

/-- Where an entry with a given index comes among those that are tried. -/
def rank (ranked : RankedEntry) (index : Nat) : Nat ×ₗ Nat :=
  toLex (ranked.priority, index)

/-- Of the eligible entries of the table, the one at the index has the least priority, and is the
first with this priority. -/
structure Foremost (eligible : RankedEntry → Prop) (table : List RankedEntry) (index : Nat)
    (ranked : RankedEntry) : Prop where
  listed : table[index]? = some ranked
  suits : eligible ranked
  least : ∀ otherIndex other, table[otherIndex]? = some other → eligible other →
    ranked.rank index ≤ other.rank otherIndex

namespace Foremost

variable {eligible : RankedEntry → Prop}

theorem mem (foremost : Foremost eligible table index ranked) : ranked ∈ table :=
  List.mem_of_getElem? foremost.listed

theorem priority_le (foremost : Foremost eligible table index ranked) (listed : other ∈ table)
    (suits : eligible other) : ranked.priority ≤ other.priority := by
  obtain ⟨otherIndex, found⟩ := List.getElem?_of_mem listed
  rcases Prod.Lex.toLex_le_toLex.mp (foremost.least otherIndex other found suits) with
    lower | ⟨level, -⟩
  · exact Nat.le_of_lt lower
  · exact Nat.le_of_eq level

theorem head (suits : eligible first)
    (least : ∀ other ∈ table, eligible other → first.priority ≤ other.priority) :
    Foremost eligible (first :: table) 0 first := by
  refine { listed := rfl, suits, least := ?least }
  case least =>
      intro otherIndex other found otherSuits
      have lower : first.priority ≤ other.priority := by
        rcases List.mem_cons.mp (List.mem_of_getElem? found) with rfl | listed
        · exact Nat.le_refl _
        · exact least other listed otherSuits
      apply Prod.Lex.toLex_le_toLex.mpr
      rcases Nat.lt_or_eq_of_le lower with strictly | level
      · exact Or.inl strictly
      · exact Or.inr ⟨level, Nat.zero_le otherIndex⟩

theorem cons (foremost : Foremost eligible table index ranked)
    (lower : eligible first → ranked.priority < first.priority) :
    Foremost eligible (first :: table) (index + 1) ranked := by
  refine { listed := ?listed, suits := foremost.suits, least := ?least }
  case listed =>
      rw [List.getElem?_cons_succ]
      exact foremost.listed
  case least =>
      intro otherIndex other found suits
      cases otherIndex with
      | zero =>
          cases found
          exact Prod.Lex.toLex_le_toLex.mpr (Or.inl (lower suits))
      | succ otherIndex =>
          rw [List.getElem?_cons_succ] at found
          apply Prod.Lex.toLex_le_toLex.mpr
          rcases Prod.Lex.toLex_le_toLex.mp (foremost.least otherIndex other found suits) with
            strictly | ⟨level, before⟩
          · exact Or.inl strictly
          · exact Or.inr ⟨level, Nat.succ_le_succ before⟩

end Foremost

theorem exists_foremost_of_find? {eligible : RankedEntry → Prop} [DecidablePred eligible]
    (found : (byPriority table).find? (fun entry => decide (eligible entry)) = some ranked) :
    ∃ index, Foremost eligible table index ranked := by
  induction table generalizing ranked with
  | nil => cases found
  | cons first table ih =>
      rw [byPriority, List.foldr_cons, ← byPriority] at found
      by_cases suits : eligible first
      · by_cases least : ∀ other ∈ table, eligible other → first.priority ≤ other.priority
        · rw [find?_place_of_le suits] at found
          · cases found
            exact ⟨0, .head suits least⟩
          · intro other listed
            exact least other ((byPriority_perm table).mem_iff.mp listed)
        · push Not at least
          obtain ⟨other, listed, otherSuits, lower⟩ := least
          cases best : (byPriority table).find? fun entry => decide (eligible entry) with
          | none =>
              have missed := List.find?_eq_none.mp best other
                ((byPriority_perm table).mem_iff.mpr listed)
              exact absurd (decide_eq_true otherSuits) missed
          | some taken =>
              obtain ⟨index, foremost⟩ := ih best
              have below : taken.priority < first.priority :=
                Nat.lt_of_le_of_lt (foremost.priority_le listed otherSuits) lower
              rw [find?_place_of_lt (rising_byPriority table) best below] at found
              cases found
              exact ⟨index + 1, foremost.cons fun _ => below⟩
      · rw [find?_place_of_not suits] at found
        obtain ⟨index, foremost⟩ := ih found
        exact ⟨index + 1, foremost.cons fun opens => absurd opens suits⟩

theorem exists_foremost_of_firstAt {text : Text} {place : Nat} {entry : Entry}
    (taken : Entry.FirstAt (toTable table) text place entry) :
    ∃ index ranked, ranked.entry = entry ∧
      Foremost (fun other => other.entry.OpensAt text place) table index ranked := by
  obtain ⟨before, rest, parts, reached, -⟩ := taken.1
  rw [reached, Entry.firstAt_iff parts, Entry.find?, toTable, List.find?_map,
    Option.map_eq_some_iff] at taken
  obtain ⟨ranked, found, same⟩ := taken
  have chosen : ∃ index, Foremost (fun other => other.entry.Opens rest) table index ranked :=
    exists_foremost_of_find? found
  obtain ⟨index, foremost⟩ := chosen
  refine ⟨index, ranked, same, ?_⟩
  simp only [reached, Entry.opensAt_iff parts]
  exact foremost

/-! ### Lexemes that begin other lexemes -/

/-- Each lexeme is tried before the other lexemes that it begins with, and there is one entry
for each. -/
def LongerFirst (table : List RankedEntry) : Prop :=
  (∀ ranked ∈ table, ∀ other ∈ table, other.entry.lexeme <+: ranked.entry.lexeme →
      other.entry.lexeme ≠ ranked.entry.lexeme → ranked.priority < other.priority) ∧
    (table.map fun ranked => ranked.entry.lexeme).Nodup

instance (table : List RankedEntry) : Decidable (LongerFirst table) :=
  inferInstanceAs (Decidable (_ ∧ _))

theorem Foremost.shorter_or_eq {text : Text} {place : Nat} (longer : LongerFirst table)
    (foremost : Foremost (fun other => other.entry.OpensAt text place) table index ranked)
    (listed : other ∈ table) (opens : other.entry.OpensAt text place) :
    other.entry.lexeme.length < ranked.entry.lexeme.length ∨ other = ranked := by
  obtain ⟨ahead, distinct⟩ := longer
  by_cases same : other.entry.lexeme = ranked.entry.lexeme
  · exact Or.inr (List.inj_on_of_nodup_map distinct listed foremost.mem same)
  · have taken := foremost.suits
    obtain ⟨before, rest, parts, reached, begins⟩ := opens
    rw [reached, Entry.opensAt_iff parts] at taken
    rcases List.prefix_or_prefix_of_prefix begins.2 taken.2 with short | long
    · apply Or.inl
      apply Nat.lt_of_le_of_ne short.length_le
      intro level
      exact same (short.eq_of_length level)
    · have lower := ahead other listed ranked foremost.mem long (Ne.symm same)
      have least := foremost.priority_le listed ⟨before, rest, parts, reached, begins⟩
      exact absurd lower (Nat.not_lt_of_le least)

end RankedEntry

namespace Instruction

def ForemostIn (table : List RankedEntry) (text : Text) (instruction : Instruction) : Prop :=
  ∃ start index ranked,
    RankedEntry.Foremost (fun other => other.entry.OpensAt text start) table index ranked ∧
      instruction = startingAt start ranked.entry.command ranked.entry.lexeme

def LongestIn (table : List RankedEntry) (text : Text) (instruction : Instruction) : Prop :=
  ∃ ranked ∈ table, ranked.entry.OpensAt text instruction.span.start ∧
    instruction.lexeme = ranked.entry.lexeme ∧
    ∀ other ∈ table, other.entry.OpensAt text instruction.span.start →
      other.entry.lexeme.length < ranked.entry.lexeme.length ∨ other = ranked

variable {table : List RankedEntry} {text : Text} {instruction : Instruction}

theorem FirstIn.foremostIn (first : instruction.FirstIn (RankedEntry.toTable table) text) :
    instruction.ForemostIn table text := by
  obtain ⟨start, entry, taken, same⟩ := first
  obtain ⟨index, ranked, known, foremost⟩ := RankedEntry.exists_foremost_of_firstAt taken
  refine ⟨start, index, ranked, foremost, ?_⟩
  rw [known]
  exact same

theorem ForemostIn.longestIn (foremostIn : instruction.ForemostIn table text)
    (longer : RankedEntry.LongerFirst table) : instruction.LongestIn table text := by
  obtain ⟨start, index, ranked, foremost, rfl⟩ := foremostIn
  refine ⟨ranked, foremost.mem, foremost.suits, rfl, ?_⟩
  intro other listed opens
  exact foremost.shorter_or_eq longer listed opens

end Instruction

namespace RankedEntry

/-- The instructions of a text in a ranked table are the foremost entries at their places. -/
structure Selects (table : List RankedEntry) (text : Text) : Prop where
  chosen : ∀ instruction ∈ text.tokenizeRanked table, instruction.ForemostIn table text
  apart : (text.tokenizeRanked table).Pairwise fun first second =>
    first.span.stop ≤ second.span.start
  /-- No entry opens the text outside of the instructions. -/
  covers : ∀ ranked ∈ table, ∀ place, ranked.entry.OpensAt text place →
    ∃ instruction ∈ text.tokenizeRanked table,
      instruction.span.start ≤ place ∧ place < instruction.span.stop
  reordered : (table.map priority).Nodup → ∀ others, others.Perm table →
    text.tokenizeRanked others = text.tokenizeRanked table
  longest : LongerFirst table → ∀ instruction ∈ text.tokenizeRanked table,
    instruction.LongestIn table text

theorem selectsForemost :
    (∀ table text, Selects table text) ∧
      LongerFirst Tables.wholesomeFuck ∧ LongerFirst Tables.zzz := by
  refine ⟨?selects, by decide +kernel, by decide +kernel⟩
  intro table text
  have exhausts := Lexer.exhausts_tokenize (toTable table) text
  refine { chosen := ?chosen, apart := exhausts.apart, covers := ?covers,
           reordered := ?reordered, longest := ?longest }
  case chosen =>
      intro instruction member
      exact (exhausts.first instruction member).foremostIn
  case covers =>
      intro ranked listed place opens
      have tried : ranked.entry ∈ toTable table :=
        mem_toTable_iff.mpr (List.mem_map_of_mem listed)
      exact exhausts.covers place (Nat.zero_le place) ⟨ranked.entry, tried, opens⟩
  case reordered =>
      intro distinct others same
      rw [Text.tokenizeRanked, toTable_eq_of_perm distinct same, Text.tokenizeRanked]
  case longest =>
      intro longer instruction member
      exact (exhausts.first instruction member).foremostIn.longestIn longer

/-- Three lexemes that each begin with a shorter one of the table, which stands backwards. -/
theorem zzz_selected :
    (Tables.zzz.map priority).Nodup ∧ LongerFirst Tables.zzz ∧
      Text.tokenizeRanked Tables.zzz.reverse ['z', 'z', 'z', 'z', '+', 'z', 'é', '-', 'z', 'z'] =
        [.startingAt 0 .output ['z', 'z', 'z'], .startingAt 3 .loopOpen ['z', '+', 'z'],
          .startingAt 8 .left ['-', 'z', 'z']] ∧
      (Instruction.startingAt 3 .loopOpen ['z', '+', 'z']).LongestIn Tables.zzz
        ['z', 'z', 'z', 'z', '+', 'z', 'é', '-', 'z', 'z'] := by
  have distinct : (Tables.zzz.map priority).Nodup := by decide +kernel
  have longer : LongerFirst Tables.zzz := by decide +kernel
  have selects := selectsForemost.1 Tables.zzz ['z', 'z', 'z', 'z', '+', 'z', 'é', '-', 'z', 'z']
  have read :
      Text.tokenizeRanked Tables.zzz ['z', 'z', 'z', 'z', '+', 'z', 'é', '-', 'z', 'z'] =
        [.startingAt 0 .output ['z', 'z', 'z'], .startingAt 3 .loopOpen ['z', '+', 'z'],
          .startingAt 8 .left ['-', 'z', 'z']] := by
    decide +kernel
  refine ⟨distinct, longer, ?_, ?_⟩
  · rw [selects.reordered distinct _ (List.reverse_perm _), read]
  · apply selects.longest longer
    rw [read]
    decide

/-- Of two entries with one priority the first one is taken, although the other lexeme is
longer. -/
example :
    Text.tokenizeRanked
        [{ entry := { lexeme := ['a'], command := .right }, priority := 3 },
          { entry := { lexeme := ['a', 'b'], command := .left }, priority := 3 }]
        ['a', 'b'] =
      [.startingAt 0 .right ['a']] := by
  decide +kernel

end RankedEntry
end TapeDialects
