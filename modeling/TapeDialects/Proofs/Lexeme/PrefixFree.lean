/-
Tables in which no lexeme begins another one.

At most one entry of such a table opens a text at a place.  So it does not matter in
which order the entries stand or with which priorities they are tried.  And lexemes
that are written one behind the other are read as they were written, although the
end of one and the beginning of the next may spell a lexeme as well; characters with
which no lexeme begins may stand between them, or be left out.
-/

import Mathlib.Data.List.Pairwise
import TapeDialects.Dialect.Registry
import TapeDialects.Proofs.Lexeme.Leftmost
import TapeDialects.Proofs.Lexeme.Separable

namespace TapeDialects

namespace Entry

def Diverges (first second : Entry) : Prop :=
  ¬ first.lexeme <+: second.lexeme ∧ ¬ second.lexeme <+: first.lexeme

instance (first second : Entry) : Decidable (first.Diverges second) :=
  inferInstanceAs (Decidable (_ ∧ _))

/-- No lexeme is empty, and none begins the lexeme of another entry. -/
def PrefixFree (table : List Entry) : Prop :=
  (∀ entry ∈ table, entry.lexeme ≠ []) ∧ table.Pairwise Diverges

instance (table : List Entry) : Decidable (PrefixFree table) :=
  inferInstanceAs (Decidable (_ ∧ _))

variable {table others : List Entry} {entry other : Entry} {text : Text}

instance : Std.Symm Diverges :=
  ⟨fun _ _ diverges => ⟨diverges.2, diverges.1⟩⟩

theorem Opens.head?_eq {character : Char} {rest : Text} (opens : entry.Opens (character :: rest)) :
    entry.lexeme.head? = some character := by
  obtain ⟨spelled, begins⟩ := opens
  cases letters : entry.lexeme with
  | nil => exact absurd letters spelled
  | cons first others =>
      rw [letters, List.cons_prefix_cons] at begins
      rw [List.head?_cons, begins.1]

namespace PrefixFree

theorem perm (free : PrefixFree table) (same : others.Perm table) : PrefixFree others := by
  constructor
  · intro entry listed
    exact free.1 entry (same.mem_iff.mp listed)
  · exact (same.pairwise_iff (Std.Symm.symm _ _)).mpr free.2

theorem eq_of_opens (free : PrefixFree table) (listed : entry ∈ table)
    (otherListed : other ∈ table) (opens : entry.Opens text) (otherOpens : other.Opens text) :
    entry = other := by
  by_contra distinct
  have diverges : Diverges entry other := free.2.forall listed otherListed distinct
  rcases List.prefix_or_prefix_of_prefix opens.2 otherOpens.2 with begins | begun
  · exact diverges.1 begins
  · exact diverges.2 begun

theorem find?_eq_some_iff (free : PrefixFree table) :
    find? table text = some entry ↔ entry ∈ table ∧ entry.Opens text := by
  constructor
  · exact opens_of_find?
  · rintro ⟨listed, opens⟩
    cases found : find? table text with
    | none => exact absurd opens (find?_eq_none_iff.mp found entry listed)
    | some other =>
        obtain ⟨otherListed, otherOpens⟩ := opens_of_find? found
        rw [free.eq_of_opens listed otherListed opens otherOpens]

theorem firstAt_iff (free : PrefixFree table) {place : Nat} :
    FirstAt table text place entry ↔ entry ∈ table ∧ entry.OpensAt text place := by
  constructor
  · intro first
    exact ⟨first.mem, first.1⟩
  · rintro ⟨listed, before, rest, parts, reached, opens⟩
    rw [reached, Entry.firstAt_iff parts]
    exact free.find?_eq_some_iff.mpr ⟨listed, opens⟩

end PrefixFree
end Entry

/-! ### Orders of one table -/

theorem Lexer.Exhausts.perm {table others : List Entry} {text : Text} {place : Nat}
    {instructions : List Instruction}
    (exhausts : Exhausts table text place instructions) (free : Entry.PrefixFree table)
    (same : others.Perm table) : Exhausts others text place instructions := by
  refine { exhausts with first := ?first, covers := ?covers }
  case first =>
      intro instruction member
      obtain ⟨start, entry, found, read⟩ := exhausts.first instruction member
      rw [free.firstAt_iff, ← same.mem_iff] at found
      exact ⟨start, entry, (free.perm same).firstAt_iff.mpr found, read⟩
  case covers =>
      rintro start behind ⟨entry, listed, opens⟩
      exact exhausts.covers start behind ⟨entry, same.mem_iff.mp listed, opens⟩

namespace Text

theorem tokenize_eq_of_perm {table others : List Entry} (free : Entry.PrefixFree table)
    (same : others.Perm table) (text : Text) : text.tokenize others = text.tokenize table := by
  have exhausts := Lexer.exhausts_tokenize table text
  exact (Lexer.exhausts_tokenize others text).unique (exhausts.perm free same)

theorem tokenize_eq_of_prefixFree {table : List Entry} (free : Entry.PrefixFree table)
    (text : Text) :
    (∀ others : List Entry, others.Perm table → text.tokenize others = text.tokenize table) ∧
      ∀ ranked : List RankedEntry, (ranked.map RankedEntry.entry).Perm table →
        text.tokenizeRanked ranked = text.tokenize table := by
  constructor
  · intro others same
    exact tokenize_eq_of_perm free same text
  · intro ranked same
    have tried : (RankedEntry.toTable ranked).Perm table :=
      ((RankedEntry.byPriority_perm ranked).map RankedEntry.entry).trans same
    exact tokenize_eq_of_perm free tried text

end Text

/-- Where the first lexeme is written twice, the second one stands in the middle. -/
def Tables.mirrored : List Entry :=
  [{ lexeme := ['a', 'b'], command := .right }, { lexeme := ['b', 'a'], command := .left }]

/-- The other order and other priorities, in a text that the second entry opens and the first
one behind its first character. -/
theorem Text.tokenize_mirrored_reordered :
    Entry.PrefixFree Tables.mirrored ∧
      Text.tokenize Tables.mirrored.reverse ['b', 'a', 'b'] =
        Text.tokenize Tables.mirrored ['b', 'a', 'b'] ∧
      Text.tokenizeRanked
          [{ entry := { lexeme := ['b', 'a'], command := .left }, priority := 7 },
            { entry := { lexeme := ['a', 'b'], command := .right }, priority := 0 }]
          ['b', 'a', 'b'] =
        Text.tokenize Tables.mirrored ['b', 'a', 'b'] := by
  have free : Entry.PrefixFree Tables.mirrored := by decide
  have same := tokenize_eq_of_prefixFree free ['b', 'a', 'b']
  exact ⟨free, same.1 _ (List.reverse_perm _), same.2 _ (List.Perm.swap _ _ _)⟩

/-! ### Lexemes and noise -/

namespace Entry

/-- No lexeme of the table begins with one of the characters. -/
def Noise (table : List Entry) (text : Text) : Prop :=
  ∀ character ∈ text, ∀ entry ∈ table, entry.lexeme.head? ≠ some character

instance (table : List Entry) (text : Text) : Decidable (Noise table text) :=
  List.decidableBAll (fun character => ∀ entry ∈ table, entry.lexeme.head? ≠ some character) text

end Entry

structure Piece where
  entry : Entry
  gap : Text

namespace Piece

def Over (table : List Entry) (piece : Piece) : Prop :=
  piece.entry ∈ table ∧ Entry.Noise table piece.gap

instance (table : List Entry) (piece : Piece) : Decidable (piece.Over table) :=
  inferInstanceAs (Decidable (_ ∧ _))

def write : List Piece → Text
  | [] => []
  | piece :: pieces => piece.entry.lexeme ++ (piece.gap ++ write pieces)

def instructionsFrom (position : Nat) : List Piece → List Instruction
  | [] => []
  | piece :: pieces =>
      .startingAt position piece.entry.command piece.entry.lexeme ::
        instructionsFrom (position + piece.entry.lexeme.size + piece.gap.size) pieces

theorem map_command_instructionsFrom (position : Nat) (pieces : List Piece) :
    (instructionsFrom position pieces).map Instruction.command =
      pieces.map fun piece => piece.entry.command := by
  induction pieces generalizing position with
  | nil => rfl
  | cons piece pieces ih =>
      rw [instructionsFrom, List.map_cons, ih, List.map_cons]
      rfl

end Piece

def Instruction.piece (instruction : Instruction) : Piece :=
  { entry := { lexeme := instruction.lexeme, command := instruction.command }
    gap := [] }

theorem Piece.write_map_piece (instructions : List Instruction) :
    write (instructions.map Instruction.piece) = instructions.flatMap Instruction.lexeme := by
  induction instructions with
  | nil => rfl
  | cons instruction instructions ih =>
      rw [List.map_cons, write, ih, List.flatMap_cons]
      rfl

theorem Instruction.FirstIn.piece_over {table : List Entry} {text : Text} {instruction : Instruction}
    (first : instruction.FirstIn table text) : instruction.piece.Over table := by
  obtain ⟨start, entry, found, rfl⟩ := first
  exact ⟨found.mem, nofun⟩

namespace Lexer

variable {table : List Entry}

theorem readAll_noise {noise : Text} (noisy : Entry.Noise table noise) (position : Nat)
    (rest : Text) :
    readAll table { position, rest := noise ++ rest } =
      readAll table { position := position + noise.size, rest } := by
  induction noise generalizing position with
  | nil => rfl
  | cons character noise ih =>
      obtain ⟨unused, later⟩ := List.forall_mem_cons.mp noisy
      have missed : Entry.find? table (character :: (noise ++ rest)) = none := by
        rw [Entry.find?_eq_none_iff]
        intro entry listed opens
        exact unused entry listed opens.head?_eq
      rw [List.cons_append, readAll_of_find?_eq_none missed, ih later, Text.size_cons,
        Nat.add_assoc]

theorem readAll_entry (free : Entry.PrefixFree table) {entry : Entry} (listed : entry ∈ table)
    (position : Nat) (rest : Text) :
    readAll table { position, rest := entry.lexeme ++ rest } =
      Instruction.startingAt position entry.command entry.lexeme ::
        readAll table { position := position + entry.lexeme.size, rest } := by
  have opens : entry.Opens (entry.lexeme ++ rest) :=
    ⟨free.1 entry listed, List.prefix_append _ rest⟩
  rw [readAll_of_find?_eq_some (free.find?_eq_some_iff.mpr ⟨listed, opens⟩), List.drop_left]

theorem readAll_write (free : Entry.PrefixFree table) {pieces : List Piece}
    (drawn : ∀ piece ∈ pieces, piece.Over table) (position : Nat) :
    readAll table { position, rest := Piece.write pieces } =
      Piece.instructionsFrom position pieces := by
  induction pieces generalizing position with
  | nil => exact readAll_of_next_none rfl
  | cons piece pieces ih =>
      obtain ⟨⟨listed, noisy⟩, later⟩ := List.forall_mem_cons.mp drawn
      rw [Piece.write, readAll_entry free listed, readAll_noise noisy, ih later,
        Piece.instructionsFrom]

end Lexer

namespace Entry

variable {table : List Entry}

theorem PrefixFree.tokenize_write (free : PrefixFree table) {gap : Text} {pieces : List Piece}
    (noisy : Noise table gap) (drawn : ∀ piece ∈ pieces, piece.Over table) :
    (gap ++ Piece.write pieces).tokenize table = Piece.instructionsFrom gap.size pieces := by
  have passed := Lexer.readAll_noise noisy 0 (Piece.write pieces)
  rw [Nat.zero_add] at passed
  exact passed.trans (Lexer.readAll_write free drawn gap.size)

/-- Reading a text in a table passes over noise, and is not misled where lexemes touch. -/
structure DecodesThroughNoise (table : List Entry) : Prop where
  /-- Entries with noise in front of them, between them and behind them are read in order. -/
  decodes : ∀ gap pieces, Noise table gap → (∀ piece ∈ pieces, piece.Over table) →
    (gap ++ Piece.write pieces).tokenize table = Piece.instructionsFrom gap.size pieces
  /-- What has been read of a text is read again if the rest of the text is left out. -/
  again : ∀ text : Text,
    (Text.tokenize table ((text.tokenize table).flatMap Instruction.lexeme)).map
        Instruction.command =
      (text.tokenize table).map Instruction.command

theorem PrefixFree.map_command_tokenize_lexemes (free : PrefixFree table) (text : Text) :
    (Text.tokenize table ((text.tokenize table).flatMap Instruction.lexeme)).map
        Instruction.command =
      (text.tokenize table).map Instruction.command := by
  have drawn : ∀ piece ∈ (text.tokenize table).map Instruction.piece, piece.Over table := by
    intro piece member
    obtain ⟨instruction, read, same⟩ := List.mem_map.mp member
    rw [← same]
    exact ((Lexer.exhausts_tokenize table text).first instruction read).piece_over
  have silent : Noise table [] := nofun
  have decoded := free.tokenize_write silent drawn
  rw [List.nil_append, Piece.write_map_piece] at decoded
  rw [decoded, Piece.map_command_instructionsFrom, List.map_map]
  rfl

end Entry

def Reading.plainTable? : Reading → Option (List Entry)
  | .unique table => some table
  | .commented table _ _ => some table
  | _ => none

/-- The tables of fifteen dialects and that of the dialect with comments. -/
def Dialect.plainTables : List (List Entry) :=
  all.filterMap fun dialect => dialect.reading.plainTable?

open Tables in
theorem Dialect.prefixFree_of_mem_plainTables :
    ∀ table ∈ plainTables, Entry.PrefixFree table := by
  simp only [plainTables, all, List.filterMap_cons, Reading.plainTable?, List.filterMap_nil,
    brainfuck, alphuck, brainSymbol, exclamationFuck, german, messyScript,
    morseFuck, pewlang, reverseFuck, roadrunner, ternary, triplet, uwu, blub, ook,
    scream, basicTable, Command.basic, List.zipWith_cons_cons, List.zipWith_nil_left]
  repeat rw [String.toList_ofList]
  decide

namespace Entry

theorem decodesThroughNoise :
    (∀ table, PrefixFree table → DecodesThroughNoise table) ∧
      Dialect.plainTables.length = 16 ∧
      ∀ table ∈ Dialect.plainTables, PrefixFree table := by
  refine ⟨?_, rfl, Dialect.prefixFree_of_mem_plainTables⟩
  intro table free
  exact
    { decodes := fun _ _ noisy drawn => free.tokenize_write noisy drawn
      again := free.map_command_tokenize_lexemes }

/-- The second lexeme is not read where it stands in the middle of the first one written
twice. -/
theorem mirrored_decoded :
    PrefixFree Tables.mirrored ∧
      Text.tokenize Tables.mirrored ['°', 'a', 'b', 'a', 'b', '°', 'b', 'a'] =
        [.startingAt 2 .right ['a', 'b'], .startingAt 4 .right ['a', 'b'],
          .startingAt 8 .left ['b', 'a']] := by
  have free : PrefixFree Tables.mirrored := by decide
  refine ⟨free, ?_⟩
  exact (decodesThroughNoise.1 Tables.mirrored free).decodes ['°']
    [{ entry := { lexeme := ['a', 'b'], command := .right }, gap := [] },
      { entry := { lexeme := ['a', 'b'], command := .right }, gap := ['°'] },
      { entry := { lexeme := ['b', 'a'], command := .left }, gap := [] }]
    (by decide) (by decide)

end Entry
end TapeDialects
