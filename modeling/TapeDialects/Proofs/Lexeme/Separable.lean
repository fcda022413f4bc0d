/-
Reading texts that are written in the lexemes of a table.

Where a lexeme of the table is written out and white space or the end of the
text follows, every entry before it in the table has to fail: such an entry is
no beginning of the lexeme, and where it goes on behind the lexeme it goes on
with something other than white space.  Lexemes may have white space inside.
-/

import TapeDialects.Lexeme.Comment
import TapeDialects.Lexeme.Lexer
import TapeDialects.Proofs.Text.Written

namespace TapeDialects

def Text.startsSolid : Text → Bool
  | [] => false
  | character :: _ => !Text.isSpace character

namespace Entry

/-- The earlier of two entries opens no text that the lexeme of the later one
and then white space or nothing stands at the beginning of. -/
def Yields (earlier later : Entry) : Prop :=
  ¬ earlier.lexeme <+: later.lexeme ∧
    (¬ later.lexeme <+: earlier.lexeme ∨
      Text.startsSolid (earlier.lexeme.drop later.lexeme.length) = true)

instance (earlier later : Entry) : Decidable (earlier.Yields later) :=
  inferInstanceAs (Decidable (_ ∧ _))

def Separable (table : List Entry) : Prop :=
  (∀ entry ∈ table, entry.lexeme.startsSolid = true) ∧ table.Pairwise Yields

instance (table : List Entry) : Decidable (Separable table) :=
  inferInstanceAs (Decidable (_ ∧ _))

def Spells (table : List Entry) (command : Command) (word : Text) : Prop :=
  { lexeme := word, command } ∈ table

variable {table : List Entry}

theorem exists_spells_iff {command : Command} :
    (∃ word, Spells table command word) ↔ command ∈ table.map Entry.command := by
  unfold Spells
  rw [List.mem_map]
  constructor
  · intro spellable
    rcases spellable with ⟨word, listed⟩
    exact ⟨_, listed, rfl⟩
  · intro member
    rcases member with ⟨entry, listed, same⟩
    subst same
    exact ⟨entry.lexeme, listed⟩

theorem not_opens_of_space {entry : Entry} (solid : entry.lexeme.startsSolid = true)
    {character : Char} (space : Text.isSpace character = true) (rest : Text) :
    ¬ entry.Opens (character :: rest) := by
  intro opens
  cases split : entry.lexeme with
  | nil => exact opens.1 split
  | cons head tail =>
      have begins := opens.2
      rw [split, List.cons_prefix_cons] at begins
      rw [split, Text.startsSolid, begins.1, space] at solid
      cases solid

theorem find?_of_space (solid : ∀ entry ∈ table, entry.lexeme.startsSolid = true)
    {character : Char} (space : Text.isSpace character = true) (rest : Text) :
    find? table (character :: rest) = none := by
  rw [find?_eq_none_iff]
  intro entry listed
  exact not_opens_of_space (solid entry listed) space rest

theorem Yields.not_opens {earlier later : Entry} (yields : earlier.Yields later)
    {rest : Text} (apart : rest.Apart) : ¬ earlier.Opens (later.lexeme ++ rest) := by
  intro opens
  rcases List.prefix_or_prefix_of_prefix opens.2 (List.prefix_append later.lexeme rest)
    with short | long
  · exact yields.1 short
  · rcases yields.2 with other | solid
    · exact other long
    · rcases long with ⟨more, joined⟩
      have begins := opens.2
      rw [← joined, List.prefix_append_right_inj] at begins
      rw [← joined, List.drop_left] at solid
      cases more with
      | nil => cases solid
      | cons head tail =>
          rcases begins with ⟨behind, same⟩
          rw [← same, List.cons_append] at apart
          rw [Text.startsSolid, Text.apart_cons.mp apart] at solid
          cases solid

theorem ne_nil_of_spells (separable : Separable table) {command : Command} {word : Text}
    (spelled : Spells table command word) : word ≠ [] := by
  intro empty
  have solid := separable.1 _ spelled
  rw [empty] at solid
  cases solid

theorem find?_of_spells (separable : Separable table) {command : Command} {word : Text}
    (spelled : Spells table command word) {rest : Text} (apart : rest.Apart) :
    find? table (word ++ rest) = some { lexeme := word, command } := by
  have opens : Entry.Opens { lexeme := word, command } (word ++ rest) :=
    ⟨ne_nil_of_spells separable spelled, List.prefix_append word rest⟩
  rcases List.append_of_mem spelled with ⟨before, behind, parts⟩
  unfold find?
  rw [List.find?_eq_some_iff_append]
  refine ⟨decide_eq_true opens, before, behind, parts, ?_⟩
  intro earlier member
  have ordered := separable.2
  rw [parts, List.pairwise_append] at ordered
  have yields := ordered.2.2 earlier member _ List.mem_cons_self
  rw [decide_eq_false (yields.not_opens apart)]
  rfl

end Entry

namespace Lexer

variable {table : List Entry}

theorem readAll_congr {lexer other : Lexer} (same : lexer.next table = other.next table) :
    lexer.readAll table = other.readAll table := by
  cases read : other.next table with
  | mk instruction? later =>
      rw [read] at same
      cases instruction? with
      | none => rw [readAll_of_next_none same, readAll_of_next_none read]
      | some instruction => rw [readAll_of_next_some same, readAll_of_next_some read]

theorem readAll_of_find?_eq_none {position : Nat} {character : Char} {rest : Text}
    (missed : Entry.find? table (character :: rest) = none) :
    readAll table { position, rest := character :: rest } =
      readAll table { position := position + character.utf8Size, rest } := by
  apply readAll_congr
  unfold next
  rw [nextFrom, missed]

theorem readAll_of_find?_eq_some {position : Nat} {text : Text} {entry : Entry}
    (found : Entry.find? table text = some entry) :
    readAll table { position, rest := text } =
      Instruction.startingAt position entry.command entry.lexeme ::
        readAll table
          { position := position + entry.lexeme.size
            rest := text.drop entry.lexeme.length } := by
  apply readAll_of_next_some
  unfold next
  cases text with
  | nil =>
      obtain ⟨-, spelled, opens⟩ := Entry.opens_of_find? found
      exact absurd (List.prefix_nil.mp opens) spelled
  | cons character rest => rw [nextFrom, found]

theorem readAll_space (solid : ∀ entry ∈ table, entry.lexeme.startsSolid = true) {position : Nat}
    {character : Char} (space : Text.isSpace character = true) (rest : Text) :
    readAll table { position, rest := character :: rest } =
      readAll table { position := position + character.utf8Size, rest } :=
  readAll_of_find?_eq_none (Entry.find?_of_space solid space rest)

theorem readAll_lexeme (separable : Entry.Separable table) {position : Nat}
    {command : Command} {word : Text} (spelled : Entry.Spells table command word)
    {rest : Text} (apart : rest.Apart) :
    readAll table { position, rest := word ++ rest } =
      Instruction.startingAt position command word ::
        readAll table { position := position + word.size, rest } := by
  have found := Entry.find?_of_spells separable spelled apart
  have remains : (word ++ rest).drop word.length = rest := List.drop_left
  rw [readAll_of_find?_eq_some found, remains]

end Lexer

namespace Entry

variable {table : List Entry}

theorem readsWords (separable : Separable table) :
    ReadsWords (Spells table) (fun _ _ => True)
      (fun position rest => Lexer.readAll table { position, rest }) := by
  refine { ends := ?ends, passes := ?passes, takes := ?takes }
  case ends =>
      intro position
      exact Lexer.readAll_of_next_none rfl
  case passes =>
      intro position character rest _ space
      exact ⟨position + character.utf8Size, trivial,
        Lexer.readAll_space separable.1 space rest⟩
  case takes =>
      intro position command word rest _ spelled apart
      exact ⟨_, position + word.size, rfl, trivial,
        Lexer.readAll_lexeme separable spelled apart⟩

theorem map_command_tokenize (separable : Separable table) {commands : List Command}
    {text : Text} (written : Written (Spells table) commands text) :
    (text.tokenize table).map Instruction.command = commands :=
  written.map_command_read (readsWords separable) 0 trivial

end Entry

theorem RankedEntry.mem_toTable_iff {table : List RankedEntry} {lexed : Entry} :
    lexed ∈ toTable table ↔ lexed ∈ table.map RankedEntry.entry :=
  ((byPriority_perm table).map RankedEntry.entry).mem_iff

/-! ### Texts without comments -/

namespace Comment

theorem rangesFrom_of_notMem {opener closer : Char} {text : Text} {position : Nat}
    (absent : opener ∉ text) : rangesFrom opener closer position none text = [] := by
  induction text generalizing position with
  | nil => rfl
  | cons character rest ih =>
      rw [List.mem_cons, not_or] at absent
      rw [rangesFrom, if_neg fun same => absent.1 same.symm]
      exact ih absent.2

theorem strip_nil (instructions : List Instruction) : strip [] instructions = instructions := by
  induction instructions with
  | nil => rfl
  | cons instruction rest ih => rw [strip, List.dropWhile_nil, ih]

theorem map_command_strip {table : List Entry} (separable : Entry.Separable table)
    {opener closer : Char} (solid : Text.isSpace opener = false)
    (unopened : ∀ entry ∈ table, opener ∉ entry.lexeme) {commands : List Command}
    {text : Text} (written : Written (Entry.Spells table) commands text) :
    (strip (ranges opener closer text) (text.tokenize table)).map Instruction.command =
      commands := by
  have absent : opener ∉ text := by
    apply written.notMem solid
    intro command word spelled
    exact unopened _ spelled
  rw [ranges, rangesFrom_of_notMem absent, strip_nil,
    Entry.map_command_tokenize separable written]

end Comment
end TapeDialects
