/-
Tables of lexemes.

An entry gives a command one spelling.  An entry opens a text if its lexeme is
not empty and the text begins with it.  Where several entries open the same
text, the first of the table wins; a ranked table is brought into order by
priority beforehand, and entries of equal priority keep their order.
-/

import TapeDialects.Command
import TapeDialects.Text.Slice

namespace TapeDialects

structure Entry where
  lexeme : Text
  command : Command
  deriving DecidableEq

namespace Entry

def Opens (entry : Entry) (text : Text) : Prop :=
  entry.lexeme ≠ [] ∧ entry.lexeme <+: text

instance (entry : Entry) (text : Text) : Decidable (entry.Opens text) :=
  inferInstanceAs (Decidable (_ ∧ _))

def find? (table : List Entry) (text : Text) : Option Entry :=
  table.find? fun entry => decide (entry.Opens text)

theorem opens_of_find? {table : List Entry} {text : Text} {entry : Entry}
    (found : find? table text = some entry) : entry ∈ table ∧ entry.Opens text :=
  ⟨List.mem_of_find?_eq_some found, by simpa using List.find?_some found⟩

theorem find?_eq_none_iff {table : List Entry} {text : Text} :
    find? table text = none ↔ ∀ entry ∈ table, ¬ entry.Opens text := by
  simp [find?]

theorem Opens.eq_append_drop {entry : Entry} {text : Text} (opens : entry.Opens text) :
    text = entry.lexeme ++ text.drop entry.lexeme.length :=
  List.prefix_iff_eq_append.mp opens.2 |>.symm

theorem Opens.length_drop_lt {entry : Entry} {text : Text} (opens : entry.Opens text) :
    (text.drop entry.lexeme.length).length < text.length := by
  have positive := List.length_pos_iff.mpr opens.1
  have bounded := opens.2.length_le
  simp only [List.length_drop]
  omega

end Entry

/-- An entry with the priority at which it is tried, the lowest first. -/
structure RankedEntry where
  entry : Entry
  priority : Nat
  deriving DecidableEq

namespace RankedEntry

/-- Put an entry in front of all entries whose priority is not lower. -/
def place (ranked : RankedEntry) : List RankedEntry → List RankedEntry
  | [] => [ranked]
  | other :: others =>
      if ranked.priority ≤ other.priority then
        ranked :: other :: others
      else
        other :: place ranked others

/-- The entries by ascending priority, those of one priority in their order. -/
def byPriority (table : List RankedEntry) : List RankedEntry :=
  table.foldr place []

def toTable (table : List RankedEntry) : List Entry :=
  (byPriority table).map entry

theorem place_perm (ranked : RankedEntry) (others : List RankedEntry) :
    (place ranked others).Perm (ranked :: others) := by
  induction others with
  | nil => exact List.Perm.refl _
  | cons other others ih =>
      simp only [place]
      split
      · exact List.Perm.refl _
      · exact (ih.cons other).trans (List.Perm.swap ranked other others)

theorem byPriority_perm (table : List RankedEntry) : (byPriority table).Perm table := by
  induction table with
  | nil => exact List.Perm.refl _
  | cons ranked table ih => exact (place_perm ranked _).trans (ih.cons ranked)

end RankedEntry
end TapeDialects
