/-
What an excerpt shows of a text.

The parts on both sides of a lexeme are as long as the margin and the line of the text
let them be: of all parts that end where the lexeme starts, or start where it ends, and
that have no more characters than the margin and no line feed, they are the longest.
The marks stand under the lexeme character by character.  Since nothing beyond the
margins is looked at, two texts that agree within them have the same excerpt.  There is
none if an end of the span is no boundary of the text, or if the ends are out of order.
-/

import Mathlib.Data.List.DropRight
import TapeDialects.Proofs.Dialect.Span
import TapeDialects.Proofs.Lexeme.Leftmost

namespace TapeDialects

/-! ### Spans that cut a text -/

def Text.Cut.text (cut : Text.Cut) : Text :=
  cut.before ++ cut.inside ++ cut.after

def Text.Cut.span (cut : Text.Cut) : Span :=
  { start := cut.before.size, stop := cut.before.size + cut.inside.size }

/-- Both ends of a span are boundaries of a text, and they are in order. -/
structure Span.Slices (text : Text) (span : Span) : Prop where
  ordered : span.start ≤ span.stop
  opens : text.IsBoundary span.start
  closes : text.IsBoundary span.stop

theorem Text.cut?_eq_some_iff_cut {text : Text} {span : Span} {cut : Text.Cut} :
    text.cut? span = some cut ↔ cut.text = text ∧ cut.span = span := by
  obtain ⟨start, stop⟩ := span
  rw [Text.cut?_eq_some_iff, Text.Cut.text, Text.Cut.span, Span.mk.injEq, eq_comm (a := text),
    eq_comm (a := start), eq_comm (a := stop)]

theorem Span.slices_iff {text : Text} {span : Span} :
    span.Slices text ↔ ∃ cut : Text.Cut, cut.text = text ∧ cut.span = span := by
  constructor
  · rintro ⟨ordered, ⟨before, rest, parts, opened⟩, ⟨front, back, otherParts, closed⟩⟩
    have behind : before.size ≤ front.size := by
      rw [opened, closed]
      exact ordered
    obtain ⟨inside, longer, -⟩ := Text.exists_part_of_size_le parts otherParts behind
    refine ⟨{ before, inside, after := back }, ?_, ?_⟩
    · rw [Text.Cut.text, ← longer, otherParts]
    · rw [Text.Cut.span, ← Text.size_append, ← longer, closed, opened]
  · rintro ⟨cut, rfl, rfl⟩
    refine { ordered := Nat.le_add_right _ _, opens := ?opens, closes := ?closes }
    case opens => exact ⟨cut.before, cut.inside ++ cut.after, List.append_assoc _ _ _, rfl⟩
    case closes => exact ⟨cut.before ++ cut.inside, cut.after, rfl, Text.size_append _ _⟩

namespace Excerpt

/-! ### The margins -/

structure FitsMargin (part : Text) : Prop where
  short : part.length ≤ 20
  lineless : '\n' ∉ part

structure LongestFront (text part : Text) : Prop where
  begins : part <+: text
  fits : FitsMargin part
  longest : ∀ other, other <+: text → FitsMargin other → other.length ≤ part.length

structure LongestBack (text part : Text) : Prop where
  ends : part <:+ text
  fits : FitsMargin part
  longest : ∀ other, other <:+ text → FitsMargin other → other.length ≤ part.length

theorem FitsMargin.reverse {part : Text} (fits : FitsMargin part) : FitsMargin part.reverse :=
  { short := Nat.le_trans (Nat.le_of_eq List.length_reverse) fits.short
    lineless := fun member => fits.lineless (List.mem_reverse.mp member) }

theorem opening_longestFront (text : Text) : LongestFront text (opening text) := by
  unfold opening
  refine { begins := ?begins, fits := ?fits, longest := ?longest }
  case begins => exact (List.takeWhile_prefix _).trans (List.take_prefix _ _)
  case fits =>
      refine { short := ?short, lineless := ?lineless }
      case short => exact Nat.le_trans (List.takeWhile_prefix _).length_le (List.length_take_le _ _)
      case lineless =>
          intro member
          have other := List.mem_takeWhile_imp member
          simp at other
  case longest =>
      intro other begins fits
      obtain ⟨rest, parts⟩ := List.prefix_take_iff.mpr ⟨begins, fits.short⟩
      have onLine : ∀ character ∈ other, decide (character ≠ '\n') = true := by
        intro character member
        exact decide_eq_true fun same => fits.lineless (same ▸ member)
      rw [margin, ← parts, List.takeWhile_append_of_pos onLine, List.length_append]
      exact Nat.le_add_right _ _

theorem closing_longestBack (text : Text) : LongestBack text (closing text) := by
  have mirrored := opening_longestFront text.reverse
  unfold closing
  refine { ends := ?ends, fits := mirrored.fits.reverse, longest := ?longest }
  case ends =>
      rw [← List.reverse_prefix, List.reverse_reverse]
      exact mirrored.begins
  case longest =>
      intro other ends fits
      have least := mirrored.longest other.reverse (List.reverse_prefix.mpr ends) fits.reverse
      rw [List.length_reverse] at least ⊢
      exact least

theorem opening_eq_of_take_eq {text other : Text} (alike : other.take 20 = text.take 20) :
    opening other = opening text := by
  unfold opening margin
  rw [alike]

theorem closing_eq_of_rtake_eq {text other : Text} (alike : other.rtake 20 = text.rtake 20) :
    closing other = closing text := by
  rw [List.rtake_eq_reverse_take_reverse, List.rtake_eq_reverse_take_reverse,
    List.reverse_inj] at alike
  unfold closing
  rw [opening_eq_of_take_eq alike]

theorem shorten_of_le {lexeme : Text} (short : lexeme.length ≤ 30) : shorten lexeme = lexeme :=
  if_pos short

theorem shorten_of_lt {lexeme : Text} (long : 30 < lexeme.length) :
    shorten lexeme = lexeme.take 10 ++ ['.', '.', '.'] ++ lexeme.rtake 10 :=
  if_neg (Nat.not_le_of_lt long)

theorem length_shorten_le (lexeme : Text) : (shorten lexeme).length ≤ 30 := by
  by_cases short : lexeme.length ≤ 30
  · rw [shorten_of_le short]
    exact short
  · rw [shorten_of_lt (Nat.lt_of_not_le short), List.length_append, List.length_append,
      List.rtake, List.length_drop]
    have front := List.length_take_le 10 lexeme
    have dots : ['.', '.', '.'].length = 3 := rfl
    omega

structure Shows (cut : Text.Cut) (excerpt : Excerpt) : Prop where
  before : LongestBack cut.before excerpt.before
  after : LongestFront cut.after excerpt.after
  full : cut.inside.length ≤ 30 → excerpt.marked = cut.inside
  shortened : 30 < cut.inside.length →
    excerpt.marked = cut.inside.take 10 ++ ['.', '.', '.'] ++ cut.inside.rtake 10
  context : excerpt.context = excerpt.before ++ excerpt.marked ++ excerpt.after
  underline : excerpt.underline =
    List.replicate excerpt.before.length ' ' ++ List.replicate excerpt.marked.length '^' ++
      List.replicate excerpt.after.length ' '
  aligned : excerpt.underline.length = excerpt.context.length
  bounded : excerpt.context.length ≤ 70
  /-- A lexeme in full stands between its own surroundings. -/
  contiguous : cut.inside.length ≤ 30 →
    ∃ front back, cut.before = front ++ excerpt.before ∧ cut.after = excerpt.after ++ back ∧
      cut.text = front ++ excerpt.context ++ back

theorem ofCut_shows (cut : Text.Cut) : Shows cut (ofCut cut) := by
  have before := closing_longestBack cut.before
  have after := opening_longestFront cut.after
  refine
    { before
      after
      full := shorten_of_le
      shortened := shorten_of_lt
      context := rfl
      underline := rfl
      aligned := length_underline _
      bounded := ?bounded
      contiguous := ?contiguous }
  case bounded =>
      have marked := length_shorten_le cut.inside
      have left := before.fits.short
      have right := after.fits.short
      simp only [context, ofCut, List.length_append]
      omega
  case contiguous =>
      intro short
      obtain ⟨front, left⟩ := before.ends
      obtain ⟨back, right⟩ := after.begins
      refine ⟨front, back, left.symm, right.symm, ?_⟩
      unfold context ofCut Text.Cut.text
      rw [shorten_of_le short]
      simp only [← List.append_assoc]
      rw [left, List.append_assoc (cut.before ++ cut.inside), right]

theorem of?_eq_some_ofCut {text : Text} {span : Span} {cut : Text.Cut} (whole : cut.text = text)
    (placed : cut.span = span) : of? text span = some (ofCut cut) := by
  rw [of?, Text.cut?_eq_some_iff_cut.mpr ⟨whole, placed⟩]
  rfl

structure ShowsExactly (text : Text) (span : Span) : Prop where
  refuses : of? text span = none ↔ ¬ span.Slices text
  parted : span.Slices text → ∃ cut : Text.Cut, cut.text = text ∧ cut.span = span
  shows : ∀ cut : Text.Cut, cut.text = text → cut.span = span →
    ∃ excerpt, of? text span = some excerpt ∧ Shows cut excerpt
  near : ∀ cut other : Text.Cut, cut.text = text → cut.span = span →
    other.inside = cut.inside → other.before.rtake 20 = cut.before.rtake 20 →
      other.after.take 20 = cut.after.take 20 → of? other.text other.span = of? text span

theorem showsExactly (text : Text) (span : Span) : ShowsExactly text span := by
  refine
    { refuses := ?refuses
      parted := Span.slices_iff.mp
      shows := fun cut whole placed =>
        ⟨ofCut cut, of?_eq_some_ofCut whole placed, ofCut_shows cut⟩
      near := ?near }
  case refuses =>
      rw [Span.slices_iff, of?, Option.map_eq_none_iff, Option.eq_none_iff_forall_ne_some]
      simp only [ne_eq, Text.cut?_eq_some_iff_cut, not_exists]
  case near =>
      intro cut other whole placed inside before after
      rw [of?_eq_some_ofCut whole placed, of?_eq_some_ofCut rfl rfl]
      unfold ofCut
      rw [inside, closing_eq_of_rtake_eq before, opening_eq_of_take_eq after]

/-- The marks are under the characters, also behind one of two bytes. -/
example :
    (of? "a\nü+ö".toList { start := 4, stop := 5 }).map
        (fun excerpt => (excerpt.context, excerpt.underline)) =
      some ("ü+ö".toList, " ^ ".toList) := by
  decide

end Excerpt
end TapeDialects
