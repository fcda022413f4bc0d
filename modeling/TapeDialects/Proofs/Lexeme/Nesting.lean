/-
Comments are the parts of a text at a positive depth.

The depth of a text is the number of comments that are open behind it.  It rises
with an opening character and falls with a closing one, but not below zero.  The
range of an outermost comment starts where the depth leaves zero, and ends where it
comes back to zero or where the text ends.  So the ranges are apart, and a character
stands in one of them if and only if the depth is positive before it or behind it.
-/

import Mathlib.Data.List.Pairwise
import Mathlib.Logic.ExistsUnique
import TapeDialects.Lexeme.Comment
import TapeDialects.Proofs.Lexeme.Leftmost

namespace TapeDialects

def Span.ofCharacter (position : Nat) (character : Char) : Span :=
  { start := position, stop := position + character.utf8Size }

namespace Comment

def deepen (opener closer : Char) (depth : Nat) (character : Char) : Nat :=
  if character = opener then
    depth + 1
  else if character = closer then
    depth - 1
  else
    depth

def depth (opener closer : Char) (text : Text) : Nat :=
  text.foldl (deepen opener closer) 0

variable {opener closer : Char} {text before rest after front inside : Text} {character : Char}

theorem depth_append_singleton (text : Text) (character : Char) :
    depth opener closer (text ++ [character]) =
      deepen opener closer (depth opener closer text) character :=
  List.foldl_append

theorem deepen_opener (depth : Nat) : deepen opener closer depth opener = depth + 1 :=
  if_pos rfl

theorem deepen_zero_of_ne (other : character ≠ opener) :
    deepen opener closer 0 character = 0 := by
  rw [deepen, if_neg other, Nat.zero_sub, ite_self]

theorem eq_closer_of_deepen_eq_zero {depth : Nat}
    (falls : deepen opener closer (depth + 1) character = 0) :
    character = closer ∧ character ≠ opener ∧ depth = 0 := by
  unfold deepen at falls
  split at falls
  · cases falls
  · next other =>
      split at falls
      · next closes => exact ⟨closes, other, falls⟩
      · cases falls

/-- A part of a text from an opening character at depth zero on, to the closing character that
brings the depth back to zero, or to the end of the text if there is none. -/
structure Encloses (opener closer : Char) (cut : Text.Cut) : Prop where
  outermost : depth opener closer cut.before = 0
  opened : cut.inside.head? = some opener
  unclosed : ∀ part, part <+: cut.inside → part ≠ [] → part ≠ cut.inside →
    0 < depth opener closer (cut.before ++ part)
  ended : depth opener closer (cut.before ++ cut.inside) = 0 ∧
      cut.inside.getLast? = some closer ∨
    0 < depth opener closer (cut.before ++ cut.inside) ∧ cut.after = []

/-! ### The comment that is being read -/

/-- What has been read ends inside of a comment, which is the part behind a front. -/
structure Pending (opener closer : Char) (front inside : Text) (outermost : Open) : Prop where
  started : outermost.start = front.size
  fresh : depth opener closer front = 0
  opened : inside.head? = some opener
  unclosed : ∀ part, part <+: inside → part ≠ [] → 0 < depth opener closer (front ++ part)
  level : depth opener closer (front ++ inside) = outermost.inner + 1

def Tracks (opener closer : Char) (before : Text) : Option Open → Prop
  | none => depth opener closer before = 0
  | some outermost =>
      ∃ front inside, before = front ++ inside ∧ Pending opener closer front inside outermost

theorem tracks_opened (level : depth opener closer before = 0) :
    Tracks opener closer (before ++ [opener]) (some { start := before.size, inner := 0 }) := by
  have raised : depth opener closer (before ++ [opener]) = 0 + 1 := by
    rw [depth_append_singleton, deepen_opener, level]
  refine ⟨before, [opener], rfl, ?_⟩
  refine { started := rfl, fresh := level, opened := rfl, unclosed := ?unclosed, level := raised }
  case unclosed =>
      intro part begins filled
      rcases List.prefix_cons_iff.mp begins with none | ⟨more, same, further⟩
      · exact absurd none filled
      · rw [List.prefix_nil.mp further] at same
        rw [same, raised]
        exact Nat.succ_pos 0

theorem Pending.append {outermost : Open} {inner : Nat}
    (pending : Pending opener closer front inside outermost)
    (level : deepen opener closer (outermost.inner + 1) character = inner + 1) :
    Pending opener closer front (inside ++ [character])
      { start := outermost.start, inner } := by
  have reached : depth opener closer (front ++ (inside ++ [character])) = inner + 1 := by
    rw [← List.append_assoc, depth_append_singleton, pending.level, level]
  refine { started := pending.started, fresh := pending.fresh, opened := ?opened,
           unclosed := ?unclosed, level := reached }
  case opened => rw [List.head?_append, pending.opened, Option.some_or]
  case unclosed =>
      intro part begins filled
      rcases List.prefix_concat_iff.mp begins with whole | shorter
      · rw [whole, reached]
        exact Nat.succ_pos inner
      · exact pending.unclosed part shorter filled

theorem tracks_append {outermost : Open} {inner : Nat}
    (tracks : Tracks opener closer before (some outermost))
    (level : deepen opener closer (outermost.inner + 1) character = inner + 1) :
    Tracks opener closer (before ++ [character])
      (some { start := outermost.start, inner }) := by
  obtain ⟨front, inside, parts, pending⟩ := tracks
  refine ⟨front, inside ++ [character], ?_, pending.append level⟩
  rw [parts, List.append_assoc]

theorem Pending.encloses_closed {outermost : Open}
    (pending : Pending opener closer front inside outermost)
    (level : deepen opener closer (outermost.inner + 1) closer = 0) (after : Text) :
    Encloses opener closer { before := front, inside := inside ++ [closer], after } := by
  refine { outermost := pending.fresh, opened := ?opened, unclosed := ?unclosed, ended := ?ended }
  case opened =>
      rw [List.head?_append, pending.opened, Option.some_or]
  case unclosed =>
      intro part begins filled proper
      rcases List.prefix_concat_iff.mp begins with whole | shorter
      · exact absurd whole proper
      · exact pending.unclosed part shorter filled
  case ended =>
      refine Or.inl ⟨?_, List.getLast?_concat⟩
      rw [← List.append_assoc, depth_append_singleton, pending.level, level]

theorem Pending.encloses_unclosed {outermost : Open}
    (pending : Pending opener closer front inside outermost) :
    Encloses opener closer { before := front, inside, after := [] } := by
  refine { outermost := pending.fresh, opened := pending.opened, unclosed := ?unclosed,
           ended := ?ended }
  case unclosed =>
      intro part begins filled _
      exact pending.unclosed part begins filled
  case ended =>
      refine Or.inr ⟨?_, rfl⟩
      rw [pending.level]
      exact Nat.succ_pos _

/-! ### The ranges of the comments -/

/-- The ranges of the comments of a text from a place on. -/
structure Marks (opener closer : Char) (text : Text) (place : Nat) (ranges : List Span) :
    Prop where
  comments : ∀ range ∈ ranges, ∃ cut, text.cut? range = some cut ∧ Encloses opener closer cut
  behind : ∀ range ∈ ranges, place ≤ range.start
  apart : ranges.Pairwise fun first second => first.stop ≤ second.start
  covers : ∀ before character after, text = before ++ character :: after →
    place ≤ before.size →
    0 < depth opener closer before ∨ 0 < depth opener closer (before ++ [character]) →
    ∃ range ∈ ranges, (Span.ofCharacter before.size character).Within range

theorem Encloses.start_lt_stop {cut : Text.Cut} {range : Span}
    (encloses : Encloses opener closer cut) (found : text.cut? range = some cut) :
    range.start < range.stop := by
  obtain ⟨-, started, stopped⟩ := Text.cut?_eq_some_iff.mp found
  have filled : cut.inside ≠ [] := by
    intro empty
    have opened := encloses.opened
    rw [empty] at opened
    cases opened
  have long := Text.size_pos_of_ne_nil filled
  omega

namespace Marks

variable {place later : Nat} {ranges : List Span}

theorem nil (ended : text.size ≤ place) : Marks opener closer text place [] := by
  refine { comments := List.forall_mem_nil _, behind := List.forall_mem_nil _, apart := .nil,
           covers := ?covers }
  case covers =>
      intro before character after parts onward _
      have wide := character.utf8Size_pos
      rw [parts, Text.size_append, Text.size_cons] at ended
      omega

theorem of_later (marks : Marks opener closer text (before.size + character.utf8Size) ranges)
    (parts : text = before ++ character :: rest) (level : depth opener closer before = 0)
    (further : depth opener closer (before ++ [character]) = 0) :
    Marks opener closer text before.size ranges := by
  refine { comments := marks.comments, behind := ?behind, apart := marks.apart,
           covers := ?covers }
  case behind =>
      intro range member
      exact Nat.le_trans (Nat.le_add_right _ _) (marks.behind range member)
  case covers =>
      intro front other after otherParts onward deep
      rcases Text.size_eq_or_le parts otherParts onward with same | beyond
      · obtain ⟨sameFront, sameRest⟩ := Text.parts_eq_of_size_eq parts otherParts same
        rw [List.cons.injEq] at sameRest
        rw [sameFront, sameRest.1, level, further] at deep
        simp at deep
      · exact marks.covers front other after otherParts beyond deep

theorem cons {cut : Text.Cut} {range : Span} (found : text.cut? range = some cut)
    (encloses : Encloses opener closer cut)
    (marks : Marks opener closer text range.stop ranges) :
    Marks opener closer text range.start (range :: ranges) := by
  have forward := encloses.start_lt_stop found
  refine { comments := ?comments, behind := ?behind,
           apart := List.pairwise_cons.mpr ⟨marks.behind, marks.apart⟩, covers := ?covers }
  case comments => exact List.forall_mem_cons.mpr ⟨⟨cut, found, encloses⟩, marks.comments⟩
  case behind =>
      intro other member
      rcases List.mem_cons.mp member with rfl | further
      · exact Nat.le_refl _
      · exact Nat.le_trans (Nat.le_of_lt forward) (marks.behind other further)
  case covers =>
      intro front character after parts onward deep
      by_cases within : front.size < range.stop
      · obtain ⟨whole, -, stopped⟩ := Text.cut?_eq_some_iff.mp found
        rw [← Text.size_append] at stopped
        rw [stopped] at within
        rcases Text.size_eq_or_le parts whole (Nat.le_of_lt within) with same | beyond
        · omega
        · rw [← stopped] at beyond
          exact ⟨range, List.mem_cons_self, onward, beyond⟩
      · obtain ⟨other, member, inside⟩ :=
          marks.covers front character after parts (Nat.le_of_not_lt within) deep
        exact ⟨other, List.mem_cons_of_mem range member, inside⟩

end Marks

section Characters

variable {position inner : Nat} {outermost : Open}

theorem rangesFrom_opener (position : Nat) (rest : Text) :
    rangesFrom opener closer position none (opener :: rest) =
      rangesFrom opener closer (position + opener.utf8Size)
        (some { start := position, inner := 0 }) rest := by
  rw [rangesFrom, if_pos rfl]

theorem rangesFrom_of_ne (other : character ≠ opener) (position : Nat) (rest : Text) :
    rangesFrom opener closer position none (character :: rest) =
      rangesFrom opener closer (position + character.utf8Size) none rest := by
  rw [rangesFrom, if_neg other]

theorem rangesFrom_of_deepen_eq_zero
    (falls : deepen opener closer (outermost.inner + 1) character = 0) (position : Nat)
    (rest : Text) :
    rangesFrom opener closer position (some outermost) (character :: rest) =
      { start := outermost.start, stop := position + character.utf8Size } ::
        rangesFrom opener closer (position + character.utf8Size) none rest := by
  obtain ⟨closes, other, last⟩ := eq_closer_of_deepen_eq_zero falls
  rw [rangesFrom, if_neg other, if_pos closes, last]

theorem rangesFrom_of_deepen_eq_succ
    (level : deepen opener closer (outermost.inner + 1) character = inner + 1) (position : Nat)
    (rest : Text) :
    rangesFrom opener closer position (some outermost) (character :: rest) =
      rangesFrom opener closer (position + character.utf8Size)
        (some { start := outermost.start, inner }) rest := by
  unfold deepen at level
  rw [rangesFrom]
  split at level
  · next opens =>
      rw [if_pos opens, Nat.succ.inj level]
  · next other =>
      split at level
      · next closes =>
          rw [Nat.add_sub_cancel] at level
          rw [if_neg other, if_pos closes, level]
      · next inert =>
          rw [if_neg other, if_neg inert, ← Nat.succ.inj level]

end Characters

theorem marks_rangesFrom {position : Nat} {pending : Option Open}
    (parts : text = before ++ rest) (reached : position = before.size)
    (tracks : Tracks opener closer before pending) :
    Marks opener closer text ((pending.map Open.start).getD position)
      (rangesFrom opener closer position pending rest) := by
  induction rest generalizing before position pending with
  | nil =>
      rw [List.append_nil] at parts
      have ended : text.size ≤ position := Nat.le_of_eq (by rw [parts, reached])
      cases pending with
      | none => exact .nil ended
      | some outermost =>
          obtain ⟨front, inside, split, known⟩ := tracks
          have found : text.cut? { start := outermost.start, stop := position } =
              some { before := front, inside, after := [] } := by
            rw [Text.cut?_eq_some_iff, reached, parts, split, Text.size_append, List.append_nil]
            exact ⟨rfl, known.started, rfl⟩
          exact .cons found known.encloses_unclosed (.nil ended)
  | cons character rest ih =>
      have laterParts : text = (before ++ [character]) ++ rest :=
        parts.trans (List.append_cons before character rest)
      have laterReached : position + character.utf8Size = (before ++ [character]).size := by
        rw [Text.size_append_singleton, reached]
      cases pending with
      | none =>
          by_cases opens : character = opener
          · subst opens
            have opened := tracks_opened tracks
            rw [← reached] at opened
            rw [rangesFrom_opener]
            exact ih laterParts laterReached opened
          · have further : Tracks opener closer (before ++ [character]) none := by
              rw [Tracks, depth_append_singleton, show depth opener closer before = 0 from tracks]
              exact deepen_zero_of_ne opens
            have marks := ih laterParts laterReached further
            rw [rangesFrom_of_ne opens]
            rw [reached] at marks ⊢
            exact marks.of_later parts tracks further
      | some outermost =>
          cases level : deepen opener closer (outermost.inner + 1) character with
          | zero =>
              obtain ⟨rfl, -, -⟩ := eq_closer_of_deepen_eq_zero level
              obtain ⟨front, inside, split, known⟩ := tracks
              have further : Tracks opener character (before ++ [character]) none := by
                rw [Tracks, depth_append_singleton, split, known.level, level]
              have found :
                  text.cut?
                      { start := outermost.start, stop := position + character.utf8Size } =
                    some { before := front, inside := inside ++ [character], after := rest } := by
                rw [Text.cut?_eq_some_iff, laterReached, laterParts, split, List.append_assoc front,
                  Text.size_append]
                exact ⟨rfl, known.started, rfl⟩
              rw [rangesFrom_of_deepen_eq_zero level]
              exact .cons found (known.encloses_closed level rest)
                (ih laterParts laterReached further)
          | succ inner =>
              rw [rangesFrom_of_deepen_eq_succ level]
              exact ih laterParts laterReached (tracks_append tracks level)

theorem ranges_marks (opener closer : Char) (text : Text) :
    Marks opener closer text 0 (ranges opener closer text) := by
  have whole : text = [] ++ text := (List.nil_append text).symm
  have level : Tracks opener closer [] none := rfl
  exact marks_rangesFrom whole rfl level

/-! ### Characters in comments -/

end Comment

theorem Text.exists_parts_of_cut? {text before rest : Text} {range : Span} {cut : Cut}
    (found : text.cut? range = some cut) (parts : text = before ++ rest)
    (begun : range.start ≤ before.size) (unended : before.size < range.stop) :
    ∃ part more, before = cut.before ++ part ∧ cut.inside = part ++ more ∧ more ≠ [] ∧
      rest = more ++ cut.after := by
  obtain ⟨whole, started, stopped⟩ := cut?_eq_some_iff.mp found
  rw [← size_append] at stopped
  rw [started] at begun
  rw [stopped] at unended
  obtain ⟨part, longer, -⟩ :=
    exists_part_of_size_le (whole.trans (List.append_assoc _ _ _)) parts begun
  obtain ⟨more, shorter, left⟩ := exists_part_of_size_le parts whole (Nat.le_of_lt unended)
  refine ⟨part, more, longer, ?_, ?_, left⟩
  · rw [longer, List.append_assoc] at shorter
    exact List.append_cancel_left shorter
  · intro none
    rw [none, List.append_nil] at shorter
    rw [shorter] at unended
    exact Nat.lt_irrefl _ unended

namespace Comment

variable {opener closer : Char} {text before after : Text} {character : Char} {cut : Text.Cut}
  {range : Span}

theorem Encloses.deep (encloses : Encloses opener closer cut) {part more : Text}
    (inside : cut.inside = part ++ character :: more) :
    0 < depth opener closer (cut.before ++ part) ∨
      0 < depth opener closer (cut.before ++ part ++ [character]) := by
  by_cases first : part = []
  · have opens : character = opener := by
      have opened := encloses.opened
      rw [inside, first, List.nil_append, List.head?_cons, Option.some.injEq] at opened
      exact opened
    rw [first, List.append_nil, depth_append_singleton, opens, deepen_opener]
    exact Or.inr (Nat.succ_pos _)
  · apply Or.inl
    apply encloses.unclosed part _ first
    · intro whole
      rw [← whole] at inside
      simp at inside
    · rw [inside]
      exact List.prefix_append _ _

theorem Encloses.apart_of_level (encloses : Encloses opener closer cut)
    (found : text.cut? range = some cut) (parts : text = before ++ character :: after)
    (level : depth opener closer before = 0)
    (further : depth opener closer (before ++ [character]) = 0) :
    before.size + character.utf8Size ≤ range.start ∨ range.stop ≤ before.size := by
  obtain ⟨whole, started, -⟩ := Text.cut?_eq_some_iff.mp found
  by_contra overlap
  rw [not_or, Nat.not_le, Nat.not_le] at overlap
  obtain ⟨begun, unended⟩ := overlap
  have behind : range.start ≤ before.size := by
    by_contra ahead
    rw [started] at begun ahead
    rcases Text.size_eq_or_le parts (whole.trans (List.append_assoc _ _ _))
        (Nat.le_of_not_le ahead) with same | beyond
    · omega
    · omega
  obtain ⟨part, more, front, inside, filled, left⟩ :=
    Text.exists_parts_of_cut? found parts behind unended
  cases more with
  | nil => exact filled rfl
  | cons next more =>
      rw [List.cons_append, List.cons.injEq] at left
      rw [← left.1] at inside
      have deep := encloses.deep inside
      rw [← front, level, further] at deep
      simp at deep

theorem Marks.eq_of_within {place position : Nat} {ranges : List Span} {other : Span}
    (marks : Marks opener closer text place ranges) (member : range ∈ ranges)
    (otherMember : other ∈ ranges) (inside : (Span.ofCharacter position character).Within range)
    (otherInside : (Span.ofCharacter position character).Within other) : other = range := by
  by_contra distinct
  have wide := character.utf8Size_pos
  have apart : ranges.Pairwise fun first second =>
      first.stop ≤ second.start ∨ second.stop ≤ first.start :=
    marks.apart.imp Or.inl
  have symmetric : Std.Symm fun first second : Span =>
      first.stop ≤ second.start ∨ second.stop ≤ first.start :=
    ⟨fun _ _ => Or.symm⟩
  obtain ⟨begins, ends⟩ := inside
  obtain ⟨otherBegins, otherEnds⟩ := otherInside
  simp only [Span.ofCharacter] at begins ends otherBegins otherEnds
  rcases apart.forall otherMember member distinct with before | behind
  · omega
  · omega

/-- The ranges are those of the comments of the text, and hold the characters at a positive
depth. -/
structure Delimits (opener closer : Char) (text : Text) (ranges : List Span) : Prop where
  filled : ∀ range ∈ ranges, range.start < range.stop
  apart : ranges.Pairwise fun first second => first.stop ≤ second.start
  /-- Each range falls between characters, and is that of a comment. -/
  comments : ∀ range ∈ ranges, ∃ cut, text.cut? range = some cut ∧ Encloses opener closer cut
  inside : ∀ before character after, text = before ++ character :: after →
    0 < depth opener closer before ∨ 0 < depth opener closer (before ++ [character]) →
    ∃! range, range ∈ ranges ∧ (Span.ofCharacter before.size character).Within range
  outside : ∀ before character after, text = before ++ character :: after →
    depth opener closer before = 0 → depth opener closer (before ++ [character]) = 0 →
    ∀ range ∈ ranges,
      before.size + character.utf8Size ≤ range.start ∨ range.stop ≤ before.size

theorem ranges_delimits (opener closer : Char) (text : Text) :
    Delimits opener closer text (ranges opener closer text) := by
  have marks := ranges_marks opener closer text
  refine { filled := ?filled, apart := marks.apart, comments := marks.comments,
           inside := ?inside, outside := ?outside }
  case filled =>
      intro range member
      obtain ⟨cut, found, encloses⟩ := marks.comments range member
      exact encloses.start_lt_stop found
  case inside =>
      intro before character after parts deep
      obtain ⟨range, member, within⟩ :=
        marks.covers before character after parts (Nat.zero_le _) deep
      refine ⟨range, ⟨member, within⟩, ?_⟩
      rintro other ⟨otherMember, otherWithin⟩
      exact marks.eq_of_within member otherMember within otherWithin
  case outside =>
      intro before character after parts level further range member
      obtain ⟨cut, found, encloses⟩ := marks.comments range member
      exact encloses.apart_of_level found parts level further

/-- A character that opens and closes opens only. -/
example : ranges '#' '#' ['é', '#', 'a', '#', 'b'] = [{ start := 2, stop := 6 }] := by
  decide

end Comment
end TapeDialects
