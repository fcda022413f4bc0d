/-
Source text and places in it.

A text is its list of characters, that is, of Unicode scalar values.  A place
is a count of bytes of the text's UTF-8 form.  Such an offset may lie beyond
the text or inside a character; `splitAt?` and `cut?` answer only where it does
not.  Main statements: `splitAt?` finds exactly the ways to write a text as two
parts, and `cut?` exactly the ways to write it as three.
-/

namespace TapeDialects

abbrev Text := List Char

namespace Text

/-- The number of bytes of the UTF-8 form. -/
def size : Text → Nat
  | [] => 0
  | character :: rest => character.utf8Size + size rest

@[simp] theorem size_nil : size [] = 0 := rfl

@[simp] theorem size_cons (character : Char) (rest : Text) :
    size (character :: rest) = character.utf8Size + size rest := rfl

@[simp] theorem size_append (front back : Text) :
    size (front ++ back) = size front + size back := by
  induction front with
  | nil => simp
  | cons character front ih => simp [ih, Nat.add_assoc]

theorem size_append_singleton (front : Text) (character : Char) :
    size (front ++ [character]) = size front + character.utf8Size :=
  size_append front [character]

theorem size_pos_of_ne_nil {text : Text} (nonempty : text ≠ []) : 0 < size text := by
  cases text with
  | nil => exact absurd rfl nonempty
  | cons character rest =>
      have positive := character.utf8Size_pos
      simp only [size_cons]
      omega

/-- The characters before an offset and those after it, if a character
starts or the text ends there. -/
def splitAt? : Text → Nat → Option (Text × Text)
  | text, 0 => some ([], text)
  | [], _ + 1 => none
  | character :: rest, offset + 1 =>
      if character.utf8Size ≤ offset + 1 then
        (splitAt? rest (offset + 1 - character.utf8Size)).map
          fun (before, after) => (character :: before, after)
      else
        none

@[simp] theorem splitAt?_zero (text : Text) : splitAt? text 0 = some ([], text) := by
  cases text <;> rfl

theorem splitAt?_eq_some_iff {text before after : Text} {offset : Nat} :
    splitAt? text offset = some (before, after) ↔
      text = before ++ after ∧ size before = offset := by
  induction text generalizing offset before with
  | nil =>
      cases offset with
      | zero =>
          simp only [splitAt?_zero, Option.some.injEq, Prod.mk.injEq]
          constructor
          · rintro ⟨rfl, rfl⟩
            simp
          · rintro ⟨parts, empty⟩
            have := List.append_eq_nil_iff.mp parts.symm
            exact ⟨this.1.symm, this.2.symm⟩
      | succ offset =>
          simp only [splitAt?, reduceCtorEq, false_iff]
          rintro ⟨parts, sized⟩
          rw [(List.append_eq_nil_iff.mp parts.symm).1] at sized
          simp at sized
  | cons character rest ih =>
      have positive := character.utf8Size_pos
      cases offset with
      | zero =>
          simp only [splitAt?_zero, Option.some.injEq, Prod.mk.injEq]
          constructor
          · rintro ⟨rfl, rfl⟩
            simp
          · rintro ⟨parts, empty⟩
            cases before with
            | nil => exact ⟨rfl, by simpa using parts⟩
            | cons head tail =>
                have := head.utf8Size_pos
                simp only [size_cons] at empty
                omega
      | succ offset =>
          simp only [splitAt?]
          split
          · next fits =>
              simp only [Option.map_eq_some_iff, Prod.exists, Prod.mk.injEq]
              constructor
              · rintro ⟨front, back, found, rfl, rfl⟩
                obtain ⟨rfl, sized⟩ := ih.mp found
                simp only [List.cons_append, size_cons, true_and]
                omega
              · rintro ⟨parts, sized⟩
                cases before with
                | nil => simp at sized
                | cons head tail =>
                    simp only [List.cons_append, List.cons.injEq] at parts
                    obtain ⟨rfl, rfl⟩ := parts
                    simp only [size_cons] at sized
                    exact ⟨tail, after, ih.mpr ⟨rfl, by omega⟩, rfl, rfl⟩
          · next long =>
              simp only [reduceCtorEq, false_iff]
              rintro ⟨parts, sized⟩
              cases before with
              | nil => simp at sized
              | cons head tail =>
                  simp only [List.cons_append, List.cons.injEq] at parts
                  obtain ⟨rfl, rfl⟩ := parts
                  simp only [size_cons] at sized
                  omega

end Text

/-- A range of bytes, from `start` up to and without `stop`. -/
structure Span where
  start : Nat
  stop : Nat
  deriving DecidableEq

namespace Span

def Within (inner outer : Span) : Prop :=
  outer.start ≤ inner.start ∧ inner.stop ≤ outer.stop

instance (inner outer : Span) : Decidable (inner.Within outer) :=
  inferInstanceAs (Decidable (_ ∧ _))

end Span

namespace Text

structure Cut where
  before : Text
  inside : Text
  after : Text
  deriving DecidableEq

/-- The parts that a span makes of a text, if both its ends fall between
characters and in order. -/
def cut? (text : Text) (span : Span) : Option Cut :=
  if span.start ≤ span.stop then
    (text.splitAt? span.start).bind fun (before, rest) =>
      (splitAt? rest (span.stop - span.start)).map fun (inside, after) =>
        { before, inside, after }
  else
    none

theorem cut?_eq_some_iff {text : Text} {span : Span} {cut : Cut} :
    cut? text span = some cut ↔
      text = cut.before ++ cut.inside ++ cut.after ∧
        span.start = size cut.before ∧
        span.stop = size cut.before + size cut.inside := by
  obtain ⟨before, inside, after⟩ := cut
  simp only [cut?]
  split
  · next ordered =>
      simp only [Option.bind_eq_some_iff, Option.map_eq_some_iff, Prod.exists,
        splitAt?_eq_some_iff, Cut.mk.injEq]
      constructor
      · rintro ⟨front, rest, ⟨rfl, frontSize⟩, middle, back, ⟨rfl, middleSize⟩,
          rfl, rfl, rfl⟩
        exact ⟨by simp, frontSize.symm, by omega⟩
      · rintro ⟨rfl, startEq, stopEq⟩
        exact ⟨before, inside ++ after, ⟨by simp, startEq.symm⟩, inside, after,
          ⟨rfl, by omega⟩, rfl, rfl, rfl⟩
  · next disordered =>
      simp only [reduceCtorEq, false_iff]
      rintro ⟨-, startEq, stopEq⟩
      omega

end Text
end TapeDialects
