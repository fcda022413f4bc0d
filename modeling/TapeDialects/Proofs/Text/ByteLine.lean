/-
Bytes as lines, some of which are not the UTF-8 form of a text.

What is left if these lines are taken out is the UTF-8 form of a text, and it is
cut into the lines that have been left: the last line alone may lack its line
feed, and no line comes behind it.
-/

import TapeDialects.Proofs.Text.Line

namespace TapeDialects.Source

/-- The lines of the bytes, each with the line feed that ends it. -/
def lines : List UInt8 → List (List UInt8)
  | [] => []
  | byte :: rest =>
      if byte = lineFeed then
        [byte] :: lines rest
      else
        match lines rest with
        | [] => [[byte]]
        | line :: others => (byte :: line) :: others

def afterLine (bytes : List UInt8) : List UInt8 :=
  bytes.drop (firstLine bytes).length

def isText (line : List UInt8) : Bool :=
  (Text.decode? line).isSome

/-- The bytes without the lines that are no text. -/
def decodable (bytes : List UInt8) : List UInt8 :=
  ((lines bytes).filter isText).flatten

variable {bytes rest : List UInt8} {byte : UInt8}

theorem firstLine_cons_of_ne (inLine : byte ≠ lineFeed) :
    firstLine (byte :: rest) = byte :: firstLine rest :=
  if_neg inLine

theorem afterLine_lineFeed (rest : List UInt8) : afterLine (lineFeed :: rest) = rest := rfl

theorem afterLine_cons_of_ne (inLine : byte ≠ lineFeed) :
    afterLine (byte :: rest) = afterLine rest := by
  unfold afterLine
  rw [firstLine_cons_of_ne inLine, List.length_cons, List.drop_succ_cons]

theorem lines_eq_cons (nonempty : bytes ≠ []) :
    lines bytes = firstLine bytes :: lines (afterLine bytes) := by
  induction bytes with
  | nil => exact absurd rfl nonempty
  | cons byte rest ih =>
      rw [lines]
      by_cases lineEnds : byte = lineFeed
      · rw [lineEnds, if_pos rfl, afterLine_lineFeed]
        rfl
      · rw [if_neg lineEnds, firstLine_cons_of_ne lineEnds, afterLine_cons_of_ne lineEnds]
        cases rest with
        | nil => rfl
        | cons next rest => rw [ih (List.cons_ne_nil next rest)]

theorem flatten_lines (bytes : List UInt8) : (lines bytes).flatten = bytes := by
  induction bytes with
  | nil => rfl
  | cons byte rest ih =>
      unfold lines
      by_cases lineEnds : byte = lineFeed
      · rw [if_pos lineEnds, List.flatten_cons, ih]
        rfl
      · rw [if_neg lineEnds]
        cases cut : lines rest with
        | nil =>
            rw [cut] at ih
            rw [← ih]
            rfl
        | cons line others =>
            rw [cut] at ih
            rw [← ih]
            rfl

theorem decodable_of_text (text : isText (firstLine bytes) = true) :
    decodable bytes = firstLine bytes ++ decodable (afterLine bytes) := by
  cases bytes with
  | nil => rfl
  | cons byte rest =>
      unfold decodable
      rw [lines_eq_cons (List.cons_ne_nil byte rest), List.filter_cons_of_pos text,
        List.flatten_cons]

theorem isText_nil : isText (firstLine []) = true :=
  congrArg Option.isSome (Text.decode?_encode [])

theorem ne_nil_of_not_text (broken : isText (firstLine bytes) = false) : bytes ≠ [] := by
  intro ended
  rw [ended, isText_nil] at broken
  cases broken

theorem decodable_of_not_text (broken : isText (firstLine bytes) = false) :
    decodable bytes = decodable (afterLine bytes) := by
  unfold decodable
  rw [lines_eq_cons (ne_nil_of_not_text broken),
    List.filter_cons_of_neg (by rw [broken]; exact Bool.false_ne_true)]

theorem firstLine_append_decodable (bytes : List UInt8) :
    firstLine (firstLine bytes ++ decodable (afterLine bytes)) = firstLine bytes := by
  induction bytes with
  | nil => rfl
  | cons byte rest ih =>
      by_cases lineEnds : byte = lineFeed
      · rw [lineEnds]
        rfl
      · rw [firstLine_cons_of_ne lineEnds, afterLine_cons_of_ne lineEnds, List.cons_append,
          firstLine_cons_of_ne lineEnds, ih]

theorem firstLine_decodable (text : isText (firstLine bytes) = true) :
    firstLine (decodable bytes) = firstLine bytes := by
  rw [decodable_of_text text, firstLine_append_decodable]

theorem afterLine_decodable (text : isText (firstLine bytes) = true) :
    afterLine (decodable bytes) = decodable (afterLine bytes) := by
  unfold afterLine
  rw [firstLine_decodable text, decodable_of_text text, List.drop_left]
  rfl

theorem exists_encode_eq_decodable (bytes : List UInt8) :
    ∃ text : Text, decodable bytes = text.encode := by
  unfold decodable
  induction lines bytes with
  | nil => exact ⟨[], rfl⟩
  | cons line others ih =>
      obtain ⟨rest, encoded⟩ := ih
      cases text : isText line with
      | false =>
          rw [List.filter_cons_of_neg (by rw [text]; exact Bool.false_ne_true)]
          exact ⟨rest, encoded⟩
      | true =>
          obtain ⟨first, decoded⟩ := Option.isSome_iff_exists.mp text
          rw [List.filter_cons_of_pos text, List.flatten_cons, encoded,
            Text.decode?_eq_some_iff.mp decoded, ← Text.encode_append]
          exact ⟨first ++ rest, rfl⟩

end TapeDialects.Source
