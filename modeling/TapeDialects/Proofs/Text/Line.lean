/-
The first line of a text, in characters and in bytes.

No byte of a character other than the line feed has the value of a line feed, so
the UTF-8 form of a text is cut into lines at the same places as the text.
-/

import TapeDialects.Machine.Stream

namespace TapeDialects

namespace Text

/-- The characters up to the first line feed and with it, or all if there is none. -/
def firstLine : Text → Text
  | [] => []
  | character :: rest =>
      if character = '\n' then [character] else character :: firstLine rest

def afterLine : Text → Text
  | [] => []
  | character :: rest => if character = '\n' then rest else afterLine rest

theorem firstLine_append_afterLine (text : Text) :
    firstLine text ++ afterLine text = text := by
  induction text with
  | nil => rfl
  | cons character rest ih =>
      unfold firstLine afterLine
      by_cases lineEnds : character = '\n'
      · rw [if_pos lineEnds, if_pos lineEnds]
        rfl
      · rw [if_neg lineEnds, if_neg lineEnds, List.cons_append, ih]

theorem encode_cons (character : Char) (rest : Text) :
    encode (character :: rest) = String.utf8EncodeChar character ++ encode rest := by
  unfold encode
  rw [List.flatMap_cons]

theorem lineFeed_ne_ofNat {value : Nat} (bounded : value < 256) (other : value ≠ 10) :
    lineFeed ≠ UInt8.ofNat value := by
  intro same
  have values := congrArg UInt8.toNat same
  rw [UInt8.toNat_ofNat_of_lt' bounded] at values
  exact other values.symm

theorem lineFeed_notMem_utf8EncodeChar {character : Char} (other : character ≠ '\n') :
    lineFeed ∉ String.utf8EncodeChar character := by
  have different : character.val.toNat ≠ 10 := by
    intro same
    exact other (Char.ext (UInt32.toNat_inj.mp same))
  intro member
  unfold String.utf8EncodeChar at member
  simp only at member
  split at member
  · rw [List.mem_singleton] at member
    exact lineFeed_ne_ofNat (by omega) different member
  · split at member
    · simp only [List.mem_cons, List.not_mem_nil, or_false] at member
      rcases member with first | second
      · exact lineFeed_ne_ofNat (by omega) (by omega) first
      · exact lineFeed_ne_ofNat (by omega) (by omega) second
    · split at member
      · simp only [List.mem_cons, List.not_mem_nil, or_false] at member
        rcases member with first | second | third
        · exact lineFeed_ne_ofNat (by omega) (by omega) first
        · exact lineFeed_ne_ofNat (by omega) (by omega) second
        · exact lineFeed_ne_ofNat (by omega) (by omega) third
      · simp only [List.mem_cons, List.not_mem_nil, or_false] at member
        rcases member with first | second | third | fourth
        · exact lineFeed_ne_ofNat (by omega) (by omega) first
        · exact lineFeed_ne_ofNat (by omega) (by omega) second
        · exact lineFeed_ne_ofNat (by omega) (by omega) third
        · exact lineFeed_ne_ofNat (by omega) (by omega) fourth

end Text

namespace Source

theorem firstLine_append {bytes : List UInt8} (lineless : lineFeed ∉ bytes)
    (rest : List UInt8) : firstLine (bytes ++ rest) = bytes ++ firstLine rest := by
  induction bytes with
  | nil => rfl
  | cons byte bytes ih =>
      rw [List.mem_cons, not_or] at lineless
      rw [List.cons_append, List.cons_append, ← ih lineless.2]
      exact if_neg fun same => lineless.1 same.symm

theorem firstLine_encode (text : Text) :
    firstLine (Text.encode text) = Text.encode text.firstLine := by
  induction text with
  | nil => rfl
  | cons character rest ih =>
      rw [Text.encode_cons, Text.firstLine]
      by_cases lineEnds : character = '\n'
      · subst lineEnds
        rfl
      · rw [if_neg lineEnds, firstLine_append (Text.lineFeed_notMem_utf8EncodeChar lineEnds),
          ih, Text.encode_cons]

end Source
end TapeDialects
