/-
The UTF-8 form of a text.  Main statement: `decode?` accepts exactly the
byte strings that `encode` produces, and gives back what was encoded.
-/

import TapeDialects.Text.Slice

namespace TapeDialects.Text

def encode (text : Text) : List UInt8 :=
  text.flatMap String.utf8EncodeChar

def decode? (bytes : List UInt8) : Option Text :=
  bytes.toByteArray.utf8Decode?.map Array.toList

@[simp] theorem encode_nil : encode [] = [] := rfl

theorem encode_singleton (character : Char) :
    encode [character] = String.utf8EncodeChar character :=
  List.flatMap_singleton _ _

@[simp] theorem encode_append (front back : Text) :
    encode (front ++ back) = encode front ++ encode back := by
  simp [encode]

@[simp] theorem length_encode (text : Text) : (encode text).length = size text := by
  induction text with
  | nil => rfl
  | cons character rest ih =>
      simp only [encode, List.flatMap_cons, List.length_append,
        String.length_utf8EncodeChar, size_cons] at ih ⊢
      omega

@[simp] theorem decode?_encode (text : Text) : decode? (encode text) = some text := by
  have encoded : (encode text).toByteArray = text.utf8Encode := rfl
  simp [decode?, encoded]

theorem decode?_eq_some_iff {bytes : List UInt8} {text : Text} :
    decode? bytes = some text ↔ bytes = encode text := by
  constructor
  · intro decoded
    obtain ⟨characters, found, rfl⟩ := Option.map_eq_some_iff.mp decoded
    have isSome : bytes.toByteArray.utf8Decode?.isSome = true := by simp [found]
    have same := ByteArray.utf8Encode_get_utf8Decode? (h := isSome)
    simp only [found, Option.get_some] at same
    have sameData := congrArg ByteArray.data same
    simpa [List.utf8Encode, List.data_toByteArray, encode] using sameData.symm
  · rintro rfl
    exact decode?_encode text

end TapeDialects.Text
