/-
The characters with the Unicode property White_Space, as ranges of scalar
values.  Words are what stands between them.
-/

import TapeDialects.Text.Slice

namespace TapeDialects.Text

def spaceRanges : List (Nat × Nat) :=
  [(0x0009, 0x000D), (0x0020, 0x0020), (0x0085, 0x0085), (0x00A0, 0x00A0),
    (0x1680, 0x1680), (0x2000, 0x200A), (0x2028, 0x2029), (0x202F, 0x202F),
    (0x205F, 0x205F), (0x3000, 0x3000)]

def isSpace (character : Char) : Bool :=
  spaceRanges.any fun (low, high) =>
    decide (low ≤ character.toNat) && decide (character.toNat ≤ high)

theorem isSpace_iff (character : Char) :
    isSpace character = true ↔
      ∃ range ∈ spaceRanges,
        range.1 ≤ character.toNat ∧ character.toNat ≤ range.2 := by
  simp [isSpace]

end TapeDialects.Text
