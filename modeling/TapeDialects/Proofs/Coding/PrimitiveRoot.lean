/-
How often a word repeats a part of itself, told by its root.

The reader compares a word with its own first part, for eight counts and from the
largest on.  A word is some unit written so many times exactly if it is its own first
part written so many times, and then the count divides the exponent of its root, because
the unit is a power of the root too.  So the count that is found is the largest divisor
of the exponent up to eight, and a root written up to eight times is read as just that
many repetitions.
-/

import Mathlib.Order.Bounds.Basic
import TapeDialects.Proofs.Coding.Counting
import TapeDialects.Proofs.Text.Power

namespace TapeDialects.SelfRepetition

open Text (power Primitive)

variable {word root : Text} {count bound exponent : Nat}

theorem isRepeated_iff (positive : 0 < count) :
    IsRepeated count word ↔ ∃ unit, word = power unit count := by
  constructor
  · intro repeated
    exact ⟨word.take (word.length / count), repeated.2.symm⟩
  · rintro ⟨unit, rfl⟩
    have sized := Text.length_power unit count
    have begins : (power unit count).take unit.length = unit := by
      rw [← Nat.sub_add_cancel positive, Text.power_succ]
      exact List.take_left
    unfold IsRepeated
    rw [sized, Nat.mul_div_cancel_left _ positive, begins]
    exact ⟨Nat.mul_mod_right count _, rfl⟩

theorem primitive_iff :
    Primitive word ↔
      word ≠ [] ∧ ∀ count ≤ word.length, 1 < count → ¬ IsRepeated count word := by
  constructor
  · intro primitive
    refine ⟨primitive.filled, ?_⟩
    intro count _ several repeated
    obtain ⟨unit, same⟩ := (isRepeated_iff (Nat.zero_lt_of_lt several)).mp repeated
    exact Nat.ne_of_gt several (primitive.count_eq_one same)
  · rintro ⟨filled, unrepeated⟩
    refine { filled, shortest := ?_ }
    intro unit count same
    have positive := List.length_pos_iff.mpr filled
    have sized := congrArg List.length same
    rw [Text.length_power] at sized
    rcases Nat.lt_or_ge 1 count with several | few
    · have within : count ≤ word.length := by
        rw [sized]
        exact Nat.le_mul_of_pos_right count (Nat.pos_of_mul_pos_left (sized ▸ positive))
      have repeated := (isRepeated_iff (Nat.zero_lt_of_lt several)).mpr ⟨unit, same⟩
      exact absurd repeated (unrepeated count within several)
    · calc word.length
          = count * unit.length := sized
        _ ≤ 1 * unit.length := Nat.mul_le_mul_right _ few
        _ = unit.length := Nat.one_mul _

instance (word : Text) : Decidable (Primitive word) :=
  decidable_of_iff _ primitive_iff.symm

theorem repetitionsUpTo_isGreatest (word : Text) (positive : 0 < bound) :
    IsGreatest {count | (0 < count ∧ count ≤ bound) ∧ ∃ unit, word = power unit count}
      (repetitionsUpTo word bound) := by
  induction bound with
  | zero => exact absurd positive (Nat.lt_irrefl 0)
  | succ bound ih =>
      unfold repetitionsUpTo
      split
      · next repeated =>
          have unit := (isRepeated_iff positive).mp repeated
          exact ⟨⟨⟨positive, Nat.le_refl _⟩, unit⟩, fun count counted => counted.1.2⟩
      · next unrepeated =>
          have several : 0 < bound := by
            rcases Nat.eq_zero_or_pos bound with rfl | several
            · exact absurd (isRepeated_one word) unrepeated
            · exact several
          obtain ⟨⟨⟨found, within⟩, unit⟩, largest⟩ := ih several
          refine ⟨⟨⟨found, Nat.le_succ_of_le within⟩, unit⟩, ?_⟩
          rintro count ⟨⟨counted, below⟩, repeated⟩
          rcases Nat.lt_or_eq_of_le below with lower | rfl
          · exact largest ⟨⟨counted, Nat.le_of_lt_succ lower⟩, repeated⟩
          · exact absurd ((isRepeated_iff counted).mpr repeated) unrepeated

/-- A power of a root is some unit written so many times just if the number divides the
exponent. -/
theorem exists_unit_iff_dvd (primitive : Primitive root) (exponentPositive : 0 < exponent) :
    (∃ unit, power root exponent = power unit count) ↔ count ∣ exponent := by
  have filled : power root exponent ≠ [] := by
    apply List.length_pos_iff.mp
    rw [Text.length_power]
    exact Nat.mul_pos exponentPositive (List.length_pos_iff.mpr primitive.filled)
  constructor
  · rintro ⟨unit, same⟩
    obtain ⟨times, -, divided⟩ := primitive.exists_power_eq same.symm (same ▸ filled)
    exact ⟨times, divided.trans (Nat.mul_comm times count)⟩
  · rintro ⟨times, rfl⟩
    refine ⟨power root times, ?_⟩
    rw [Text.power_power, Nat.mul_comm]

theorem counts_eq_divisors (primitive : Primitive root) (filled : word ≠ [])
    (same : word = power root exponent) (bound : Nat) :
    {count | (0 < count ∧ count ≤ bound) ∧ ∃ unit, word = power unit count} =
      {count | count ∣ exponent ∧ count ≤ bound} := by
  have positive : 0 < exponent := by
    rcases Nat.eq_zero_or_pos exponent with rfl | positive
    · exact absurd same filled
    · exact positive
  rw [same]
  apply Set.ext
  intro count
  constructor
  · rintro ⟨⟨-, within⟩, repeated⟩
    exact ⟨(exists_unit_iff_dvd primitive positive).mp repeated, within⟩
  · rintro ⟨divides, within⟩
    exact ⟨⟨Nat.pos_of_dvd_of_pos divides positive, within⟩,
      (exists_unit_iff_dvd primitive positive).mpr divides⟩

theorem repetitions_isGreatest (filled : word ≠ []) :
    IsGreatest {count | (0 < count ∧ count ≤ 8) ∧ ∃ unit, word = power unit count}
      (repetitions word) := by
  unfold repetitions
  rw [if_neg filled]
  exact repetitionsUpTo_isGreatest word (Nat.zero_lt_succ 7)

theorem repetitions_isGreatest_divisor (filled : word ≠ []) (primitive : Primitive root)
    (same : word = power root exponent) :
    IsGreatest {count | count ∣ exponent ∧ count ≤ 8} (repetitions word) := by
  rw [← counts_eq_divisors primitive filled same]
  exact repetitions_isGreatest filled

theorem tokenize_word (filled : word ≠ [])
    (solid : ∀ character ∈ word, Text.isSpace character = false) :
    tokenize word = [.startingAt 0 (Command.ofCode (repetitions word)) word] := by
  have words : word.words = [{ start := 0, letters := word }] := by
    have taken : Text.wordsFrom 0 (word ++ []) = [{ start := 0, letters := word }] :=
      Text.wordsFrom_word filled solid Text.apart_nil
    rwa [List.append_nil] at taken
  unfold tokenize
  rw [words]
  rfl

structure CountedByRoot (word : Text) : Prop where
  largest : IsGreatest {count | (0 < count ∧ count ≤ 8) ∧ ∃ unit, word = power unit count}
    (repetitions word)
  rooted : ∃! root, Primitive root ∧ ∃ exponent, word = power root exponent
  divides : ∀ root exponent, Primitive root → word = power root exponent →
    IsGreatest {count | count ∣ exponent ∧ count ≤ 8} (repetitions word)
  reads : ∀ root count command, Primitive root →
    (∀ character ∈ root, Text.isSpace character = false) → command.HasCode count →
      word = power root count → tokenize word = [.startingAt 0 command word]

theorem countedByRoot_of_filled {word : Text} (filled : word ≠ []) : CountedByRoot word := by
  refine { largest := repetitions_isGreatest filled, rooted := Text.existsUnique_root filled,
           divides := fun _ _ => repetitions_isGreatest_divisor filled, reads := ?reads }
  case reads =>
      intro root count command primitive solid coded same
      have wordSolid : ∀ character ∈ word, Text.isSpace character = false := by
        intro character member
        rw [same] at member
        exact solid character (Text.mem_of_mem_power member)
      have greatest := repetitions_isGreatest_divisor filled primitive same
      have counted : IsGreatest {number | number ∣ count ∧ number ≤ 8} count :=
        ⟨⟨Nat.dvd_refl count, coded.le_length⟩, fun _ divisor => Nat.le_of_dvd coded.1 divisor.1⟩
      rw [tokenize_word filled wordSolid, greatest.unique counted, coded.ofCode_eq]

/-- Twelve has no divisor between six and eight. -/
theorem twelveTimes_countedByRoot :
    power ['a', 'b'] 12 ≠ [] ∧ Primitive ['a', 'b'] ∧
      IsGreatest {count | count ∣ 12 ∧ count ≤ 8} (repetitions (power ['a', 'b'] 12)) ∧
      repetitions (power ['a', 'b'] 12) = 6 := by
  have filled : power ['a', 'b'] 12 ≠ [] := List.cons_ne_nil _ _
  have primitive : Primitive ['a', 'b'] := by decide
  exact ⟨filled, primitive, (countedByRoot_of_filled filled).divides _ 12 primitive rfl, by decide⟩

end TapeDialects.SelfRepetition
