/-
Powers of words.

A power of a unit is the unit written so many times, one behind the other.  Two words
commute if they make the same word in either order; then both are powers of one unit.
A primitive word is no power of a shorter one.  Every word that is not empty is a power
of a primitive word, its root, and any other unit of which it is a power is a power of
the root as well.  So it has only one root.
-/

import Mathlib.Logic.ExistsUnique
import TapeDialects.Text.Slice

namespace TapeDialects.Text

def power (unit : Text) (count : Nat) : Text :=
  (List.replicate count unit).flatten

variable {first second unit root word : Text} {count exponent : Nat}

theorem power_zero (unit : Text) : power unit 0 = [] := rfl

theorem power_nil (count : Nat) : power [] count = [] :=
  List.flatten_replicate_nil

theorem power_succ (unit : Text) (count : Nat) :
    power unit (count + 1) = unit ++ power unit count := by
  unfold power
  rw [List.replicate_succ, List.flatten_cons]

theorem power_one (unit : Text) : power unit 1 = unit := by
  rw [power_succ, power_zero, List.append_nil]

theorem power_add (unit : Text) (count more : Nat) :
    power unit (count + more) = power unit count ++ power unit more := by
  unfold power
  rw [← List.replicate_append_replicate, List.flatten_append]

theorem power_power (unit : Text) (count times : Nat) :
    power (power unit count) times = power unit (count * times) := by
  induction times with
  | zero => rfl
  | succ times ih => rw [power_succ, ih, Nat.mul_succ, Nat.add_comm, power_add]

theorem length_power (unit : Text) (count : Nat) :
    (power unit count).length = count * unit.length := by
  induction count with
  | zero => rw [power_zero, List.length_nil, Nat.zero_mul]
  | succ count ih => rw [power_succ, List.length_append, ih, Nat.succ_mul, Nat.add_comm]

theorem mem_of_mem_power {character : Char} (member : character ∈ power unit count) :
    character ∈ unit := by
  obtain ⟨copy, listed, inside⟩ := List.mem_flatten.mp member
  rwa [(List.mem_replicate.mp listed).2] at inside

def Commutes (first second : Text) : Prop :=
  first ++ second = second ++ first

theorem Commutes.append_left {third : Text} (ahead : Commutes first third)
    (behind : Commutes second third) : Commutes (first ++ second) third := by
  unfold Commutes at *
  rw [List.append_assoc, behind, ← List.append_assoc, ahead, List.append_assoc]

theorem Commutes.power_right (commute : Commutes first second) (count : Nat) :
    Commutes first (power second count) := by
  induction count with
  | zero => exact List.append_nil first
  | succ count ih =>
      rw [power_succ]
      exact (Commutes.append_left commute.symm ih.symm).symm

theorem commutes_power (unit : Text) (count : Nat) : Commutes unit (power unit count) :=
  Commutes.power_right rfl count

theorem Commutes.begins (commute : Commutes first second)
    (short : first.length ≤ second.length) : first <+: second := by
  have back : second <+: first ++ second := by
    rw [commute]
    exact List.prefix_append second first
  exact List.prefix_of_prefix_length_le (List.prefix_append first second) back short

theorem Commutes.trans (ahead : Commutes first word) (behind : Commutes second word)
    (filled : word ≠ []) : Commutes first second := by
  -- A power of the word that is long enough begins with both of the products.
  have long : (first ++ second).length ≤ (power word (first ++ second).length).length := by
    rw [length_power]
    exact Nat.le_mul_of_pos_right _ (List.length_pos_iff.mpr filled)
  have swapped : (first ++ second).length = (second ++ first).length := by
    rw [List.length_append, List.length_append, Nat.add_comm]
  have begun : first ++ second <+: power word (first ++ second).length :=
    ((ahead.append_left behind).power_right _).begins long
  have otherBegun : second ++ first <+: power word (first ++ second).length :=
    ((behind.append_left ahead).power_right _).begins (swapped ▸ long)
  exact (List.prefix_of_prefix_length_le begun otherBegun (Nat.le_of_eq swapped)).eq_of_length
    swapped

theorem commutes_of_powers_eq {times : Nat} (same : power first count = power second times)
    (filled : power first count ≠ []) : Commutes first second := by
  have behind := commutes_power second times
  rw [← same] at behind
  exact (commutes_power first count).trans behind filled

theorem Commutes.exists_append (commute : Commutes first second)
    (short : first.length ≤ second.length) :
    ∃ rest, second = first ++ rest ∧ Commutes first rest := by
  obtain ⟨rest, parts⟩ := commute.begins short
  refine ⟨rest, parts.symm, ?_⟩
  unfold Commutes at commute
  rw [← parts, List.append_assoc] at commute
  exact List.append_cancel_left commute

theorem Commutes.exists_unit (commute : Commutes first second) :
    ∃ unit count times, first = power unit count ∧ second = power unit times := by
  generalize bound : first.length + second.length = length
  induction length using Nat.strongRecOn generalizing first second with
  | ind length ih =>
      have taken : ∀ short long : Text, short ≠ [] → short.length ≤ long.length →
          short.length + long.length = length → Commutes short long →
            ∃ unit count times, short = power unit count ∧ long = power unit times := by
        intro short long filled ordered sized commute
        have positive := List.length_pos_iff.mpr filled
        obtain ⟨rest, parts, later⟩ := commute.exists_append ordered
        rw [parts, List.length_append] at sized
        obtain ⟨unit, count, times, ofShort, ofRest⟩ := ih _ (by omega) later rfl
        refine ⟨unit, count, count + times, ofShort, ?_⟩
        rw [power_add, ← ofShort, ← ofRest, parts]
      by_cases empty : first = []
      · exact ⟨second, 0, 1, empty, (power_one second).symm⟩
      · by_cases otherEmpty : second = []
        · exact ⟨first, 1, 0, (power_one first).symm, otherEmpty⟩
        · rcases Nat.le_total first.length second.length with short | long
          · exact taken first second empty short bound commute
          · rw [Nat.add_comm] at bound
            obtain ⟨unit, count, times, ofSecond, ofFirst⟩ :=
              taken second first otherEmpty long bound commute.symm
            exact ⟨unit, times, count, ofFirst, ofSecond⟩

/-! ### Roots -/

/-- A word that is not empty and no power of a shorter one. -/
structure Primitive (word : Text) : Prop where
  filled : word ≠ []
  shortest : ∀ unit count, word = power unit count → word.length ≤ unit.length

theorem Primitive.count_eq_one (primitive : Primitive word) (same : word = power unit count) :
    count = 1 := by
  have short := primitive.shortest unit count same
  have positive := List.length_pos_iff.mpr primitive.filled
  have sized := congrArg List.length same
  rw [length_power] at sized
  have atMost : count * unit.length ≤ 1 * unit.length := by omega
  have unitFilled : 0 < unit.length := by omega
  have single : count ≤ 1 := Nat.le_of_mul_le_mul_right atMost unitFilled
  have written : 0 < count := Nat.pos_of_mul_pos_right (sized ▸ positive)
  omega

theorem Primitive.exists_power_eq (primitive : Primitive root)
    (same : power unit count = power root exponent) (filled : power unit count ≠ []) :
    ∃ times, unit = power root times ∧ exponent = times * count := by
  obtain ⟨common, times, wholes, ofUnit, ofRoot⟩ :=
    (commutes_of_powers_eq same filled).exists_unit
  have once := primitive.count_eq_one ofRoot
  rw [once, power_one] at ofRoot
  rw [← ofRoot] at ofUnit
  refine ⟨times, ofUnit, ?_⟩
  have sized := congrArg List.length same
  rw [ofUnit, power_power, length_power, length_power] at sized
  exact (Nat.eq_of_mul_eq_mul_right (List.length_pos_iff.mpr primitive.filled) sized).symm

theorem exists_root (filled : word ≠ []) :
    ∃ root exponent, Primitive root ∧ word = power root exponent := by
  generalize bound : word.length = length
  induction length using Nat.strongRecOn generalizing word with
  | ind length ih =>
      by_cases repeats : ∃ unit count, word = power unit count ∧ unit.length < word.length
      · obtain ⟨unit, count, same, shorter⟩ := repeats
        have unitFilled : unit ≠ [] := by
          rintro rfl
          exact filled (same.trans (power_nil count))
        obtain ⟨root, exponent, primitive, ofUnit⟩ := ih _ (bound ▸ shorter) unitFilled rfl
        refine ⟨root, exponent * count, primitive, ?_⟩
        rw [same, ofUnit, power_power]
      · refine ⟨word, 1, { filled, shortest := ?_ }, (power_one word).symm⟩
        intro unit count same
        exact Nat.le_of_not_lt fun shorter => repeats ⟨unit, count, same, shorter⟩

theorem existsUnique_root (filled : word ≠ []) :
    ∃! root, Primitive root ∧ ∃ exponent, word = power root exponent := by
  obtain ⟨root, exponent, primitive, same⟩ := exists_root filled
  refine ⟨root, ⟨primitive, exponent, same⟩, ?_⟩
  rintro other ⟨otherPrimitive, count, otherSame⟩
  have powers : power other count = power root exponent := otherSame.symm.trans same
  obtain ⟨times, ofOther, -⟩ := primitive.exists_power_eq powers (otherSame ▸ filled)
  rw [ofOther, otherPrimitive.count_eq_one ofOther, power_one]

end TapeDialects.Text
