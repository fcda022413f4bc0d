/-
Clamping as reduction into the range of a cell.

Where values wrap, both ways to clamp give the representative of a number among
the values of a cell; otherwise they let such a value pass and refuse any other.
They may be asked for every word from which the number of variants can be taken
off.  No sum on the way leaves the words then, and every number that a machine
clamps is such a word.
-/

import TapeDialects.Proofs.Machine.Arithmetic
import TapeDialects.Proofs.Machine.Period
import TapeDialects.Proofs.Machine.Reachable

namespace TapeDialects
namespace Settings

variable {settings : Settings} {value result : Int}

/-- A value and its difference to the number of variants are signed words. -/
structure Handles (settings : Settings) (value : Int) : Prop where
  word : signedWord? value = some value
  difference : signedWord? (value - settings.variants) = some (value - settings.variants)

theorem bounds_of_signedWord? {word : Int} (fits : signedWord? value = some word) :
    -9223372036854775808 ≤ value ∧ value ≤ 9223372036854775807 := by
  unfold signedWord? at fits
  split at fits
  · assumption
  · cases fits

theorem handles_of_bounds (low : -9223372036854775808 ≤ value - settings.variants)
    (high : value ≤ 9223372036854775807) : settings.Handles value := by
  have positive := settings.two_le_variants
  exact
    { word := signedWord?_of_bounds (by omega) high
      difference := signedWord?_of_bounds low (by omega) }

theorem Handles.clamps_checked (handles : settings.Handles value) :
    settings.checkedClampHigh value = some (settings.clampHigh value) ∧
      settings.checkedClampLow value = some (settings.clampLow value) := by
  have high := (bounds_of_signedWord? handles.word).2
  have low := (bounds_of_signedWord? handles.difference).1
  exact ⟨settings.checkedClampHigh_eq low high, settings.checkedClampLow_eq low high⟩

theorem handles_of_near (settings : Settings) (low : settings.minimum - 1 ≤ value)
    (high : value ≤ settings.maximum + 1) : settings.Handles value := by
  have bounds := settings.variants_bounds
  have lowest := settings.neg_variants_le_minimum
  have highest : settings.maximum = settings.variants - 1 := rfl
  exact handles_of_bounds (by omega) (by omega)

theorem handles_character (settings : Settings) (character : Char) :
    settings.Handles character.toNat := by
  have bounds := settings.variants_bounds
  have narrow : character.toNat < 4294967296 := character.val.toNat_lt_size
  exact handles_of_bounds (by omega) (by omega)

theorem Admits.clamps_eq (admitted : settings.Admits value) :
    settings.clampHigh value = .ok value ∧ settings.clampLow value = .ok value :=
  ⟨if_pos admitted.2, if_pos admitted.1⟩

theorem represents_iff (represents : settings.Represents value result) (other : Int) :
    settings.Represents value other ↔ other = result := by
  constructor
  · intro otherwise
    exact otherwise.unique represents
  · intro same
    rw [same]
    exact represents

theorem clampHigh_maximum_add_one (strict : settings.wrapping = false) :
    settings.clampHigh (settings.maximum + 1) =
      .error (.valueTooHigh (settings.maximum + 1) settings.maximum) :=
  clampHigh_eq_error_iff.mpr ⟨⟨strict, by omega⟩, rfl⟩

theorem clampLow_minimum_sub_one (strict : settings.wrapping = false) :
    settings.clampLow (settings.minimum - 1) =
      .error (.valueTooLow (settings.minimum - 1) settings.minimum) :=
  clampLow_eq_error_iff.mpr ⟨⟨strict, by omega⟩, rfl⟩

structure ClampsCanonically (settings : Settings) : Prop where
  high : settings.wrapping = true → ∀ value, settings.minimum ≤ value →
    ∃ result, settings.clampHigh value = .ok result ∧
      ∀ other, settings.Represents value other ↔ other = result
  low : settings.wrapping = true → ∀ value, value ≤ settings.maximum →
    ∃ result, settings.clampLow value = .ok result ∧
      ∀ other, settings.Represents value other ↔ other = result
  within : ∀ value, settings.Admits value →
    settings.clampHigh value = .ok value ∧ settings.clampLow value = .ok value
  highAgain : ∀ value result, settings.minimum ≤ value →
    settings.clampHigh value = .ok result →
      settings.clampHigh result = .ok result ∧ settings.clampLow result = .ok result
  lowAgain : ∀ value result, value ≤ settings.maximum →
    settings.clampLow value = .ok result →
      settings.clampHigh result = .ok result ∧ settings.clampLow result = .ok result
  tooHigh : settings.wrapping = false → ∀ value, settings.minimum ≤ value →
    ¬ settings.Admits value →
      settings.clampHigh value = .error (.valueTooHigh value settings.maximum)
  tooLow : settings.wrapping = false → ∀ value, value ≤ settings.maximum →
    ¬ settings.Admits value →
      settings.clampLow value = .error (.valueTooLow value settings.minimum)
  checked : ∀ value, settings.Handles value →
    settings.checkedClampHigh value = some (settings.clampHigh value) ∧
      settings.checkedClampLow value = some (settings.clampLow value)
  near : ∀ value, settings.minimum - 1 ≤ value → value ≤ settings.maximum + 1 →
    settings.Handles value
  character : ∀ character : Char,
    settings.minimum ≤ character.toNat ∧ settings.Handles character.toNat
  cells : ∀ program machine, Machine.Reachable settings program machine →
    settings.minimum ≤ machine.state.tape.current + 1 ∧
      settings.Handles (machine.state.tape.current + 1) ∧
      machine.state.tape.current - 1 ≤ settings.maximum ∧
      settings.Handles (machine.state.tape.current - 1)

theorem clampsCanonically (settings : Settings) : settings.ClampsCanonically := by
  refine { high := ?high, low := ?low, within := ?within, highAgain := ?highAgain,
           lowAgain := ?lowAgain, tooHigh := ?tooHigh, tooLow := ?tooLow, checked := ?checked,
           near := ?near, character := ?character, cells := ?cells }
  case high =>
      intro wrapping value low
      obtain ⟨result, clamped, represents⟩ := exists_clampHigh_eq (Or.inl wrapping) low
      exact ⟨result, clamped, represents_iff represents⟩
  case low =>
      intro wrapping value high
      obtain ⟨result, clamped, represents⟩ := exists_clampLow_eq (Or.inl wrapping) high
      exact ⟨result, clamped, represents_iff represents⟩
  case within =>
      intro value admitted
      exact admitted.clamps_eq
  case highAgain =>
      intro value result low clamped
      exact (admits_of_clampHigh low clamped).clamps_eq
  case lowAgain =>
      intro value result high clamped
      exact (admits_of_clampLow high clamped).clamps_eq
  case tooHigh =>
      intro strict value low outside
      have above : settings.maximum < value :=
        Int.not_le.mp (fun high => outside ⟨low, high⟩)
      exact clampHigh_eq_error_iff.mpr ⟨⟨strict, above⟩, rfl⟩
  case tooLow =>
      intro strict value high outside
      have below : value < settings.minimum :=
        Int.not_le.mp (fun low => outside ⟨low, high⟩)
      exact clampLow_eq_error_iff.mpr ⟨⟨strict, below⟩, rfl⟩
  case checked =>
      intro value handles
      exact handles.clamps_checked
  case near =>
      intro value low high
      exact settings.handles_of_near low high
  case character =>
      intro character
      have lowest := settings.minimum_nonpos
      exact ⟨by omega, settings.handles_character character⟩
  case cells =>
      intro program machine reached
      obtain ⟨low, high⟩ := reached.sound.tape.current_admitted
      exact ⟨by omega, settings.handles_of_near (by omega) (by omega), by omega,
        settings.handles_of_near (by omega) (by omega)⟩

end Settings
end TapeDialects
