/-
The values of a cell as residues.

A cell has as many values as its period.  Every number has one representative
among them, the value that differs from it by a multiple of the period, and a
number that wraps comes back as its representative.
-/

import TapeDialects.Proofs.Machine.Sound

namespace TapeDialects.Settings

variable {settings : Settings} {value other result another : Int}

def period (settings : Settings) : Int :=
  settings.maximum - settings.minimum + 1

/-- The result is the value of a cell that stands for a number. -/
structure Represents (settings : Settings) (value result : Int) : Prop where
  admitted : settings.Admits result
  congruent : result % settings.period = value % settings.period

theorem period_eq (settings : Settings) :
    settings.period = if settings.signed then settings.variants * 2 else settings.variants := by
  unfold period maximum minimum
  split <;> omega

theorem period_pos (settings : Settings) : 0 < settings.period := by
  have counted := settings.period_eq
  have atLeastTwo := settings.two_le_variants
  split at counted <;> omega

theorem wrap_emod (settings : Settings) (value : Int) :
    settings.wrap value % settings.period = value % settings.period := by
  have counted := settings.period_eq
  unfold wrap
  by_cases signed : settings.signed
  · rw [if_pos signed] at counted ⊢
    have lowest : settings.minimum = -settings.variants := if_pos signed
    have round : -settings.variants + (value - settings.variants) =
        value - settings.variants * 2 := by omega
    rw [counted, lowest, Int.add_emod_emod, round, Int.sub_emod_right]
  · rw [if_neg signed] at counted ⊢
    rw [counted, Int.emod_emod]

theorem wrap_represents (settings : Settings) (value : Int) :
    settings.Represents value (settings.wrap value) :=
  { admitted := ⟨settings.minimum_le_wrap value, settings.wrap_le_maximum value⟩
    congruent := settings.wrap_emod value }

theorem Admits.represents (admitted : settings.Admits value) :
    settings.Represents value value :=
  { admitted, congruent := rfl }

namespace Represents

theorem sub_minimum_emod (represents : settings.Represents value result) :
    (value - settings.minimum) % settings.period = result - settings.minimum := by
  obtain ⟨low, high⟩ := represents.admitted
  have inside : result - settings.minimum < settings.period := by
    unfold period
    omega
  rw [Int.sub_emod, ← represents.congruent, ← Int.sub_emod]
  exact Int.emod_eq_of_lt (Int.sub_nonneg_of_le low) inside

theorem unique (represents : settings.Represents value result)
    (otherwise : settings.Represents value another) : result = another := by
  have first := represents.sub_minimum_emod
  have second := otherwise.sub_minimum_emod
  omega

theorem congr (represents : settings.Represents value result)
    (same : value % settings.period = other % settings.period) :
    settings.Represents other result :=
  { admitted := represents.admitted
    congruent := represents.congruent.trans same }

theorem add (represents : settings.Represents value result) (amount : Int) :
    (result + amount) % settings.period = (value + amount) % settings.period := by
  rw [Int.add_emod, represents.congruent, ← Int.add_emod]

end Represents

theorem exists_clampHigh_eq (stays : settings.wrapping = true ∨ value ≤ settings.maximum)
    (low : settings.minimum ≤ value) :
    ∃ result, settings.clampHigh value = .ok result ∧ settings.Represents value result := by
  unfold clampHigh
  split
  · next high => exact ⟨value, rfl, Admits.represents ⟨low, high⟩⟩
  · next high =>
      rw [if_pos (stays.resolve_right high)]
      exact ⟨_, rfl, settings.wrap_represents value⟩

theorem exists_clampLow_eq (stays : settings.wrapping = true ∨ settings.minimum ≤ value)
    (high : value ≤ settings.maximum) :
    ∃ result, settings.clampLow value = .ok result ∧ settings.Represents value result := by
  unfold clampLow
  split
  · next low => exact ⟨value, rfl, Admits.represents ⟨low, high⟩⟩
  · next low =>
      rw [if_pos (stays.resolve_right low)]
      exact ⟨_, rfl, settings.wrap_represents value⟩

end TapeDialects.Settings
