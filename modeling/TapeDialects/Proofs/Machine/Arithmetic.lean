/-
Accesses and sums of the commands that act on the tape.

On a sound tape none of the checks fails.  Its cells are far enough from the
ends of a word for one step up or down, and one step down from the smallest
cell of the widest range is where the wrapping only just fits.
-/

import TapeDialects.Proofs.Machine.Checked
import TapeDialects.Proofs.Machine.Sound

namespace TapeDialects

theorem word?_of_eq {value : Int} {number : Nat} (same : value = number)
    (bounded : number < UInt64.size) : word? value = some number := by
  unfold word?
  rw [if_pos (by omega), same, Int.toNat_natCast]

theorem signedWord?_of_bounds {value : Int} (low : -9223372036854775808 ≤ value)
    (high : value ≤ 9223372036854775807) : signedWord? value = some value :=
  if_pos ⟨low, high⟩

namespace Settings

variable {value : Int}

theorem variants_bounds (settings : Settings) :
    2 ≤ settings.variants ∧ settings.variants ≤ 4611686018427387903 :=
  ⟨settings.two_le_variants, settings.variants_le⟩

theorem neg_variants_le_minimum (settings : Settings) :
    -settings.variants ≤ settings.minimum := by
  have bounds := settings.variants_bounds
  unfold minimum
  split <;> omega

theorem checkedMaximum_eq (settings : Settings) :
    settings.checkedMaximum = some settings.maximum := by
  have bounds := settings.variants_bounds
  exact signedWord?_of_bounds (by omega) (by omega)

theorem checkedMinimum_eq (settings : Settings) :
    settings.checkedMinimum = some settings.minimum := by
  have bounds := settings.variants_bounds
  unfold checkedMinimum minimum
  split
  · exact signedWord?_of_bounds (by omega) (by omega)
  · rfl

theorem checkedRemainder_eq {modulus : Int} (positive : 0 < modulus) :
    checkedRemainder value modulus = some (value % modulus) :=
  if_pos positive

/-- The wrapping can go as low as the difference to the number of variants is a word. -/
theorem checkedWrap_eq (settings : Settings)
    (low : -9223372036854775808 ≤ value - settings.variants)
    (high : value ≤ 9223372036854775807) :
    settings.checkedWrap value = some (settings.wrap value) := by
  have bounds := settings.variants_bounds
  by_cases signed : settings.signed
  · have above := settings.minimum_le_wrap value
    have below := settings.wrap_le_maximum value
    have lowest := settings.neg_variants_le_minimum
    have highest : settings.maximum = settings.variants - 1 := rfl
    have shifted : signedWord? (value - settings.variants) =
        some (value - settings.variants) :=
      signedWord?_of_bounds (by omega) (by omega)
    have doubled : signedWord? (settings.variants * 2) = some (settings.variants * 2) :=
      signedWord?_of_bounds (by omega) (by omega)
    have wrapped : signedWord? (settings.wrap value) = some (settings.wrap value) :=
      signedWord?_of_bounds (by omega) (by omega)
    unfold wrap at wrapped
    rw [if_pos signed] at wrapped
    unfold checkedWrap wrap
    rw [if_pos signed, if_pos signed, settings.checkedMinimum_eq, shifted, doubled]
    simp only [Option.bind_eq_bind, Option.bind_some]
    rw [checkedRemainder_eq (by omega), Option.bind_some, wrapped]
  · unfold checkedWrap wrap
    rw [if_neg signed, if_neg signed]
    exact checkedRemainder_eq (by omega)

theorem checkedClampHigh_eq (settings : Settings)
    (low : -9223372036854775808 ≤ value - settings.variants)
    (high : value ≤ 9223372036854775807) :
    settings.checkedClampHigh value = some (settings.clampHigh value) := by
  unfold checkedClampHigh clampHigh
  rw [settings.checkedMaximum_eq]
  simp only [Option.bind_eq_bind, Option.bind_some]
  rw [settings.checkedWrap_eq low high, Option.map_some]
  split
  · rfl
  · split <;> rfl

theorem checkedClampLow_eq (settings : Settings)
    (low : -9223372036854775808 ≤ value - settings.variants)
    (high : value ≤ 9223372036854775807) :
    settings.checkedClampLow value = some (settings.clampLow value) := by
  unfold checkedClampLow clampLow
  rw [settings.checkedMinimum_eq]
  simp only [Option.bind_eq_bind, Option.bind_some]
  rw [settings.checkedWrap_eq low high, Option.map_some]
  split
  · rfl
  · split <;> rfl

end Settings

/-! ### Accesses to the tape -/

namespace Tape.Sound

variable {settings : Settings} {tape : Tape}

theorem checkedCurrent_eq (sound : tape.Sound settings) :
    tape.checkedCurrent = some tape.current :=
  sound.getElem?_pointer

theorem checkedStore_eq (sound : tape.Sound settings)
    (clamped : Except ExecutionError Int) :
    tape.checkedStore clamped = some (tape.store clamped) := by
  cases clamped with
  | ok value =>
      unfold checkedStore checkedWrite Tape.store Tape.write Array.setIfInBounds
      simp only
      rw [dif_pos sound.inside, dif_pos sound.inside]
      rfl
  | error error => rfl

theorem checkedMoveRight_eq (sound : tape.Sound settings) :
    tape.checkedMoveRight settings = some (tape.moveRight settings) := by
  have within := sound.pointer_lt
  have bounded := settings.tapeLength_lt
  have next : word? (tape.pointer + 1) = some (tape.pointer + 1) :=
    word?_of_eq (by omega) (by omega)
  have last : word? (settings.tapeLength - 1) = some (settings.tapeLength - 1) :=
    word?_of_eq (by omega) (by omega)
  unfold checkedMoveRight Tape.moveRight
  rw [next, last]
  simp only [Option.bind_eq_bind, Option.bind_some]
  split
  · rfl
  · split <;> rfl

theorem checkedMoveLeft_eq (sound : tape.Sound settings) :
    tape.checkedMoveLeft settings = some (tape.moveLeft settings) := by
  have within := sound.pointer_lt
  have bounded := settings.tapeLength_lt
  have last : word? (settings.tapeLength - 1) = some (settings.tapeLength - 1) :=
    word?_of_eq (by omega) (by omega)
  unfold checkedMoveLeft Tape.moveLeft
  split
  · next positive =>
      have previous : word? (tape.pointer - 1) = some (tape.pointer - 1) :=
        word?_of_eq (by omega) (by omega)
      rw [previous]
      rfl
  · rw [last]
    split <;> rfl

theorem checkedIncrement_eq (sound : tape.Sound settings) :
    tape.checkedIncrement settings = some (tape.increment settings) := by
  have bounds := settings.variants_bounds
  have low := sound.current_admitted.1
  have high : tape.current ≤ settings.variants - 1 := sound.current_admitted.2
  have lowest := settings.neg_variants_le_minimum
  unfold checkedIncrement Tape.increment
  rw [sound.checkedCurrent_eq]
  simp only [Option.bind_eq_bind, Option.bind_some]
  rw [signedWord?_of_bounds (by omega) (by omega), Option.bind_some,
    settings.checkedClampHigh_eq (by omega) (by omega), Option.bind_some,
    sound.checkedStore_eq]

theorem checkedDecrement_eq (sound : tape.Sound settings) :
    tape.checkedDecrement settings = some (tape.decrement settings) := by
  have bounds := settings.variants_bounds
  have low := sound.current_admitted.1
  have high : tape.current ≤ settings.variants - 1 := sound.current_admitted.2
  have lowest := settings.neg_variants_le_minimum
  unfold checkedDecrement Tape.decrement
  rw [sound.checkedCurrent_eq]
  simp only [Option.bind_eq_bind, Option.bind_some]
  rw [signedWord?_of_bounds (by omega) (by omega), Option.bind_some,
    settings.checkedClampLow_eq (by omega) (by omega), Option.bind_some,
    sound.checkedStore_eq]

theorem checkedStoreCharacter_eq (sound : tape.Sound settings) (character : Char) :
    tape.checkedStoreCharacter settings character =
      some (tape.storeCharacter settings character) := by
  have bounds := settings.variants_bounds
  have narrow : character.toNat < UInt32.size := character.val.toNat_lt_size
  have bounded : (character.toNat : Int) ≤ 9223372036854775807 := by
    have word : UInt32.size = 4294967296 := rfl
    omega
  unfold checkedStoreCharacter Tape.storeCharacter
  rw [signedWord?_of_bounds (by omega) bounded]
  simp only [Option.bind_eq_bind, Option.bind_some]
  rw [settings.checkedClampHigh_eq (by omega) bounded, Option.bind_some,
    sound.checkedStore_eq]

end Tape.Sound

namespace State

variable {settings : Settings} {state : State}

theorem checkedOnTape_eq {act : Tape → Outcome ExecutionError Tape}
    {checked : Tape → Option (Outcome ExecutionError Tape)}
    (same : checked state.tape = some (act state.tape)) :
    state.checkedOnTape checked = some (state.onTape act) := by
  unfold checkedOnTape
  rw [same]
  rfl

theorem checkedReadCell_eq (sound : state.tape.Sound settings) :
    state.checkedReadCell settings = some (state.readCell settings) := by
  cases state with
  | mk tape console =>
      unfold checkedReadCell readCell
      simp only
      cases console.readLine with
      | mk line later =>
          cases line with
          | ok line =>
              apply checkedOnTape_eq
              exact Tape.Sound.checkedStoreCharacter_eq sound line.inputCharacter
          | error error => rfl

theorem checkedInput_eq (sound : state.tape.Sound settings) :
    state.checkedInput settings = some (state.input settings) := by
  have kept := tape_after_onConsole Console.flush state
  unfold checkedInput input
  cases flushed : state.onConsole Console.flush with
  | done later =>
      rw [flushed, Outcome.after_done] at kept
      rw [← kept] at sound
      exact checkedReadCell_eq sound
  | failed fault later => rfl

theorem checkedPerform_eq (sound : state.tape.Sound settings) (command : Command) :
    state.checkedPerform settings command = some (state.perform settings command) := by
  cases command with
  | right => exact checkedOnTape_eq sound.checkedMoveRight_eq
  | left => exact checkedOnTape_eq sound.checkedMoveLeft_eq
  | increment => exact checkedOnTape_eq sound.checkedIncrement_eq
  | decrement => exact checkedOnTape_eq sound.checkedDecrement_eq
  | output =>
      rw [checkedPerform, sound.checkedCurrent_eq]
      rfl
  | input => exact checkedInput_eq sound
  | _ => rfl

end State
end TapeDialects
