/-
What holds of a machine wherever it can get.

The tape keeps its length, its cells keep their range and its pointer stays on
it.  The cursor stays in the program while the machine runs: only a mark of the
stop takes it behind the last instruction, and the same mark ends the run.
-/

import TapeDialects.Machine.Run
import TapeDialects.Proofs.Loop.Search
import TapeDialects.Proofs.Machine.Step

namespace TapeDialects

namespace Settings

variable {settings : Settings} {value result : Int} {error : ExecutionError}

def Admits (settings : Settings) (value : Int) : Prop :=
  settings.minimum ≤ value ∧ value ≤ settings.maximum

theorem minimum_nonpos (settings : Settings) : settings.minimum ≤ 0 := by
  have atLeastTwo := settings.two_le_variants
  unfold minimum
  split <;> omega

theorem admits_zero (settings : Settings) : settings.Admits 0 := by
  have atLeastTwo := settings.two_le_variants
  refine ⟨settings.minimum_nonpos, ?_⟩
  unfold maximum
  omega

theorem admits_of_clampHigh (low : settings.minimum ≤ value)
    (clamped : settings.clampHigh value = .ok result) : settings.Admits result := by
  unfold clampHigh at clamped
  split at clamped
  · next high =>
      cases clamped
      exact ⟨low, high⟩
  · split at clamped
    · cases clamped
      exact ⟨settings.minimum_le_wrap value, settings.wrap_le_maximum value⟩
    · cases clamped

theorem admits_of_clampLow (high : value ≤ settings.maximum)
    (clamped : settings.clampLow value = .ok result) : settings.Admits result := by
  unfold clampLow at clamped
  split at clamped
  · next low =>
      cases clamped
      exact ⟨low, high⟩
  · split at clamped
    · cases clamped
      exact ⟨settings.minimum_le_wrap value, settings.wrap_le_maximum value⟩
    · cases clamped

theorem clampHigh_eq_error_iff :
    settings.clampHigh value = .error error ↔
      (settings.wrapping = false ∧ settings.maximum < value) ∧
        error = .valueTooHigh value settings.maximum := by
  unfold clampHigh
  by_cases high : value ≤ settings.maximum
  · rw [if_pos high]
    constructor
    · nofun
    · intro cause
      exact absurd cause.1.2 (Int.not_lt.mpr high)
  · rw [if_neg high]
    cases settings.wrapping with
    | true => simp
    | false =>
        simp only [Bool.false_eq_true, if_false, Except.error.injEq]
        exact ⟨fun same => ⟨⟨trivial, Int.not_le.mp high⟩, same.symm⟩, fun cause => cause.2.symm⟩

theorem clampLow_eq_error_iff :
    settings.clampLow value = .error error ↔
      (settings.wrapping = false ∧ value < settings.minimum) ∧
        error = .valueTooLow value settings.minimum := by
  unfold clampLow
  by_cases low : settings.minimum ≤ value
  · rw [if_pos low]
    constructor
    · nofun
    · intro cause
      exact absurd cause.1.2 (Int.not_lt.mpr low)
  · rw [if_neg low]
    cases settings.wrapping with
    | true => simp
    | false =>
        simp only [Bool.false_eq_true, if_false, Except.error.injEq]
        exact ⟨fun same => ⟨⟨trivial, Int.not_le.mp low⟩, same.symm⟩, fun cause => cause.2.symm⟩

end Settings

namespace Tape

variable {settings : Settings} {tape : Tape}

structure Sound (settings : Settings) (tape : Tape) : Prop where
  length : tape.cells.size = settings.tapeLength
  admitted : ∀ value ∈ tape.cells, settings.Admits value
  pointer_lt : tape.pointer < settings.tapeLength

theorem blank_sound (settings : Settings) : (blank settings.tapeLength).Sound settings := by
  refine { length := ?length, admitted := ?admitted, pointer_lt := ?pointer }
  case length => exact Array.size_replicate
  case admitted =>
      intro value member
      rw [(Array.mem_replicate.mp member).2]
      exact settings.admits_zero
  case pointer => exact settings.tapeLength_pos

namespace Sound

theorem inside (sound : tape.Sound settings) : tape.pointer < tape.cells.size := by
  rw [sound.length]
  exact sound.pointer_lt

theorem getElem?_pointer (sound : tape.Sound settings) :
    tape.cells[tape.pointer]? = some tape.current := by
  unfold current
  rw [Array.getD_eq_getD_getElem?, Array.getElem?_eq_getElem sound.inside]
  rfl

theorem current_admitted (sound : tape.Sound settings) : settings.Admits tape.current :=
  sound.admitted _ (Array.mem_of_getElem? sound.getElem?_pointer)

theorem write (sound : tape.Sound settings) {value : Int} (fits : settings.Admits value) :
    (tape.write value).Sound settings := by
  refine { length := ?length, admitted := ?admitted, pointer_lt := sound.pointer_lt }
  case length =>
      rw [← sound.length]
      exact Array.size_setIfInBounds
  case admitted =>
      intro other member
      rcases Array.mem_or_eq_of_mem_setIfInBounds member with before | same
      · exact sound.admitted other before
      · rw [same]
        exact fits

theorem moved (sound : tape.Sound settings) {pointer : Nat}
    (within : pointer < settings.tapeLength) : Sound settings { tape with pointer } :=
  { length := sound.length
    admitted := sound.admitted
    pointer_lt := within }

theorem moveRight (sound : tape.Sound settings) :
    (tape.moveRight settings).after.Sound settings := by
  unfold Tape.moveRight
  split
  · next within => exact sound.moved within
  · split
    · exact sound.moved settings.tapeLength_pos
    · exact sound

theorem moveLeft (sound : tape.Sound settings) :
    (tape.moveLeft settings).after.Sound settings := by
  have within := sound.pointer_lt
  have positive := settings.tapeLength_pos
  unfold Tape.moveLeft
  split
  · exact sound.moved (by omega)
  · split
    · exact sound.moved (by omega)
    · exact sound

theorem store (sound : tape.Sound settings) {clamped : Except ExecutionError Int}
    (fits : ∀ value, clamped = .ok value → settings.Admits value) :
    (tape.store clamped).after.Sound settings := by
  cases clamped with
  | ok value => exact sound.write (fits value rfl)
  | error error => exact sound

theorem increment (sound : tape.Sound settings) :
    (tape.increment settings).after.Sound settings := by
  have low := sound.current_admitted.1
  apply sound.store
  intro value clamped
  exact Settings.admits_of_clampHigh (by omega) clamped

theorem decrement (sound : tape.Sound settings) :
    (tape.decrement settings).after.Sound settings := by
  have high := sound.current_admitted.2
  apply sound.store
  intro value clamped
  exact Settings.admits_of_clampLow (by omega) clamped

theorem storeCharacter (sound : tape.Sound settings) (character : Char) :
    (tape.storeCharacter settings character).after.Sound settings := by
  have low := settings.minimum_nonpos
  apply sound.store
  intro value clamped
  exact Settings.admits_of_clampHigh (by omega) clamped

end Sound
end Tape

namespace State

variable {settings : Settings} {state : State}

theorem tape_after_onTape (act : Tape → Outcome ExecutionError Tape) (state : State) :
    (state.onTape act).after.tape = (act state.tape).after := by
  cases state with
  | mk tape console =>
      unfold onTape
      simp only
      cases act tape <;> rfl

theorem tape_after_onConsole (act : Console → Outcome StreamError Console) (state : State) :
    (state.onConsole act).after.tape = state.tape := by
  cases state with
  | mk tape console =>
      unfold onConsole
      simp only
      cases act console <;> rfl

theorem tape_after_output (state : State) : state.output.after.tape = state.tape := by
  unfold output
  split
  · exact tape_after_onConsole _ state
  · rfl

theorem readCell_sound (sound : state.tape.Sound settings) :
    (state.readCell settings).after.tape.Sound settings := by
  cases state with
  | mk tape console =>
      unfold readCell
      simp only
      split
      · rw [tape_after_onTape]
        exact Tape.Sound.storeCharacter sound _
      · exact sound

theorem input_sound (sound : state.tape.Sound settings) :
    (state.input settings).after.tape.Sound settings := by
  have kept := tape_after_onConsole Console.flush state
  unfold input
  cases flushed : state.onConsole Console.flush with
  | done later =>
      rw [flushed, Outcome.after_done] at kept
      rw [Outcome.bind_done]
      apply readCell_sound
      rw [kept]
      exact sound
  | failed fault later =>
      rw [flushed, Outcome.after_failed] at kept
      rw [Outcome.bind_failed, Outcome.after_failed, kept]
      exact sound

theorem perform_sound (sound : state.tape.Sound settings) (command : Command) :
    (state.perform settings command).after.tape.Sound settings := by
  have onTape : ∀ act : Tape → Outcome ExecutionError Tape,
      (act state.tape).after.Sound settings →
        (state.onTape act).after.tape.Sound settings := by
    intro act acted
    rw [tape_after_onTape]
    exact acted
  have onConsole : ∀ act, (state.onConsole act).after.tape.Sound settings := by
    intro act
    rw [tape_after_onConsole]
    exact sound
  cases command with
  | right => exact onTape _ sound.moveRight
  | left => exact onTape _ sound.moveLeft
  | increment => exact onTape _ sound.increment
  | decrement => exact onTape _ sound.decrement
  | output =>
      rw [perform, tape_after_output]
      exact sound
  | input => exact input_sound sound
  | giveFishfood => exact onConsole _
  | giveBanana => exact onConsole _
  | start => exact sound
  | stop => exact sound
  | loopOpen => exact sound
  | loopClose => exact sound
  | again => exact sound

end State
end TapeDialects
