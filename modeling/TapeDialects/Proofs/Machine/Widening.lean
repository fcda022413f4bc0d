/-
Strict settings and wider ones.

Settings are strict if every bound of tape and cells is an error.  Wider ones have
a longer tape, cells of a larger range, or let the bounds wrap.  A step under
strict settings that meets no bound is the same step under wider ones: it leads to
the same cursor, pointer and console, and the longer tape has zeros behind the
cells of the shorter one.
-/

import TapeDialects.Machine.Run
import TapeDialects.Proofs.Machine.Change
import TapeDialects.Proofs.Machine.Sound

namespace TapeDialects

def ExecutionError.isBound : ExecutionError → Bool
  | pointerTooHigh _ _ | pointerTooLow | valueTooHigh _ _ | valueTooLow _ _ => true
  | outOfUnicodeRange _ | unmatchedLoopClose | noPreviousCommand => false

def Fault.isBound : Fault → Bool
  | execution error => error.isBound
  | stream _ | offProgram => false

namespace Outcome

variable {Error State Next : Type} {bad : Error → Bool} {outcome : Outcome Error State}

/-- The outcome is a success, or an error that is none of the bad ones. -/
def Avoids (bad : Error → Bool) : Outcome Error State → Prop
  | .done _ => True
  | .failed error _ => bad error = false

theorem Avoids.of_map {convert : State → Next}
    (avoids : (outcome.map convert).Avoids bad) : outcome.Avoids bad := by
  cases outcome with
  | done state => trivial
  | failed error state => exact avoids

end Outcome

namespace Settings

/-- Every bound of the first settings is an error, and lies within the second ones. -/
structure StrictIn (settings wider : Settings) : Prop where
  unlooped : settings.looped = false
  unwrapped : settings.wrapping = false
  tapeLength_le : settings.tapeLength ≤ wider.tapeLength
  variants_le : settings.variants ≤ wider.variants
  signed : settings.signed = true → wider.signed = true

namespace StrictIn

variable {settings wider : Settings}

theorem maximum_le (strict : settings.StrictIn wider) :
    settings.maximum ≤ wider.maximum := by
  have ordered := strict.variants_le
  unfold maximum
  omega

theorem minimum_le (strict : settings.StrictIn wider) :
    wider.minimum ≤ settings.minimum := by
  by_cases signed : settings.signed
  · have ordered := strict.variants_le
    unfold minimum
    rw [if_pos signed, if_pos (strict.signed signed)]
    omega
  · have zero : settings.minimum = 0 := if_neg signed
    rw [zero]
    exact wider.minimum_nonpos

theorem clampHigh_cases (strict : settings.StrictIn wider) (value : Int) :
    (∃ error, settings.clampHigh value = .error error ∧ error.isBound = true) ∨
      (settings.clampHigh value = .ok value ∧ wider.clampHigh value = .ok value) := by
  have ordered := strict.maximum_le
  unfold clampHigh
  by_cases fits : value ≤ settings.maximum
  · rw [if_pos fits, if_pos (Int.le_trans fits ordered)]
    exact Or.inr ⟨rfl, rfl⟩
  · rw [if_neg fits, strict.unwrapped]
    exact Or.inl ⟨_, rfl, rfl⟩

theorem clampLow_cases (strict : settings.StrictIn wider) (value : Int) :
    (∃ error, settings.clampLow value = .error error ∧ error.isBound = true) ∨
      (settings.clampLow value = .ok value ∧ wider.clampLow value = .ok value) := by
  have ordered := strict.minimum_le
  unfold clampLow
  by_cases fits : settings.minimum ≤ value
  · rw [if_pos fits, if_pos (Int.le_trans ordered fits)]
    exact Or.inr ⟨rfl, rfl⟩
  · rw [if_neg fits, strict.unwrapped]
    exact Or.inl ⟨_, rfl, rfl⟩

end StrictIn
end Settings

namespace Tape

variable {settings wider : Settings} {tape : Tape}

def extended (zeros : Nat) (tape : Tape) : Tape :=
  { tape with cells := tape.cells ++ Array.replicate zeros 0 }

theorem blank_extended (length zeros : Nat) :
    (blank length).extended zeros = blank (length + zeros) := by
  unfold extended blank
  rw [Array.replicate_append_replicate]

theorem current_extended (zeros : Nat) (tape : Tape) :
    (tape.extended zeros).current = tape.current := by
  unfold current extended
  simp only [Array.getD_eq_getD_getElem?, Array.getElem?_append]
  split
  · rfl
  · next beyond =>
      rw [Array.getElem?_eq_none (Nat.le_of_not_lt beyond), Array.getElem?_replicate]
      split <;> rfl

theorem write_extended (inside : tape.pointer < tape.cells.size) (zeros : Nat)
    (value : Int) : (tape.extended zeros).write value = (tape.write value).extended zeros := by
  unfold write extended
  simp only [Array.setIfInBounds_append_left inside]

theorem character?_extended (zeros : Nat) (tape : Tape) :
    (tape.extended zeros).character? = tape.character? := by
  unfold character?
  rw [current_extended]

theorem moveRight_extended (strict : settings.StrictIn wider) (zeros : Nat)
    (avoids : (tape.moveRight settings).Avoids ExecutionError.isBound) :
    (tape.extended zeros).moveRight wider =
      (tape.moveRight settings).map (extended zeros) := by
  unfold moveRight at avoids ⊢
  by_cases within : tape.pointer + 1 < settings.tapeLength
  · have widerWithin : (tape.extended zeros).pointer + 1 < wider.tapeLength :=
      Nat.lt_of_lt_of_le within strict.tapeLength_le
    rw [if_pos within, if_pos widerWithin]
    rfl
  · rw [if_neg within, strict.unlooped] at avoids
    cases avoids

theorem moveLeft_extended (strict : settings.StrictIn wider) (zeros : Nat)
    (avoids : (tape.moveLeft settings).Avoids ExecutionError.isBound) :
    (tape.extended zeros).moveLeft wider =
      (tape.moveLeft settings).map (extended zeros) := by
  unfold moveLeft at avoids ⊢
  by_cases within : 0 < tape.pointer
  · have widerWithin : 0 < (tape.extended zeros).pointer := within
    rw [if_pos within, if_pos widerWithin]
    rfl
  · rw [if_neg within, strict.unlooped] at avoids
    cases avoids

theorem store_extended (inside : tape.pointer < tape.cells.size) (zeros : Nat)
    {clamped widerClamped : Except ExecutionError Int} {value : Int}
    (fits : (∃ error, clamped = .error error ∧ error.isBound = true) ∨
      (clamped = .ok value ∧ widerClamped = .ok value))
    (avoids : (tape.store clamped).Avoids ExecutionError.isBound) :
    (tape.extended zeros).store widerClamped = (tape.store clamped).map (extended zeros) := by
  rcases fits with ⟨error, failed, bound⟩ | ⟨stored, widerStored⟩
  · rw [failed] at avoids
    have unbound : error.isBound = false := avoids
    rw [bound] at unbound
    cases unbound
  · rw [stored, widerStored, store, store, write_extended inside]
    rfl

theorem increment_extended (strict : settings.StrictIn wider)
    (inside : tape.pointer < tape.cells.size) (zeros : Nat)
    (avoids : (tape.increment settings).Avoids ExecutionError.isBound) :
    (tape.extended zeros).increment wider =
      (tape.increment settings).map (extended zeros) := by
  unfold increment at avoids ⊢
  rw [current_extended]
  exact store_extended inside zeros (strict.clampHigh_cases _) avoids

theorem decrement_extended (strict : settings.StrictIn wider)
    (inside : tape.pointer < tape.cells.size) (zeros : Nat)
    (avoids : (tape.decrement settings).Avoids ExecutionError.isBound) :
    (tape.extended zeros).decrement wider =
      (tape.decrement settings).map (extended zeros) := by
  unfold decrement at avoids ⊢
  rw [current_extended]
  exact store_extended inside zeros (strict.clampLow_cases _) avoids

end Tape

namespace State

variable {settings wider : Settings} {state : State}

def extended (zeros : Nat) (state : State) : State :=
  { state with tape := state.tape.extended zeros }

theorem onTape_avoids {act : Tape → Outcome ExecutionError Tape}
    (avoids : (state.onTape act).Avoids Fault.isBound) :
    (act state.tape).Avoids ExecutionError.isBound := by
  cases state with
  | mk tape console =>
      unfold onTape at avoids
      simp only at avoids ⊢
      have converted := avoids.of_map
      cases acted : act tape with
      | done later => trivial
      | failed error later =>
          rw [acted] at converted
          exact converted

theorem onTape_extended {zeros : Nat} {act widerAct : Tape → Outcome ExecutionError Tape}
    (same : (act state.tape).Avoids ExecutionError.isBound →
      widerAct (state.tape.extended zeros) = (act state.tape).map (Tape.extended zeros))
    (avoids : (state.onTape act).Avoids Fault.isBound) :
    (state.extended zeros).onTape widerAct = (state.onTape act).map (extended zeros) := by
  have acted := same (onTape_avoids avoids)
  cases state with
  | mk tape console =>
      unfold onTape extended
      simp only at acted ⊢
      rw [acted]
      cases act tape <;> rfl

theorem onConsole_extended (zeros : Nat) (act : Console → Outcome StreamError Console)
    (state : State) :
    (state.extended zeros).onConsole act = (state.onConsole act).map (extended zeros) := by
  cases state with
  | mk tape console =>
      unfold onConsole extended
      simp only
      cases act console <;> rfl

theorem output_extended (zeros : Nat) (state : State) :
    (state.extended zeros).output = state.output.map (extended zeros) := by
  have shown : (state.extended zeros).tape.character? = state.tape.character? :=
    state.tape.character?_extended zeros
  have current : (state.extended zeros).tape.current = state.tape.current :=
    state.tape.current_extended zeros
  unfold output
  rw [shown, current]
  cases state.tape.character? with
  | none => rfl
  | some character => exact onConsole_extended zeros _ state

theorem readCell_extended (strict : settings.StrictIn wider) (zeros : Nat)
    (inside : state.tape.pointer < state.tape.cells.size)
    (avoids : (state.readCell settings).Avoids Fault.isBound) :
    (state.extended zeros).readCell wider =
      (state.readCell settings).map (extended zeros) := by
  cases state with
  | mk tape console =>
      unfold readCell extended at *
      simp only at avoids ⊢
      cases taken : console.readLine with
      | mk line later =>
          rw [taken] at avoids
          cases line with
          | error error => rfl
          | ok line =>
              have stored := Tape.store_extended inside zeros
                (strict.clampHigh_cases line.inputCharacter.toNat)
              exact onTape_extended stored avoids

theorem input_extended (strict : settings.StrictIn wider) (zeros : Nat)
    (inside : state.tape.pointer < state.tape.cells.size)
    (avoids : (state.input settings).Avoids Fault.isBound) :
    (state.extended zeros).input wider = (state.input settings).map (extended zeros) := by
  have kept := tape_after_onConsole Console.flush state
  unfold input at avoids ⊢
  rw [onConsole_extended]
  cases flushed : state.onConsole Console.flush with
  | done later =>
      rw [flushed] at avoids kept
      rw [Outcome.after_done] at kept
      rw [← kept] at inside
      exact readCell_extended strict zeros inside avoids
  | failed fault later => rfl

theorem perform_extended (strict : settings.StrictIn wider) (zeros : Nat)
    (inside : state.tape.pointer < state.tape.cells.size) {command : Command}
    (avoids : (state.perform settings command).Avoids Fault.isBound) :
    (state.extended zeros).perform wider command =
      (state.perform settings command).map (extended zeros) := by
  cases command with
  | right => exact onTape_extended (Tape.moveRight_extended strict zeros) avoids
  | left => exact onTape_extended (Tape.moveLeft_extended strict zeros) avoids
  | increment => exact onTape_extended (Tape.increment_extended strict inside zeros) avoids
  | decrement => exact onTape_extended (Tape.decrement_extended strict inside zeros) avoids
  | output => exact output_extended zeros state
  | input => exact input_extended strict zeros inside avoids
  | giveFishfood => exact onConsole_extended zeros _ state
  | giveBanana => exact onConsole_extended zeros _ state
  | start => rfl
  | stop => rfl
  | loopOpen => rfl
  | loopClose => rfl
  | again => rfl

end State

namespace Machine

variable {settings wider : Settings} {program : Program} {machine later : Machine}

def extended (zeros : Nat) (machine : Machine) : Machine :=
  { machine with state := machine.state.extended zeros }

theorem initial_extended (strict : settings.StrictIn wider) (source : Source)
    (sink : Sink) :
    (initial settings source sink).extended (wider.tapeLength - settings.tapeLength) =
      initial wider source sink := by
  have length : settings.tapeLength + (wider.tapeLength - settings.tapeLength) =
      wider.tapeLength := Nat.add_sub_cancel' strict.tapeLength_le
  unfold initial extended State.extended
  simp only [Tape.blank_extended, length]

theorem perform_avoids {command : Command}
    (effect : program.effective machine.cursor = .ok command)
    (avoids : (machine.step settings program).Avoids Fault.isBound) :
    (machine.state.perform settings command).Avoids Fault.isBound := by
  cases performed : machine.state.perform settings command with
  | done state => trivial
  | failed fault state =>
      have plain := Command.isPlain_of_perform_failed performed
      rw [step_failed_of_plain effect plain performed] at avoids
      exact avoids

theorem step_extended (strict : settings.StrictIn wider) (zeros : Nat)
    (inside : machine.state.tape.pointer < machine.state.tape.cells.size)
    (avoids : (machine.step settings program).Avoids Fault.isBound) :
    (machine.extended zeros).step wider program =
      (machine.step settings program).map (extended zeros) := by
  cases effect : program.effective machine.cursor with
  | error fault =>
      have widerEffect : program.effective (machine.extended zeros).cursor = .error fault :=
        effect
      rw [step_of_error effect, step_of_error widerEffect]
      rfl
  | ok command =>
      have current : (machine.state.extended zeros).tape.current = machine.state.tape.current :=
        machine.state.tape.current_extended zeros
      exact step_changed effect current
        (State.perform_extended strict zeros inside (perform_avoids effect avoids))

theorem onConsole_extended (zeros : Nat) (act : Console → Outcome StreamError Console)
    (machine : Machine) :
    (machine.extended zeros).onConsole act = (machine.onConsole act).map (extended zeros) := by
  cases machine with
  | mk state cursor running =>
      cases state with
      | mk tape console =>
          unfold onConsole extended State.extended
          simp only
          cases act console <;> rfl

theorem finish_extended (zeros : Nat) (machine : Machine) :
    (machine.extended zeros).finish = machine.finish.map id (extended zeros) := by
  unfold finish
  rw [onConsole_extended]
  cases machine.onConsole Console.flush <;> rfl

theorem report_extended (zeros : Nat) (program : Program) (error : ExecutionError)
    (machine : Machine) :
    (machine.extended zeros).report program error =
      (machine.report program error).map id (extended zeros) := by
  have stopped : ({ machine.extended zeros with running := false } : Machine) =
      extended zeros { machine with running := false } := rfl
  unfold report
  simp only
  rw [stopped, onConsole_extended]
  cases onConsole (fun console => console.breakLine.bind Console.flush)
      { machine with running := false } with
  | failed streamError later => rfl
  | done later =>
      have placed : (later.extended zeros).diagnostic? program error =
          later.diagnostic? program error := rfl
      simp only [Outcome.map_done, placed]
      cases later.diagnostic? program error <;> rfl

end Machine
end TapeDialects
