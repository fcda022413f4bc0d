/-
Tapes that no command can tell apart.

Of a tape, a command sees the current value, and all that it does is to move the
pointer and to write into the current cell.  So tapes that agree on the current
value, and still do after every move and write, make every command do the same to
the console.
-/

import TapeDialects.Machine.State

namespace TapeDialects

inductive Outcome.Alike {Error State : Type} (alike : State → State → Prop) :
    Outcome Error State → Outcome Error State → Prop where
  | done {state other : State} (same : alike state other) :
      Alike alike (.done state) (.done other)
  | failed {error : Error} {state other : State} (same : alike state other) :
      Alike alike (.failed error state) (.failed error other)

theorem Outcome.alike_self {Error State : Type} (outcome : Outcome Error State) :
    Alike Eq outcome outcome := by
  cases outcome with
  | done state => exact .done rfl
  | failed error state => exact .failed rfl

theorem Outcome.Alike.bind {Error State : Type} {alike : State → State → Prop}
    {outcome another : Outcome Error State} (acted : Alike alike outcome another)
    {next : State → Outcome Error State}
    (further : ∀ {state other : State}, alike state other →
      Alike alike (next state) (next other)) :
    Alike alike (outcome.bind next) (another.bind next) := by
  cases acted with
  | done same => exact further same
  | failed same => exact .failed same

namespace Tape

structure Bisimilar (settings : Settings) (alike : Tape → Tape → Prop) : Prop where
  current : ∀ {tape other : Tape}, alike tape other → other.current = tape.current
  moveRight : ∀ {tape other : Tape}, alike tape other →
    Outcome.Alike alike (tape.moveRight settings) (other.moveRight settings)
  moveLeft : ∀ {tape other : Tape}, alike tape other →
    Outcome.Alike alike (tape.moveLeft settings) (other.moveLeft settings)
  write : ∀ {tape other : Tape}, alike tape other → ∀ value : Int,
    alike (tape.write value) (other.write value)

variable {settings : Settings} {alike : Tape → Tape → Prop} {tape other : Tape}
  (bisimilar : Bisimilar settings alike)

include bisimilar

namespace Bisimilar

theorem store (same : alike tape other) (clamped : Except ExecutionError Int) :
    Outcome.Alike alike (tape.store clamped) (other.store clamped) := by
  cases clamped with
  | ok value => exact .done (bisimilar.write same value)
  | error error => exact .failed same

theorem increment (same : alike tape other) :
    Outcome.Alike alike (tape.increment settings) (other.increment settings) := by
  unfold Tape.increment
  rw [bisimilar.current same]
  exact bisimilar.store same _

theorem decrement (same : alike tape other) :
    Outcome.Alike alike (tape.decrement settings) (other.decrement settings) := by
  unfold Tape.decrement
  rw [bisimilar.current same]
  exact bisimilar.store same _

theorem storeCharacter (same : alike tape other) (character : Char) :
    Outcome.Alike alike (tape.storeCharacter settings character)
      (other.storeCharacter settings character) :=
  bisimilar.store same _

theorem character? (same : alike tape other) : other.character? = tape.character? := by
  unfold Tape.character?
  rw [bisimilar.current same]

end Bisimilar
end Tape

theorem Tape.bisimilar_eq (settings : Settings) : Tape.Bisimilar settings Eq := by
  refine { current := ?current, moveRight := ?right, moveLeft := ?left, write := ?write }
  case current =>
      rintro tape _ rfl
      rfl
  case right =>
      rintro tape _ rfl
      exact Outcome.alike_self _
  case left =>
      rintro tape _ rfl
      exact Outcome.alike_self _
  case write =>
      rintro tape _ rfl value
      rfl

namespace State

structure Beside (alike : Tape → Tape → Prop) (state other : State) : Prop where
  tape : alike state.tape other.tape
  console : other.console = state.console

variable {settings : Settings} {alike : Tape → Tape → Prop} {state other : State}

theorem Beside.onTape (beside : state.Beside alike other)
    {act : Tape → Outcome ExecutionError Tape}
    (acted : Outcome.Alike alike (act state.tape) (act other.tape)) :
    Outcome.Alike (Beside alike) (state.onTape act) (other.onTape act) := by
  cases state with
  | mk tape console =>
      cases other with
      | mk otherTape otherConsole =>
          obtain ⟨-, rfl⟩ := beside
          unfold State.onTape
          simp only at acted ⊢
          generalize act tape = outcome at acted ⊢
          generalize act otherTape = another at acted ⊢
          cases acted with
          | done same => exact .done ⟨same, rfl⟩
          | failed same => exact .failed ⟨same, rfl⟩

theorem Beside.onConsole (beside : state.Beside alike other)
    (act : Console → Outcome StreamError Console) :
    Outcome.Alike (Beside alike) (state.onConsole act) (other.onConsole act) := by
  cases state with
  | mk tape console =>
      cases other with
      | mk otherTape otherConsole =>
          obtain ⟨same, rfl⟩ := beside
          unfold State.onConsole
          simp only
          cases act otherConsole with
          | done later => exact .done ⟨same, rfl⟩
          | failed error later => exact .failed ⟨same, rfl⟩

section

variable (bisimilar : Tape.Bisimilar settings alike)

include bisimilar

theorem Beside.output (beside : state.Beside alike other) :
    Outcome.Alike (Beside alike) state.output other.output := by
  have shown := bisimilar.character? beside.tape
  have valued := bisimilar.current beside.tape
  unfold State.output
  rw [shown]
  cases state.tape.character? with
  | some character => exact beside.onConsole _
  | none =>
      simp only
      rw [valued]
      exact .failed beside

theorem Beside.readCell (beside : state.Beside alike other) :
    Outcome.Alike (Beside alike) (state.readCell settings) (other.readCell settings) := by
  cases state with
  | mk tape console =>
      cases other with
      | mk otherTape otherConsole =>
          obtain ⟨same, rfl⟩ := beside
          unfold State.readCell
          simp only at same ⊢
          rcases otherConsole.readLine with ⟨error | line, later⟩
          · exact .failed ⟨same, rfl⟩
          · have behind : Beside alike { tape, console := later }
                { tape := otherTape, console := later } := ⟨same, rfl⟩
            exact behind.onTape (bisimilar.storeCharacter same line.inputCharacter)

theorem Beside.input (beside : state.Beside alike other) :
    Outcome.Alike (Beside alike) (state.input settings) (other.input settings) :=
  (beside.onConsole Console.flush).bind fun flushed => flushed.readCell bisimilar

theorem Beside.perform (beside : state.Beside alike other) (command : Command) :
    Outcome.Alike (Beside alike) (state.perform settings command)
      (other.perform settings command) := by
  cases command with
  | right => exact beside.onTape (bisimilar.moveRight beside.tape)
  | left => exact beside.onTape (bisimilar.moveLeft beside.tape)
  | increment => exact beside.onTape (bisimilar.increment beside.tape)
  | decrement => exact beside.onTape (bisimilar.decrement beside.tape)
  | output => exact beside.output bisimilar
  | input => exact beside.input bisimilar
  | giveFishfood => exact beside.onConsole _
  | giveBanana => exact beside.onConsole _
  | start => exact .done beside
  | stop => exact .done beside
  | loopOpen => exact .done beside
  | loopClose => exact .done beside
  | again => exact .done beside

end

end State
end TapeDialects
