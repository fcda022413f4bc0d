/-
Sessions: calls on one machine, one after the other.

A call takes one step, or runs the machine until it ends, or puts other limits on
its streams, so that a stream that has failed takes what is tried again, or a sound
one comes to fail.  Each call finds the machine as the call before has left it,
whether that one has failed or not.  A run that does not end within its fuel is the
last call of its session.

Programs of the same course, whose reports are alike, answer all calls alike and
leave the same machine behind each of them.
-/

import Mathlib.Data.List.Forall2
import TapeDialects.Machine.Run
import TapeDialects.Proofs.Loop.Course

namespace TapeDialects

/-- How far the streams go until they fail. -/
structure StreamLimits where
  capacity? : Option Nat
  flushLimit? : Option Nat
  sourceLimit? : Option Nat
  deriving DecidableEq

def Console.relimited (limits : StreamLimits) (console : Console) : Console :=
  { console with
    source := { console.source with limit? := limits.sourceLimit? }
    sink :=
      { console.sink with
        capacity? := limits.capacity?
        flushLimit? := limits.flushLimit? } }

inductive Call where
  | step
  | run (fuel : Nat)
  | relimit (limits : StreamLimits)
  deriving DecidableEq

inductive Answer where
  | stepped
  | failed (fault : Fault)
  | ended (ending : Ending)
  | relimited
  deriving DecidableEq

namespace Machine

def relimited (limits : StreamLimits) (machine : Machine) : Machine :=
  { machine with
    state := { machine.state with console := machine.state.console.relimited limits } }

/-- Make a call.  There is no answer if the fuel of a run gives out. -/
def call? (settings : Settings) (program : Program) (machine : Machine) :
    Call → Option (Answer × Machine)
  | .step =>
      match machine.step settings program with
      | .done later => some (.stepped, later)
      | .failed fault later => some (.failed fault, later)
  | .run fuel =>
      (machine.run settings program fuel).map fun (ending, later) => (.ended ending, later)
  | .relimit limits => some (.relimited, machine.relimited limits)

def session (settings : Settings) (program : Program) :
    List Call → Machine → List (Answer × Machine)
  | [], _ => []
  | call :: calls, machine =>
      match machine.call? settings program call with
      | some (answer, later) => (answer, later) :: session settings program calls later
      | none => []

end Machine

/-! ### Programs that answer alike -/

inductive Answer.Alike (alike : Ending → Ending → Prop) : Answer → Answer → Prop
  | stepped : Alike alike .stepped .stepped
  | failed (fault : Fault) : Alike alike (.failed fault) (.failed fault)
  | ended {ending other : Ending} (same : alike ending other) :
      Alike alike (.ended ending) (.ended other)
  | relimited : Alike alike .relimited .relimited

theorem Answer.eq_of_alike {answer other : Answer} (alike : Answer.Alike Eq answer other) :
    answer = other := by
  cases alike with
  | stepped => rfl
  | failed fault => rfl
  | ended same => rw [same]
  | relimited => rfl

def AlikeOnOne {Result : Type} (alike : Result → Result → Prop)
    (first second : Result × Machine) : Prop :=
  alike first.1 second.1 ∧ first.2 = second.2

structure Program.ActsLike (alike : Ending → Ending → Prop) (program other : Program) : Prop
    extends SameCourse program other where
  reports : ∀ (machine : Machine) (error : ExecutionError),
    AlikeOnOne alike (machine.report program error) (machine.report other error)

namespace Machine

variable {settings : Settings} {program other : Program}
  {alike : Ending → Ending → Prop}

theorem carryOut_eq_of_sameCourse (same : program.SameCourse other) (command : Command)
    (machine : Machine) :
    machine.carryOut settings program command = machine.carryOut settings other command := by
  unfold carryOut
  simp only [same.loopExit, same.loopEntry?]

theorem step_eq_of_sameCourse (same : program.SameCourse other) (machine : Machine) :
    machine.step settings program = machine.step settings other := by
  unfold step
  rw [same.effective]
  cases other.effective machine.cursor with
  | error fault => rfl
  | ok command =>
      simp only
      rw [carryOut_eq_of_sameCourse same]

theorem runFor_alike [Std.Refl alike] (settings : Settings)
    (acts : program.ActsLike alike other) (fuel : Nat) (machine : Machine) :
    Option.Rel (AlikeOnOne alike) (machine.runFor settings program fuel)
      (machine.runFor settings other fuel) := by
  induction fuel generalizing machine with
  | zero => exact .none
  | succ fuel ih =>
      rw [runFor, runFor]
      split
      · rw [step_eq_of_sameCourse acts.toSameCourse]
        cases machine.step settings other with
        | done later => exact ih later
        | failed fault later =>
            cases fault with
            | execution error => exact .some (acts.reports later error)
            | stream error => exact .some ⟨Std.Refl.refl _, rfl⟩
            | offProgram => exact .some ⟨Std.Refl.refl _, rfl⟩
      · exact .some ⟨Std.Refl.refl _, rfl⟩

theorem run_alike [Std.Refl alike] (settings : Settings)
    (acts : program.ActsLike alike other) (fuel : Nat) (machine : Machine) :
    Option.Rel (AlikeOnOne alike) (machine.run settings program fuel)
      (machine.run settings other fuel) := by
  unfold run
  split
  · exact runFor_alike settings acts fuel machine
  · exact .some ⟨Std.Refl.refl _, rfl⟩

theorem call?_alike [Std.Refl alike] (settings : Settings)
    (acts : program.ActsLike alike other) (call : Call) (machine : Machine) :
    Option.Rel (AlikeOnOne (Answer.Alike alike)) (machine.call? settings program call)
      (machine.call? settings other call) := by
  cases call with
  | step =>
      rw [call?, call?, step_eq_of_sameCourse acts.toSameCourse]
      cases machine.step settings other with
      | done later => exact .some ⟨.stepped, rfl⟩
      | failed fault later => exact .some ⟨.failed fault, rfl⟩
  | run fuel =>
      rw [call?, call?]
      have ran := run_alike settings acts fuel machine
      generalize machine.run settings program fuel = result at ran ⊢
      generalize machine.run settings other fuel = otherResult at ran ⊢
      cases ran with
      | none => exact .none
      | some ended => exact .some ⟨.ended ended.1, ended.2⟩
  | relimit limits => exact .some ⟨.relimited, rfl⟩

theorem session_alike [Std.Refl alike] (settings : Settings)
    (acts : program.ActsLike alike other) (calls : List Call) (machine : Machine) :
    List.Forall₂ (AlikeOnOne (Answer.Alike alike))
      (machine.session settings program calls) (machine.session settings other calls) := by
  induction calls generalizing machine with
  | nil => exact .nil
  | cons call calls ih =>
      rw [session, session]
      have called := call?_alike settings acts call machine
      generalize machine.call? settings program call = result at called ⊢
      generalize machine.call? settings other call = otherResult at called ⊢
      cases called with
      | none => exact .nil
      | @some first second answered =>
          obtain ⟨answer, later⟩ := first
          obtain ⟨otherAnswer, otherLater⟩ := second
          have same : later = otherLater := answered.2
          subst same
          exact .cons answered (ih later)

theorem session_eq_of_actsLike (settings : Settings) (acts : program.ActsLike Eq other)
    (calls : List Call) (machine : Machine) :
    machine.session settings program calls = machine.session settings other calls := by
  rw [← List.forall₂_eq_eq_eq]
  refine (session_alike settings acts calls machine).imp ?_
  intro first second answered
  exact Prod.ext (Answer.eq_of_alike answered.1) answered.2

end Machine
end TapeDialects
