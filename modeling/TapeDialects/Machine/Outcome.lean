/-
Outcomes of actions that may fail.  A failed action leaves a state behind too:
what it did before it failed stays done.
-/

namespace TapeDialects

inductive Outcome (Error State : Type) where
  | done (after : State)
  | failed (error : Error) (after : State)

namespace Outcome

variable {Error Other State Next : Type}

def after : Outcome Error State → State
  | done state => state
  | failed _ state => state

def error? : Outcome Error State → Option Error
  | done _ => none
  | failed error _ => some error

def bind (outcome : Outcome Error State) (next : State → Outcome Error State) :
    Outcome Error State :=
  match outcome with
  | done state => next state
  | failed error state => failed error state

def map (convert : State → Next) : Outcome Error State → Outcome Error Next
  | done state => done (convert state)
  | failed error state => failed error (convert state)

def mapError (convert : Error → Other) : Outcome Error State → Outcome Other State
  | done state => done state
  | failed error state => failed (convert error) state

@[simp] theorem after_done (state : State) :
    (done state : Outcome Error State).after = state := rfl

@[simp] theorem after_failed (error : Error) (state : State) :
    (failed error state).after = state := rfl

@[simp] theorem bind_done (state : State) (next : State → Outcome Error State) :
    (done state).bind next = next state := rfl

@[simp] theorem bind_failed (error : Error) (state : State)
    (next : State → Outcome Error State) :
    (failed error state).bind next = failed error state := rfl

@[simp] theorem map_done (convert : State → Next) (state : State) :
    (done state : Outcome Error State).map convert = done (convert state) := rfl

@[simp] theorem map_failed (convert : State → Next) (error : Error) (state : State) :
    (failed error state).map convert = failed error (convert state) := rfl

@[simp] theorem mapError_done (convert : Error → Other) (state : State) :
    (done state).mapError convert = done state := rfl

@[simp] theorem mapError_failed (convert : Error → Other) (error : Error) (state : State) :
    (failed error state).mapError convert = failed (convert error) state := rfl

end Outcome
end TapeDialects
