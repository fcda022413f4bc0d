/-
Blocks: programs in which every loop has its body as a part of its own.

A block is a list of items, each an action on tape and console or a loop around
another block.  Evaluating a block needs no cursor: where it stands is told by
the derivation.  A loop evaluates its body as long as the current cell is not
zero at its head, and the first execution error ends the evaluation, with the
place of the failing item among the commands of the block.

An evaluation that never ends has no verdict.  Nothing here knows of brackets
that have to be found.
-/

import TapeDialects.Machine.State

namespace TapeDialects

inductive Action where
  | right
  | left
  | increment
  | decrement
  | output
  | input
  | giveFishfood
  | giveBanana
  deriving DecidableEq

def Action.command : Action → Command
  | right => .right
  | left => .left
  | increment => .increment
  | decrement => .decrement
  | output => .output
  | input => .input
  | giveFishfood => .giveFishfood
  | giveBanana => .giveBanana

inductive Block where
  | done
  | act (action : Action) (rest : Block)
  | loop (body rest : Block)
  deriving DecidableEq

def Block.commands : Block → List Command
  | done => []
  | act action rest => action.command :: rest.commands
  | loop body rest => .loopOpen :: body.commands ++ .loopClose :: rest.commands

def Block.length (block : Block) : Nat :=
  block.commands.length

inductive Verdict where
  | completed (state : State)
  /-- An error of the command at a place, and the state that it has left. -/
  | failed (error : ExecutionError) (place : Nat) (state : State)

namespace Verdict

def state : Verdict → State
  | completed state => state
  | failed _ _ state => state

def behind (count : Nat) : Verdict → Verdict
  | completed state => completed state
  | failed error place state => failed error (place + count) state

@[simp] theorem state_behind (count : Nat) (verdict : Verdict) :
    (verdict.behind count).state = verdict.state := by
  cases verdict <;> rfl

end Verdict

inductive Evaluates (settings : Settings) : Block → State → Verdict → Prop
  | done {state : State} : Evaluates settings .done state (.completed state)
  | act {action : Action} {rest : Block} {state later : State} {verdict : Verdict}
      (performed : state.perform settings action.command = .done later)
      (continued : Evaluates settings rest later verdict) :
      Evaluates settings (.act action rest) state (verdict.behind 1)
  | actFails {action : Action} {rest : Block} {state later : State}
      {error : ExecutionError}
      (performed : state.perform settings action.command =
        .failed (.execution error) later) :
      Evaluates settings (.act action rest) state (.failed error 0 later)
  | skip {body rest : Block} {state : State} {verdict : Verdict}
      (zero : state.tape.current = 0)
      (continued : Evaluates settings rest state verdict) :
      Evaluates settings (.loop body rest) state (verdict.behind (body.length + 2))
  | turn {body rest : Block} {state later : State} {verdict : Verdict}
      (nonzero : state.tape.current ≠ 0)
      (turned : Evaluates settings body state (.completed later))
      (again : Evaluates settings (.loop body rest) later verdict) :
      Evaluates settings (.loop body rest) state verdict
  | turnFails {body rest : Block} {state later : State} {error : ExecutionError}
      {place : Nat} (nonzero : state.tape.current ≠ 0)
      (turned : Evaluates settings body state (.failed error place later)) :
      Evaluates settings (.loop body rest) state (.failed error (place + 1) later)

namespace Action

theorem command_ne_again (action : Action) : action.command ≠ .again := by
  cases action <;> decide

theorem command_unmarked (action : Action) :
    action.command ≠ .start ∧ action.command ≠ .stop := by
  cases action <;> decide

theorem command_loopless (action : Action) :
    action.command ≠ .loopOpen ∧ action.command ≠ .loopClose := by
  cases action <;> decide

end Action

namespace Block

@[simp] theorem length_done : done.length = 0 := rfl

@[simp] theorem length_act (action : Action) (rest : Block) :
    (act action rest).length = rest.length + 1 := rfl

@[simp] theorem length_loop (body rest : Block) :
    (loop body rest).length = body.length + rest.length + 2 := by
  simp only [length, commands, List.cons_append, List.length_cons, List.length_append]
  omega

theorem commands_unmarked (block : Block) :
    ∀ command ∈ block.commands, command ≠ .start ∧ command ≠ .stop := by
  induction block with
  | done =>
      intro command member
      cases member
  | act action rest ih =>
      intro command member
      rcases List.mem_cons.mp member with same | later
      · rw [same]
        exact action.command_unmarked
      · exact ih command later
  | loop body rest ihBody ihRest =>
      intro command member
      rcases List.mem_append.mp member with front | back
      · rcases List.mem_cons.mp front with same | inside
        · rw [same]
          decide
        · exact ihBody command inside
      · rcases List.mem_cons.mp back with same | later
        · rw [same]
          decide
        · exact ihRest command later

end Block

theorem Evaluates.unique {settings : Settings} {block : Block} {state : State}
    {verdict other : Verdict} (evaluates : Evaluates settings block state verdict)
    (otherwise : Evaluates settings block state other) : verdict = other := by
  induction evaluates generalizing other with
  | done =>
      cases otherwise
      rfl
  | act performed continued ih =>
      cases otherwise with
      | act performed' continued' =>
          rw [performed] at performed'
          cases performed'
          rw [ih continued']
      | actFails performed' =>
          rw [performed] at performed'
          cases performed'
  | actFails performed =>
      cases otherwise with
      | act performed' continued' =>
          rw [performed] at performed'
          cases performed'
      | actFails performed' =>
          rw [performed] at performed'
          cases performed'
          rfl
  | skip zero continued ih =>
      cases otherwise with
      | skip zero' continued' => rw [ih continued']
      | turn nonzero turned again => exact absurd zero nonzero
      | turnFails nonzero turned => exact absurd zero nonzero
  | turn nonzero turned again ihTurned ihAgain =>
      cases otherwise with
      | skip zero continued => exact absurd zero nonzero
      | turn nonzero' turned' again' =>
          cases ihTurned turned'
          exact ihAgain again'
      | turnFails nonzero' turned' =>
          have impossible := ihTurned turned'
          cases impossible
  | turnFails nonzero turned ih =>
      cases otherwise with
      | skip zero continued => exact absurd zero nonzero
      | turn nonzero' turned' again' =>
          have impossible := ih turned'
          cases impossible
      | turnFails nonzero' turned' =>
          cases ih turned'
          rfl

end TapeDialects
