/-
A machine in front of a block goes where the evaluation of the block leads.

One direction is by induction on the derivation of a verdict: wherever the
machine ends, it ends there from behind the block too, or it ends in the report
of the error.  The other direction finds the verdict of a run that ends, by
induction on its fuel.  Both use that closing a loop is the same as standing at
its head again, although the closing bracket leads past the head.
-/

import TapeDialects.Proofs.Loop.Jump
import TapeDialects.Proofs.Machine.Ending
import TapeDialects.Proofs.Structured.Placement

namespace TapeDialects

/-- The running machine with a cursor and a state. -/
def Machine.standing (cursor : Nat) (state : State) : Machine :=
  { state, cursor, running := true }

/-- Where the verdict on a block of so many commands leads that starts at an
offset: to its other end, or into a report. -/
def Verdict.Leads (settings : Settings) (program : Program) (offset length : Nat)
    (ending : Ending) (final : Machine) : Verdict → Prop
  | completed state =>
      (Machine.standing (offset + length) state).Ends settings program ending final
  | failed error place state =>
      (Machine.standing (offset + place) state).report program error = (ending, final)

variable {settings : Settings} {program : Program} {ending : Ending} {final : Machine}

theorem Verdict.leads_behind {verdict : Verdict} {offset length count whole : Nat}
    (lengths : count + length = whole) :
    (verdict.behind count).Leads settings program offset whole ending final ↔
      verdict.Leads settings program (offset + count) length ending final := by
  cases verdict with
  | completed state =>
      simp only [Leads, behind]
      rw [Nat.add_assoc, lengths]
  | failed error place state =>
      simp only [Leads, behind]
      rw [Nat.add_assoc, Nat.add_comm place count]

theorem Action.command_isPlain (action : Action) : action.command.IsPlain :=
  ⟨action.command_unmarked.2, action.command_loopless⟩

namespace Machine

variable {offset : Nat} {state : State} {body rest : Block} {action : Action}

theorem step_act (found : program.command? offset = some action.command) {later : State}
    (performed : state.perform settings action.command = .done later) :
    (standing offset state).step settings program =
      .done (standing (offset + 1) later) := by
  have effect : program.effective (standing offset state).cursor = .ok action.command :=
    Program.effective_eq_ok found action.command_ne_again
  exact step_done_of_plain effect action.command_isPlain performed

theorem step_actFails (found : program.command? offset = some action.command)
    {later : State} {fault : Fault}
    (performed : state.perform settings action.command = .failed fault later) :
    (standing offset state).step settings program =
      .failed fault (standing offset later) := by
  have effect : program.effective (standing offset state).cursor = .ok action.command :=
    Program.effective_eq_ok found action.command_ne_again
  exact step_failed_of_plain effect action.command_isPlain performed

theorem step_skip (holds : program.HoldsAt offset (Block.loop body rest).commands)
    (zero : state.tape.current = 0) :
    (standing offset state).step settings program =
      .done (standing (offset + 1 + body.length + 1) state) := by
  have opens : program.command? (standing offset state).cursor = some .loopOpen :=
    (Program.holdsAt_loop holds).1
  rw [step_loopOpen_of_zero opens zero]
  unfold standing
  simp only
  rw [(Program.jumps_of_holdsAt holds).1]

theorem step_enter (holds : program.HoldsAt offset (Block.loop body rest).commands)
    (nonzero : state.tape.current ≠ 0) :
    (standing offset state).step settings program =
      .done (standing (offset + 1) state) := by
  have opens : program.command? (standing offset state).cursor = some .loopOpen :=
    (Program.holdsAt_loop holds).1
  rw [step_loopOpen_of_ne_zero opens nonzero]
  rfl

theorem step_closing (holds : program.HoldsAt offset (Block.loop body rest).commands) :
    (standing (offset + 1 + body.length) state).step settings program =
      (standing offset state).step settings program := by
  have closes : program.command? (standing (offset + 1 + body.length) state).cursor =
      some .loopClose := (Program.holdsAt_loop holds).2.2.1
  by_cases zero : state.tape.current = 0
  · rw [step_skip holds zero, step_loopClose_of_zero closes zero]
    rfl
  · rw [step_enter holds zero,
      step_loopClose_of_some closes zero (Program.jumps_of_holdsAt holds).2]
    rfl

theorem runFor_closing (holds : program.HoldsAt offset (Block.loop body rest).commands)
    (fuel : Nat) :
    (standing (offset + 1 + body.length) state).runFor settings program fuel =
      (standing offset state).runFor settings program fuel := by
  cases fuel with
  | zero => rfl
  | succ fuel =>
      unfold runFor
      rw [step_closing holds]
      rfl

theorem ends_closing_iff (holds : program.HoldsAt offset (Block.loop body rest).commands) :
    (standing (offset + 1 + body.length) state).Ends settings program ending final ↔
      (standing offset state).Ends settings program ending final := by
  unfold Ends
  simp only [runFor_closing holds]

end Machine

/-! ### Verdicts lead runs -/

open Machine in
theorem Evaluates.ends_iff_leads {block : Block} {state : State} {verdict : Verdict}
    (evaluates : Evaluates settings block state verdict) {offset : Nat}
    (holds : program.HoldsAt offset block.commands) :
    (standing offset state).Ends settings program ending final ↔
      verdict.Leads settings program offset block.length ending final := by
  induction evaluates generalizing offset with
  | done => exact Iff.rfl
  | @act action rest state later verdict performed continued ih =>
      obtain ⟨found, restHolds⟩ := Program.holdsAt_act holds
      rw [ends_iff_of_done rfl (step_act found performed), ih restHolds]
      exact (Verdict.leads_behind (Nat.add_comm 1 rest.length)).symm
  | actFails performed =>
      obtain ⟨found, restHolds⟩ := Program.holdsAt_act holds
      exact ends_iff_of_execution rfl (step_actFails found performed)
  | @skip body rest state verdict zero continued ih =>
      obtain ⟨opens, bodyHolds, closes, restHolds⟩ := Program.holdsAt_loop holds
      have lengths : body.length + 2 + rest.length = (Block.loop body rest).length := by
        rw [Block.length_loop]
        omega
      have place : offset + 1 + body.length + 1 = offset + (body.length + 2) := by omega
      rw [ends_iff_of_done rfl (step_skip holds zero), ih restHolds,
        Verdict.leads_behind lengths, place]
  | @turn body rest state later verdict nonzero turned again ihTurned ihAgain =>
      obtain ⟨opens, bodyHolds, closes, restHolds⟩ := Program.holdsAt_loop holds
      rw [ends_iff_of_done rfl (step_enter holds nonzero), ihTurned bodyHolds]
      exact (ends_closing_iff holds).trans (ihAgain holds)
  | @turnFails body rest state later error place nonzero turned ih =>
      obtain ⟨opens, bodyHolds, closes, restHolds⟩ := Program.holdsAt_loop holds
      rw [ends_iff_of_done rfl (step_enter holds nonzero), ih bodyHolds]
      simp only [Verdict.Leads]
      rw [Nat.add_assoc, Nat.add_comm 1 place]

theorem Evaluates.faultless {block : Block} {state : State} {verdict : Verdict}
    (evaluates : Evaluates settings block state verdict) (faultless : state.Faultless) :
    verdict.state.Faultless := by
  induction evaluates with
  | done => exact faultless
  | @act action rest state later verdict performed continued ih =>
      have settles := State.perform_settles faultless settings action.command
      rw [performed] at settles
      rw [Verdict.state_behind]
      exact ih settles
  | @actFails action rest state later error performed =>
      have settles := State.perform_settles faultless settings action.command
      rw [performed] at settles
      exact settles
  | skip zero continued ih =>
      rw [Verdict.state_behind]
      exact ih faultless
  | turn nonzero turned again ihTurned ihAgain => exact ihAgain (ihTurned faultless)
  | turnFails nonzero turned ih => exact ih faultless

/-! ### Runs have verdicts -/

namespace Machine

/-- A verdict of a block whose run ends, with fuel left behind the block. -/
def HasVerdict (settings : Settings) (program : Program) (fuel : Nat)
    (result : Ending × Machine) (offset : Nat) (block : Block) (state : State) : Prop :=
  ∃ verdict, Evaluates settings block state verdict ∧
    ∀ later, verdict = .completed later → ∃ left, left ≤ fuel ∧
      (standing (offset + block.length) later).runFor settings program left = some result

variable {result : Ending × Machine} {fuel offset : Nat} {state later : State}

theorem HasVerdict.of_rest {block rest : Block} {count : Nat}
    (has : HasVerdict settings program fuel result (offset + count) rest later)
    (lengths : count + rest.length = block.length)
    (prepends : ∀ verdict, Evaluates settings rest later verdict →
      Evaluates settings block state (verdict.behind count)) :
    HasVerdict settings program (fuel + 1) result offset block state := by
  obtain ⟨verdict, evaluates, behind⟩ := has
  refine ⟨verdict.behind count, prepends verdict evaluates, ?_⟩
  intro last same
  cases verdict with
  | failed error place failed => cases same
  | completed completed =>
      cases same
      obtain ⟨left, less, ran⟩ := behind last rfl
      refine ⟨left, Nat.le_succ_of_le less, ?_⟩
      rwa [← lengths, ← Nat.add_assoc]

theorem HasVerdict.of_failed {block : Block} {error : ExecutionError} {place : Nat}
    (evaluates : Evaluates settings block state (.failed error place later)) :
    HasVerdict settings program fuel result offset block state := by
  refine ⟨_, evaluates, ?_⟩
  intro last same
  cases same

theorem HasVerdict.of_turn {body rest : Block} {left : Nat} (less : left ≤ fuel)
    (nonzero : state.tape.current ≠ 0)
    (turned : Evaluates settings body state (.completed later))
    (has : HasVerdict settings program left result offset (.loop body rest) later) :
    HasVerdict settings program (fuel + 1) result offset (.loop body rest) state := by
  obtain ⟨verdict, evaluates, behind⟩ := has
  refine ⟨verdict, .turn nonzero turned evaluates, ?_⟩
  intro last same
  obtain ⟨fewer, lesser, ran⟩ := behind last same
  exact ⟨fewer, by omega, ran⟩

theorem hasVerdict_of_runFor (fuel : Nat) :
    ∀ (block : Block) (state : State) (offset : Nat),
      program.HoldsAt offset block.commands → state.Faultless →
      (standing offset state).runFor settings program fuel = some result →
        HasVerdict settings program fuel result offset block state := by
  -- Every item takes a step, and so does every further turn of a loop.
  induction fuel using Nat.strong_induction_on with
  | _ fuel ih =>
      intro block state offset holds faultless ran
      cases fuel with
      | zero => cases ran
      | succ fuel =>
          have within := ih fuel (Nat.lt_succ_self fuel)
          cases block with
          | done =>
              refine ⟨_, .done, ?_⟩
              intro later same
              cases same
              exact ⟨fuel + 1, Nat.le_refl _, ran⟩
          | act action rest =>
              obtain ⟨found, restHolds⟩ := Program.holdsAt_act holds
              have settles := State.perform_settles faultless settings action.command
              cases performed : state.perform settings action.command with
              | done later =>
                  rw [performed] at settles
                  rw [runFor_succ_of_done rfl (step_act found performed)] at ran
                  exact (within rest later _ restHolds settles ran).of_rest
                    (Nat.add_comm 1 rest.length) fun _ => .act performed
              | failed fault later =>
                  rw [performed] at settles
                  cases fault with
                  | execution error => exact .of_failed (.actFails performed)
                  | stream error => exact settles.elim
                  | offProgram => exact settles.elim
          | loop body rest =>
              obtain ⟨opens, bodyHolds, closes, restHolds⟩ := Program.holdsAt_loop holds
              by_cases zero : state.tape.current = 0
              · rw [runFor_succ_of_done rfl (step_skip holds zero)] at ran
                have lengths : body.length + 2 + rest.length =
                    (Block.loop body rest).length := by
                  rw [Block.length_loop]
                  omega
                have place : offset + 1 + body.length + 1 =
                    offset + (body.length + 2) := by omega
                rw [place] at ran restHolds
                exact (within rest state _ restHolds faultless ran).of_rest lengths
                  fun _ => .skip zero
              · rw [runFor_succ_of_done rfl (step_enter holds zero)] at ran
                obtain ⟨turn, turned, behind⟩ :=
                  within body state _ bodyHolds faultless ran
                cases turn with
                | failed error place later => exact .of_failed (.turnFails zero turned)
                | completed later =>
                    obtain ⟨left, less, rests⟩ := behind later rfl
                    rw [runFor_closing holds] at rests
                    exact .of_turn less zero turned (ih left (Nat.lt_succ_of_le less)
                      (.loop body rest) later offset holds
                        (turned.faultless faultless) rests)

end Machine
end TapeDialects
