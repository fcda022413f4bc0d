/-
Machines that keep up with each other.

Where a machine takes a step, its companion takes one or more, and both are side
by side again; where the machine ends, its companion ends as well.  Then one of
two runs ends if and only if the other one does, and they end alike.  From the
run of the machine that of the companion is found by induction on the fuel; the
other way round the induction is on the fuel that is left to the companion, which
every answer takes some of.
-/

import TapeDialects.Proofs.Machine.Stepping

namespace TapeDialects.Machine

/-- The companion answers a step by steps of its own, or both machines end. -/
inductive Answered (settings : Settings) (program other : Program)
    (beside : Machine → Machine → Prop)
    (alike : Ending × Machine → Ending × Machine → Prop)
    (machine companion : Machine) : Prop where
  | moves {count : Nat} {next later : Machine} (running : machine.running = true)
      (stepped : machine.step settings program = .done next)
      (reached : companion.stepped? settings other (count + 1) = some later)
      (goesOn : companion.RunningBefore settings other (count + 1))
      (there : beside next later) :
      Answered settings program other beside alike machine companion
  | ends {fuel otherFuel : Nat} {result answer : Ending × Machine}
      (ended : machine.runFor settings program fuel = some result)
      (otherEnded : companion.runFor settings other otherFuel = some answer)
      (same : alike result answer) :
      Answered settings program other beside alike machine companion

variable {settings : Settings} {program other : Program} {machine companion later : Machine}
  {fuel otherFuel count : Nat} {result answer : Ending × Machine}

theorem runFor_unique (ran : machine.runFor settings program fuel = some result)
    (again : machine.runFor settings program otherFuel = some answer) : result = answer := by
  have first := runFor_add ran otherFuel
  have second := runFor_add again fuel
  rw [Nat.add_comm, second] at first
  exact (Option.some.inj first).symm

theorem exists_runFor_of_stepped?
    (reached : machine.stepped? settings program count = some later)
    (goesOn : machine.RunningBefore settings program count)
    (ran : machine.runFor settings program fuel = some result) :
    ∃ left, fuel = count + left ∧ later.runFor settings program left = some result := by
  induction count generalizing machine fuel with
  | zero =>
      cases reached
      exact ⟨fuel, (Nat.zero_add fuel).symm, ran⟩
  | succ count ih =>
      obtain ⟨next, stepped, further⟩ := exists_done_of_stepped?_succ reached
      cases fuel with
      | zero => cases ran
      | succ fuel =>
          rw [runFor_succ_of_done goesOn.now stepped] at ran
          obtain ⟨left, rfl, ended⟩ := ih further (goesOn.behind stepped) ran
          exact ⟨left, Nat.add_right_comm count left 1, ended⟩

variable {beside : Machine → Machine → Prop}
  {alike : Ending × Machine → Ending × Machine → Prop}
  (answered : ∀ {machine companion : Machine}, beside machine companion →
    Answered settings program other beside alike machine companion)

include answered

theorem exists_answer_of_runFor (here : beside machine companion)
    (ran : machine.runFor settings program fuel = some result) :
    ∃ otherFuel answer, companion.runFor settings other otherFuel = some answer ∧
      alike result answer := by
  induction fuel generalizing machine companion with
  | zero => cases ran
  | succ fuel ih =>
      cases answered here with
      | moves running stepped reached goesOn there =>
          rw [runFor_succ_of_done running stepped] at ran
          obtain ⟨left, answer, ended, same⟩ := ih there ran
          have whole := runFor_add_of_stepped? reached goesOn left
          exact ⟨_, answer, whole.trans ended, same⟩
      | ends ended otherEnded same =>
          rw [← runFor_unique ended ran]
          exact ⟨_, _, otherEnded, same⟩

theorem exists_run_of_answer (here : beside machine companion)
    (ran : companion.runFor settings other otherFuel = some answer) :
    ∃ fuel result, machine.runFor settings program fuel = some result ∧
      alike result answer := by
  induction otherFuel using Nat.strongRecOn generalizing machine companion with
  | ind otherFuel ih =>
      cases answered here with
      | moves running stepped reached goesOn there =>
          obtain ⟨left, same, further⟩ := exists_runFor_of_stepped? reached goesOn ran
          obtain ⟨fuel, result, ended, agrees⟩ := ih left (by omega) there further
          refine ⟨fuel + 1, result, ?_, agrees⟩
          rw [runFor_succ_of_done running stepped]
          exact ended
      | ends ended otherEnded same =>
          rw [runFor_unique ran otherEnded]
          exact ⟨_, _, ended, same⟩

theorem alike_of_answered (here : beside machine companion)
    (ran : machine.runFor settings program fuel = some result)
    (otherRan : companion.runFor settings other otherFuel = some answer) :
    alike result answer := by
  obtain ⟨enough, found, ended, same⟩ := exists_answer_of_runFor answered here ran
  rw [runFor_unique otherRan ended]
  exact same

end TapeDialects.Machine
