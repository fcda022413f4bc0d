/-
Straight stretches of a program.

Commands that act on the tape alone and stand side by side are carried out one
after the other, in as many steps.  On a looped tape, moves are sums of the
pointer, taken round the tape.
-/

import TapeDialects.Proofs.Machine.Stepping
import TapeDialects.Proofs.Structured.Placement

namespace TapeDialects

namespace Tape

inductive Walks (settings : Settings) : List Command → Tape → Tape → Prop where
  | done {tape : Tape} : Walks settings [] tape tape
  | act {command : Command} {rest : List Command} {tape next later : Tape}
      (plain : command.IsPlain) (direct : command ≠ .again)
      (acts : ∀ console, State.perform settings command { tape, console } =
        .done { tape := next, console })
      (walks : Walks settings rest next later) :
      Walks settings (command :: rest) tape later

variable {settings : Settings} {tape : Tape}

theorem moveRight_eq (stays : settings.looped = true ∨ tape.pointer + 1 < settings.tapeLength)
    (inside : tape.pointer < settings.tapeLength) :
    tape.moveRight settings =
      .done { tape with pointer := (tape.pointer + 1) % settings.tapeLength } := by
  unfold moveRight
  by_cases within : tape.pointer + 1 < settings.tapeLength
  · rw [if_pos within, Nat.mod_eq_of_lt within]
  · have last : tape.pointer + 1 = settings.tapeLength := by omega
    rw [if_neg within, if_pos (stays.resolve_right within), last, Nat.mod_self]

theorem moveLeft_eq (stays : settings.looped = true ∨ 0 < tape.pointer)
    (inside : tape.pointer < settings.tapeLength) :
    tape.moveLeft settings =
      .done { tape with
        pointer := (tape.pointer + (settings.tapeLength - 1)) % settings.tapeLength } := by
  unfold moveLeft
  by_cases behind : 0 < tape.pointer
  · have round : tape.pointer + (settings.tapeLength - 1) =
        tape.pointer - 1 + settings.tapeLength := by omega
    rw [if_pos behind, round, Nat.add_mod_right, Nat.mod_eq_of_lt (by omega)]
  · have first : tape.pointer = 0 := Nat.eq_zero_of_not_pos behind
    rw [if_neg behind, if_pos (stays.resolve_right behind), first, Nat.zero_add,
      Nat.mod_eq_of_lt (Nat.sub_lt (Nat.zero_lt_of_lt inside) Nat.one_pos)]

end Tape

theorem State.onTape_of_done {act : Tape → Outcome ExecutionError Tape} {tape next : Tape}
    (acted : act tape = .done next) (console : Console) :
    State.onTape act { tape, console } = .done { tape := next, console } := by
  unfold State.onTape
  simp only
  rw [acted]
  rfl

theorem State.onTape_of_failed {act : Tape → Outcome ExecutionError Tape} {tape next : Tape}
    {error : ExecutionError} (acted : act tape = .failed error next) (console : Console) :
    State.onTape act { tape, console } = .failed (.execution error) { tape := next, console } := by
  unfold State.onTape
  simp only
  rw [acted]
  rfl

theorem Machine.stepped?_of_walks {settings : Settings} {program : Program}
    {machine : Machine} {commands : List Command} {tape : Tape}
    (walks : Tape.Walks settings commands machine.state.tape tape)
    (holds : program.HoldsAt machine.cursor commands) (running : machine.running = true) :
    machine.stepped? settings program commands.length =
        some { machine with
          state := { machine.state with tape }
          cursor := machine.cursor + commands.length } ∧
      machine.RunningBefore settings program commands.length := by
  induction commands generalizing machine with
  | nil =>
      cases walks
      exact ⟨rfl, nofun⟩
  | cons command rest ih =>
      cases walks with
      | @act _ _ _ next _ plain direct acts walks =>
          obtain ⟨found, restHolds⟩ := Program.holdsAt_cons holds
          have stepped := step_done_of_plain (Program.effective_eq_ok found direct) plain
            (acts machine.state.console)
          let behind : Machine :=
            { machine with
              state := { machine.state with tape := next }
              cursor := machine.cursor + 1 }
          have further : Tape.Walks settings rest behind.state.tape tape := walks
          obtain ⟨reached, goesOn⟩ := ih further restHolds running
          refine ⟨?_, .before running stepped goesOn⟩
          rw [List.length_cons, stepped?_succ_of_done stepped, Nat.add_comm rest.length 1,
            ← Nat.add_assoc]
          exact reached

end TapeDialects
