/-
Actions on an output that takes so many bytes in all, beside the same actions on
one that takes every byte.

As long as the bytes fit, the actions do the same.  The first one that goes past
the capacity fails, and what has been written then is the front of what would
have been written.  A message writes twice, so that it can be cut at its line
break or behind it.
-/

import TapeDialects.Proofs.Machine.Change
import TapeDialects.Proofs.Machine.Ending

namespace TapeDialects

namespace Console

def output (console : Console) : List UInt8 :=
  console.sink.written.toList

/-- The console on an output that takes so many bytes in all. -/
def limited (capacity : Nat) (console : Console) : Console :=
  { console with sink := { console.sink with capacity? := some capacity } }

/-- How an action comes out on the limited output: as on the other one, if all that it
writes fits, and otherwise it fails and has written what fits. -/
inductive Truncates (capacity : Nat) (free : Outcome StreamError Console) :
    Outcome StreamError Console → Prop where
  | fits (room : free.after.output.length ≤ capacity) :
      Truncates capacity free (free.map (limited capacity))
  | cuts {later : Console} (beyond : capacity < free.after.output.length)
      (kept : later.output = free.after.output.take capacity) :
      Truncates capacity free (.failed .writeFailed later)

variable {console : Console} {capacity : Nat} {free cut : Outcome StreamError Console}

theorem output_wrote (text : Text) (midLine : Bool) (console : Console) :
    (console.wrote text midLine).output = console.output ++ text.encode :=
  Array.toList_appendList

theorem output_kept (bytes : List UInt8) (console : Console) :
    (console.kept bytes).output = console.output ++ bytes :=
  Array.toList_appendList

theorem prefix_framed (front : List UInt8) :
    Framed fun console => front <+: console.output := by
  refine { wrote := ?wrote, kept := ?kept, flushed := id, consumed := fun held _ => held }
  case wrote =>
      intro console held text midLine
      rw [output_wrote]
      exact held.trans (List.prefix_append _ _)
  case kept =>
      intro console held bytes
      rw [output_kept]
      exact held.trans (List.prefix_append _ _)

theorem take_of_prefix {front whole : List UInt8} (first : front <+: whole)
    (long : capacity ≤ front.length) : whole.take capacity = front.take capacity := by
  obtain ⟨rest, rfl⟩ := first
  exact List.take_append_of_le_length long

theorem Truncates.bind {next : Console → Outcome StreamError Console}
    (first : Truncates capacity free cut)
    (second : ∀ later, free = .done later → later.output.length ≤ capacity →
      Truncates capacity (next later) (next (later.limited capacity)))
    (grows : ∀ later, free = .done later → later.output <+: (next later).after.output) :
    Truncates capacity (free.bind next) (cut.bind next) := by
  cases first with
  | fits room =>
      cases free with
      | done later => exact second later rfl room
      | failed error later => exact .fits room
  | cuts beyond kept =>
      cases free with
      | done later =>
          have grown := grows later rfl
          refine .cuts (Nat.lt_of_lt_of_le beyond grown.length_le) ?_
          rw [Outcome.bind_done, take_of_prefix grown (Nat.le_of_lt beyond)]
          exact kept
      | failed error later => exact .cuts beyond kept

theorem write_truncates (takes : console.TakesAll) (room : console.output.length ≤ capacity)
    (text : Text) (midLine : Bool) :
    Truncates capacity (console.write text midLine)
      ((console.limited capacity).write text midLine) := by
  have fitting : (console.limited capacity).sink.fitting text.encode =
      text.encode.take (capacity - console.output.length) := rfl
  have after : (console.wrote text midLine).output.length =
      console.output.length + text.encode.length := by
    rw [output_wrote, List.length_append]
  rw [write_eq_wrote takes.1, write_eq_ite, fitting, List.length_take]
  by_cases fits : text.encode.length ≤ capacity - console.output.length
  · rw [if_pos (Nat.min_eq_right fits)]
    refine .fits ?_
    rw [Outcome.after_done, after]
    omega
  · rw [if_neg (by omega)]
    refine .cuts ?_ ?_
    · rw [Outcome.after_done, after]
      omega
    · rw [Outcome.after_done, output_wrote, output_kept, List.take_append,
        List.take_of_length_le room]
      rfl

theorem breakLine_truncates (takes : console.TakesAll)
    (room : console.output.length ≤ capacity) :
    Truncates capacity console.breakLine (console.limited capacity).breakLine := by
  have same : (console.limited capacity).midLine = console.midLine := rfl
  unfold breakLine
  rw [same]
  by_cases midLine : console.midLine = true
  · rw [if_pos midLine, if_pos midLine]
    exact write_truncates takes room _ _
  · rw [if_neg midLine, if_neg midLine]
    exact .fits room

theorem takesAll_of_breakLine {later : Console} (takes : console.TakesAll)
    (broke : console.breakLine = .done later) : later.TakesAll := by
  have kept := takesAll_framed.breakLine takes
  rw [broke] at kept
  exact kept

theorem say_truncates (takes : console.TakesAll) (room : console.output.length ≤ capacity)
    (message : String) :
    Truncates capacity (console.say message) ((console.limited capacity).say message) := by
  refine (breakLine_truncates takes room).bind ?_ ?_
  · intro later broke room
    exact write_truncates (takesAll_of_breakLine takes broke) room _ _
  · intro later broke
    exact (prefix_framed later.output).write List.prefix_rfl _ _

theorem writes_truncates {act : Console → Outcome StreamError Console} (writes : Writes act)
    (takes : console.TakesAll) (room : console.output.length ≤ capacity) :
    Truncates capacity (act console) (act (console.limited capacity)) := by
  cases writes with
  | put character => exact write_truncates takes room _ _
  | say message => exact say_truncates takes room message

theorem flush_limited (console : Console) :
    (console.limited capacity).flush = console.flush.map (limited capacity) := by
  cases console with
  | mk source sink midLine =>
      unfold flush limited Sink.flush
      simp only
      cases sink.flushLimit? with
      | none => rfl
      | some limit =>
          by_cases early : sink.flushes < limit
          · simp only [if_pos early]
            rfl
          · simp only [if_neg early]
            rfl

theorem output_flush (console : Console) : console.flush.after.output = console.output := by
  rcases flush_cases console with done | failed
  · rw [done]
    rfl
  · rw [failed]
    rfl

theorem flush_truncates (room : console.output.length ≤ capacity) :
    Truncates capacity console.flush (console.limited capacity).flush := by
  rw [flush_limited]
  refine .fits ?_
  rw [output_flush]
  exact room

theorem readLine_limited (console : Console) :
    (console.limited capacity).readLine =
      (console.readLine.1, console.readLine.2.limited capacity) := rfl

end Console

namespace State

def limited (capacity : Nat) (state : State) : State :=
  state.rewired (Console.limited capacity)

/-- How a command comes out on the limited output.  If it is cut short, the tape is as
it has been before. -/
inductive Truncates (capacity : Nat) (tape : Tape) (free : Outcome Fault State) :
    Outcome Fault State → Prop where
  | fits (room : free.after.console.output.length ≤ capacity) :
      Truncates capacity tape free (free.map (limited capacity))
  | cuts {later : State} (beyond : capacity < free.after.console.output.length)
      (kept : later.console.output = free.after.console.output.take capacity)
      (unmoved : later.tape = tape) :
      Truncates capacity tape free (.failed (.stream .writeFailed) later)

variable {state : State} {capacity : Nat}

theorem onConsole_truncates {act : Console → Outcome StreamError Console}
    (truncates : Console.Truncates capacity (act state.console)
      (act (state.console.limited capacity))) :
    Truncates capacity state.tape (state.onConsole act)
      ((state.limited capacity).onConsole act) := by
  cases state with
  | mk tape console =>
      unfold onConsole limited rewired
      simp only at truncates ⊢
      generalize act console = free at truncates ⊢
      generalize act (console.limited capacity) = cut at truncates ⊢
      cases truncates with
      | fits room =>
          cases free with
          | done later => exact .fits room
          | failed error later => exact .fits room
      | cuts beyond kept =>
          cases free with
          | done later => exact .cuts beyond kept rfl
          | failed error later => exact .cuts beyond kept rfl

theorem readCell_limited (settings : Settings) (state : State) :
    (state.limited capacity).readCell settings =
      (state.readCell settings).map (limited capacity) := by
  cases state with
  | mk tape console =>
      unfold readCell limited rewired
      simp only [Console.readLine_limited]
      cases console.readLine with
      | mk line later =>
          cases line with
          | error error => rfl
          | ok line =>
              exact onTape_rewired (Console.limited capacity)
                (Tape.storeCharacter settings line.inputCharacter) { tape, console := later }

theorem input_limited (settings : Settings) (state : State) :
    (state.limited capacity).input settings =
      (state.input settings).map (limited capacity) := by
  have flushed : (state.limited capacity).onConsole Console.flush =
      (state.onConsole Console.flush).map (limited capacity) :=
    onConsole_rewired (Console.flush_limited state.console)
  unfold input
  rw [flushed]
  cases state.onConsole Console.flush with
  | done later => exact readCell_limited settings later
  | failed fault later => rfl

theorem perform_truncates (takes : state.console.TakesAll)
    (room : state.console.output.length ≤ capacity) (settings : Settings)
    (command : Command) :
    Truncates capacity state.tape (state.perform settings command)
      ((state.limited capacity).perform settings command) := by
  by_cases reading : command = .input
  · subst reading
    obtain ⟨count, console⟩ := console_after_input settings state
    have same : (state.limited capacity).perform settings .input =
        (state.perform settings .input).map (limited capacity) :=
      input_limited settings state
    rw [same]
    refine .fits ?_
    rw [perform, console]
    exact room
  · cases state with
    | mk tape console =>
        rcases perform_cases reading settings tape with ⟨act, acts⟩ | ⟨act, writes, acts⟩
        · have limitedActs : (limited capacity { tape, console }).perform settings command =
              onTape act (limited capacity { tape, console }) := acts _
          have same : onTape act (limited capacity { tape, console }) =
              (onTape act { tape, console }).map (limited capacity) :=
            onTape_rewired (Console.limited capacity) act { tape, console }
          rw [acts, limitedActs, same]
          refine .fits ?_
          rw [console_after_onTape]
          exact room
        · have limitedActs : (limited capacity { tape, console }).perform settings command =
              onConsole act (limited capacity { tape, console }) := acts _
          rw [acts, limitedActs]
          exact onConsole_truncates (Console.writes_truncates writes takes room)

end State

namespace Machine

def limited (capacity : Nat) (machine : Machine) : Machine :=
  machine.changed (State.limited capacity)

/-- The machine has been cut short: its output is full of the front of the other output,
and neither tape nor cursor has moved. -/
structure CutShort (capacity : Nat) (free : List UInt8) (before cut : Machine) : Prop where
  beyond : capacity < free.length
  kept : cut.state.console.output = free.take capacity
  tape : cut.state.tape = before.state.tape
  cursor : cut.cursor = before.cursor

variable {machine later cut : Machine} {capacity : Nat} {free : List UInt8}

theorem CutShort.of_unmoved (short : CutShort capacity free later cut)
    (unmoved : later.state.tape = machine.state.tape ∧ later.cursor = machine.cursor) :
    CutShort capacity free machine cut :=
  { beyond := short.beyond
    kept := short.kept
    tape := short.tape.trans unmoved.1
    cursor := short.cursor.trans unmoved.2 }

theorem step_limited_cases (takes : machine.state.console.TakesAll)
    (room : machine.state.console.output.length ≤ capacity) (settings : Settings)
    (program : Program) :
    ((machine.step settings program).after.state.console.output.length ≤ capacity ∧
        (machine.limited capacity).step settings program =
          (machine.step settings program).map (limited capacity)) ∨
      ∃ cut, (machine.limited capacity).step settings program =
          .failed (.stream .writeFailed) cut ∧
        CutShort capacity (machine.step settings program).after.state.console.output
          machine cut := by
  cases effect : program.effective machine.cursor with
  | error fault =>
      have limitedEffect : program.effective (machine.limited capacity).cursor =
          .error fault := effect
      rw [step_of_error effect, step_of_error limitedEffect]
      exact Or.inl ⟨room, rfl⟩
  | ok command =>
      have limitedEffect : program.effective (machine.limited capacity).cursor = .ok command :=
        effect
      have truncates := State.perform_truncates takes room settings command
      rw [state_after_step effect]
      generalize performed : (machine.state.limited capacity).perform settings command =
        limitedPerformed at truncates
      cases truncates with
      | fits room => exact Or.inl ⟨room, step_changed effect rfl performed⟩
      | cuts beyond kept unmoved =>
          exact Or.inr ⟨_,
            step_failed_of_plain limitedEffect (Command.isPlain_of_perform_failed performed)
              performed,
            { beyond, kept, tape := unmoved, cursor := rfl }⟩

theorem finish_limited (takes : machine.state.console.TakesAll) :
    (machine.limited capacity).finish = machine.finish.map id (limited capacity) := by
  have flushed : (machine.limited capacity).state.console.flush =
      .done (machine.state.console.flushed.limited capacity) :=
    Console.flush_eq_flushed takes.2
  rw [TakesAll.finish_eq takes]
  unfold finish
  rw [onConsole_of_done flushed]
  rfl

theorem report_limited_cases (takes : machine.state.console.TakesAll)
    (room : machine.state.console.output.length ≤ capacity) (program : Program)
    (error : ExecutionError) :
    ((machine.report program error).2.state.console.output.length ≤ capacity ∧
        (machine.limited capacity).report program error =
          (machine.report program error).map id (limited capacity)) ∨
      ∃ cut, (machine.limited capacity).report program error =
          (.interrupted .writeFailed, cut) ∧
        CutShort capacity (machine.report program error).2.state.console.output machine cut := by
  have truncates : Console.Truncates capacity
      (machine.state.console.breakLine.bind Console.flush)
      ((machine.state.console.limited capacity).breakLine.bind Console.flush) := by
    refine (Console.breakLine_truncates takes room).bind ?_ ?_
    · intro later _ room
      exact Console.flush_truncates room
    · intro later _
      simp only [Console.output_flush, List.prefix_rfl]
  rw [takes.flush_brokeLine_eq] at truncates
  rw [TakesAll.report_eq takes]
  generalize acted : (machine.state.console.limited capacity).breakLine.bind Console.flush =
    limitedActed at truncates
  cases truncates with
  | fits room =>
      have done : ({ machine.limited capacity with running := false } : Machine).onConsole
          (fun console => console.breakLine.bind Console.flush) =
            .done (machine.afterReport.limited capacity) := onConsole_of_done acted
      have placed : (machine.afterReport.limited capacity).diagnostic? program error =
          machine.diagnostic? program error := rfl
      refine Or.inl ⟨room, ?_⟩
      unfold report
      simp only [done, placed]
      cases machine.diagnostic? program error <;> rfl
  | @cuts later beyond kept =>
      obtain ⟨cut, failed, console, tape, cursor⟩ : ∃ cut : Machine,
          ({ machine.limited capacity with running := false } : Machine).onConsole
              (fun console => console.breakLine.bind Console.flush) =
                .failed .writeFailed cut ∧
            cut.state.console = later ∧ cut.state.tape = machine.state.tape ∧
            cut.cursor = machine.cursor :=
        ⟨_, onConsole_of_failed acted, rfl, rfl, rfl⟩
      rw [← console] at kept
      refine Or.inr ⟨cut, ?_, { beyond, kept, tape, cursor }⟩
      unfold report
      simp only [failed]

end Machine
end TapeDialects
