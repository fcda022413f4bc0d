/-
Consoles whose streams cannot fail: the output takes every byte and every flush,
and the input is the UTF-8 form of a text and has no limit.

On such a console every write, flush and read has an equation of its own, and
the console stays such a one.  So a command fails on it by an execution error
only.
-/

import TapeDialects.Machine.State
import TapeDialects.Proofs.Text.Line

namespace TapeDialects

namespace Console

structure Faultless (console : Console) : Prop where
  capacity : console.sink.capacity? = none
  flushLimit : console.sink.flushLimit? = none
  limit : console.source.limit? = none
  decodable : ∃ text : Text, console.source.rest = text.encode

def wrote (text : Text) (midLine : Bool) (console : Console) : Console :=
  { console with
    sink := { console.sink with written := console.sink.written ++ text.encode }
    midLine }

def flushed (console : Console) : Console :=
  { console with sink := { console.sink with flushes := console.sink.flushes + 1 } }

def consumed (count : Nat) (console : Console) : Console :=
  { console with source := console.source.consume count }

def brokeLine (console : Console) : Console :=
  if console.midLine then console.wrote ['\n'] false else console

variable {console : Console}

theorem source_brokeLine (console : Console) :
    console.brokeLine.source = console.source := by
  unfold brokeLine
  split <;> rfl

theorem written_brokeLine (console : Console) :
    console.brokeLine.sink.written =
      console.sink.written ++ (if console.midLine then [lineFeed] else []) := by
  unfold brokeLine
  by_cases midLine : console.midLine
  · rw [if_pos midLine, if_pos midLine]
    rfl
  · rw [if_neg midLine, if_neg midLine]
    simp

theorem ofStreams_faultless (input : Text) :
    (ofStreams (Source.ofBytes input.encode none) (Sink.empty none none)).Faultless :=
  { capacity := rfl
    flushLimit := rfl
    limit := rfl
    decodable := ⟨input, rfl⟩ }

/-! ### Outputs that take every byte or every flush -/

theorem write_eq_wrote (unlimited : console.sink.capacity? = none) (text : Text)
    (midLine : Bool) : console.write text midLine = .done (console.wrote text midLine) := by
  have fits : console.sink.fitting text.encode = text.encode := by
    unfold Sink.fitting
    rw [unlimited]
  have written : console.sink.write text.encode =
      .done { console.sink with written := console.sink.written ++ text.encode } := by
    unfold Sink.write
    rw [fits]
    exact if_pos rfl
  cases console with
  | mk source sink previous =>
      unfold write
      simp only
      rw [written]
      rfl

theorem flush_eq_flushed (unlimited : console.sink.flushLimit? = none) :
    console.flush = .done console.flushed := by
  have accepted : console.sink.flush =
      .done { console.sink with flushes := console.sink.flushes + 1 } := by
    unfold Sink.flush
    simp only [unlimited]
  cases console with
  | mk source sink midLine =>
      unfold flush
      simp only
      rw [accepted]
      rfl

theorem breakLine_eq_brokeLine (unlimited : console.sink.capacity? = none) :
    console.breakLine = .done console.brokeLine := by
  unfold breakLine brokeLine
  split
  · exact write_eq_wrote unlimited _ _
  · rfl

namespace Faultless

theorem wrote (faultless : console.Faultless) (text : Text) (midLine : Bool) :
    (console.wrote text midLine).Faultless :=
  { capacity := faultless.capacity
    flushLimit := faultless.flushLimit
    limit := faultless.limit
    decodable := faultless.decodable }

theorem flushed (faultless : console.Faultless) : console.flushed.Faultless :=
  { capacity := faultless.capacity
    flushLimit := faultless.flushLimit
    limit := faultless.limit
    decodable := faultless.decodable }

theorem brokeLine (faultless : console.Faultless) : console.brokeLine.Faultless := by
  unfold Console.brokeLine
  split
  · exact faultless.wrote _ _
  · exact faultless

theorem write_eq (faultless : console.Faultless) (text : Text) (midLine : Bool) :
    console.write text midLine = .done (console.wrote text midLine) :=
  write_eq_wrote faultless.capacity text midLine

theorem flush_eq (faultless : console.Faultless) :
    console.flush = .done console.flushed :=
  flush_eq_flushed faultless.flushLimit

theorem breakLine_eq (faultless : console.Faultless) :
    console.breakLine = .done console.brokeLine :=
  breakLine_eq_brokeLine faultless.capacity

theorem say_eq (faultless : console.Faultless) (message : String) :
    console.say message =
      .done (console.brokeLine.wrote (message.toList ++ ['\n']) false) := by
  unfold say
  rw [faultless.breakLine_eq, Outcome.bind_done, faultless.brokeLine.write_eq]

theorem readLine_eq (faultless : console.Faultless) {text : Text}
    (rest : console.source.rest = text.encode) :
    console.readLine = (.ok text.firstLine, console.consumed text.firstLine.size) := by
  have available : Source.firstLine console.source.available = text.firstLine.encode := by
    unfold Source.available
    rw [faultless.limit]
    simp only
    rw [rest, Source.firstLine_encode]
  have unspent : (console.source.consume text.firstLine.size).isSpent = false := by
    unfold Source.isSpent Source.consume
    rw [faultless.limit]
  unfold readLine Source.readLine
  simp only [available, Text.length_encode, unspent, Bool.false_eq_true, and_false,
    if_false, Text.decode?_encode]
  rfl

theorem rest_consumed {text : Text} (rest : console.source.rest = text.encode) :
    (console.consumed text.firstLine.size).source.rest = text.afterLine.encode := by
  have whole : text.encode = text.firstLine.encode ++ text.afterLine.encode := by
    rw [← Text.encode_append, Text.firstLine_append_afterLine]
  unfold Console.consumed Source.consume
  simp only
  rw [rest, whole, ← Text.length_encode, List.drop_left]

theorem consumed (faultless : console.Faultless) {text : Text}
    (rest : console.source.rest = text.encode) :
    (console.consumed text.firstLine.size).Faultless :=
  { capacity := faultless.capacity
    flushLimit := faultless.flushLimit
    limit := faultless.limit
    decodable := ⟨text.afterLine, rest_consumed rest⟩ }

end Faultless
end Console

/-- The outcome is a success or an execution error, and leaves a state that has
the property. -/
def Outcome.Settles (holds : State → Prop) : Outcome Fault State → Prop
  | .done state => holds state
  | .failed (.execution _) state => holds state
  | .failed _ _ => False

namespace State

def Faultless (state : State) : Prop :=
  state.console.Faultless

variable {state : State}

theorem onTape_settles (faultless : state.Faultless)
    (act : Tape → Outcome ExecutionError Tape) : (state.onTape act).Settles Faultless := by
  cases state with
  | mk tape console =>
      unfold onTape
      simp only
      cases act tape with
      | done tape => exact faultless
      | failed error tape => exact faultless

theorem output_settles (faultless : state.Faultless) : state.output.Settles Faultless := by
  unfold output
  cases state.tape.character? with
  | none => exact faultless
  | some character =>
      simp only [onConsole, Console.put]
      rw [Console.Faultless.write_eq faultless]
      exact Console.Faultless.wrote faultless _ _

theorem input_settles (faultless : state.Faultless) (settings : Settings) :
    (state.input settings).Settles Faultless := by
  have flushed : state.onConsole Console.flush =
      .done { state with console := state.console.flushed } := by
    unfold onConsole
    simp only
    rw [Console.Faultless.flush_eq faultless]
    rfl
  have ready := Console.Faultless.flushed faultless
  obtain ⟨text, rest⟩ := ready.decodable
  unfold input
  rw [flushed, Outcome.bind_done]
  unfold readCell
  simp only [ready.readLine_eq rest]
  have later : Faultless
      { state with console := state.console.flushed.consumed text.firstLine.size } :=
    ready.consumed rest
  exact onTape_settles later _

theorem say_settles (faultless : state.Faultless) (message : String) :
    (state.onConsole (Console.say message)).Settles Faultless := by
  unfold onConsole
  simp only
  rw [Console.Faultless.say_eq faultless]
  exact (Console.Faultless.brokeLine faultless).wrote _ _

theorem perform_settles (faultless : state.Faultless) (settings : Settings)
    (command : Command) : (state.perform settings command).Settles Faultless := by
  cases command with
  | right => exact onTape_settles faultless _
  | left => exact onTape_settles faultless _
  | increment => exact onTape_settles faultless _
  | decrement => exact onTape_settles faultless _
  | output => exact output_settles faultless
  | input => exact input_settles faultless settings
  | giveFishfood => exact say_settles faultless _
  | giveBanana => exact say_settles faultless _
  | start => exact faultless
  | stop => exact faultless
  | loopOpen => exact faultless
  | loopClose => exact faultless
  | again => exact faultless

end State
end TapeDialects
