/-
Steps on an input with lines that are no text, beside steps on an input that has
been cleaned of them.

Input alone reads, and it takes a whole line whether it can be decoded or not.
Where both machines find the same line, they do the same.  Where the one finds a
line that is no text, its step fails, and leaves it as it has been but for the
line, which is gone, and for one more flush.
-/

import TapeDialects.Proofs.Machine.Change
import TapeDialects.Proofs.Machine.Frame
import TapeDialects.Proofs.Text.ByteLine

namespace TapeDialects

namespace Source

/-- The first source gives what is left of the second without the lines that are no text. -/
structure Cleans (clean source : Source) : Prop where
  limit : source.limit? = none
  rest : clean.rest = decodable source.rest

def skipLine (source : Source) : Source :=
  source.consume (firstLine source.rest).length

def brokenLines (taken : List (List UInt8)) : Nat :=
  taken.countP fun line => !isText line

structure Took (taken : List (List UInt8)) (before after : Source) : Prop where
  lines : lines before.rest = taken ++ lines after.rest
  consumed : after.consumed = before.consumed + taken.flatten.length

variable {clean source middle later : Source} {taken others : List (List UInt8)}

theorem Took.nothing (source : Source) : Took [] source source :=
  { lines := rfl, consumed := rfl }

theorem Took.append (first : Took taken source middle) (second : Took others middle later) :
    Took (taken ++ others) source later := by
  refine { lines := ?lines, consumed := ?consumed }
  case lines => rw [first.lines, second.lines, List.append_assoc]
  case consumed =>
      rw [second.consumed, first.consumed, List.flatten_append, List.length_append,
        Nat.add_assoc]

theorem took_skipLine (source : Source) :
    Took ((Source.lines source.rest).take 1) source source.skipLine := by
  cases ended : source.rest with
  | nil =>
      have same : source.skipLine = source := by
        cases source with
        | mk rest consumed limit? =>
            cases ended
            rfl
      rw [same]
      exact Took.nothing source
  | cons byte rest =>
      have cut := lines_eq_cons (List.cons_ne_nil byte rest)
      rw [← ended] at cut ⊢
      refine { lines := ?lines, consumed := ?consumed }
      case lines =>
          rw [cut]
          rfl
      case consumed =>
          rw [cut, List.take_succ_cons, List.take_zero, List.flatten_singleton]
          rfl

theorem brokenLines_of_text (text : isText (firstLine source.rest) = true) :
    brokenLines ((Source.lines source.rest).take 1) = 0 := by
  unfold brokenLines
  cases ended : source.rest with
  | nil => rfl
  | cons byte rest =>
      rw [ended] at text
      rw [lines_eq_cons (List.cons_ne_nil byte rest), List.take_succ_cons, List.take_zero,
        List.countP_singleton, text]
      rfl

theorem brokenLines_of_not_text (broken : isText (firstLine source.rest) = false) :
    brokenLines ((Source.lines source.rest).take 1) = 1 := by
  unfold brokenLines
  rw [lines_eq_cons (ne_nil_of_not_text broken), List.take_succ_cons, List.take_zero,
    List.countP_singleton, broken]
  rfl

theorem brokenLines_append (taken others : List (List UInt8)) :
    brokenLines (taken ++ others) = brokenLines taken + brokenLines others :=
  List.countP_append

theorem Cleans.skipLine (cleans : Cleans clean source)
    (text : isText (firstLine source.rest) = true) : Cleans clean.skipLine source.skipLine := by
  refine { limit := cleans.limit, rest := ?rest }
  case rest =>
      have behind : afterLine clean.rest = decodable (afterLine source.rest) := by
        rw [cleans.rest, afterLine_decodable text]
      exact behind

theorem Cleans.skipBroken (cleans : Cleans clean source)
    (broken : isText (firstLine source.rest) = false) : Cleans clean source.skipLine := by
  refine { limit := cleans.limit, rest := ?rest }
  case rest =>
      rw [cleans.rest, decodable_of_not_text broken]
      rfl

theorem readLine_eq_of_unlimited (unlimited : source.limit? = none) :
    source.readLine =
      ((Text.decode? (firstLine source.rest)).elim (.error .invalidText) .ok,
        source.skipLine) := by
  have available : source.available = source.rest := by
    unfold Source.available
    rw [unlimited]
  have unspent : (source.consume (firstLine source.rest).length).isSpent = false := by
    unfold isSpent consume
    simp only [unlimited]
  unfold readLine
  simp only [available, unspent, Bool.false_eq_true, and_false, if_false]
  cases Text.decode? (firstLine source.rest) <;> rfl

end Source

namespace Console

/-- The console on another source, with so many failed reads behind it. -/
def fedBy (source : Source) (failures : Nat) (console : Console) : Console :=
  { console with
    source
    sink := { console.sink with flushes := console.sink.flushes + failures } }

def prompted (console : Console) : Console :=
  { console.flushed with source := console.source.skipLine }

variable {console : Console} {source : Source} {failures : Nat}

theorem write_fedBy (text : Text) (midLine : Bool) (console : Console) :
    (console.fedBy source failures).write text midLine =
      (console.write text midLine).map (fedBy source failures) := by
  have fits : (console.fedBy source failures).sink.fitting text.encode =
      console.sink.fitting text.encode := rfl
  rw [write_eq_ite, write_eq_ite, fits]
  split <;> rfl

theorem writes_fedBy {act : Console → Outcome StreamError Console} (writes : Writes act)
    (console : Console) :
    act (console.fedBy source failures) = (act console).map (fedBy source failures) := by
  cases writes with
  | put character => exact write_fedBy _ _ console
  | say message =>
      have broken : (console.fedBy source failures).breakLine =
          console.breakLine.map (fedBy source failures) := by
        unfold breakLine
        by_cases midLine : console.midLine
        · have same : (console.fedBy source failures).midLine = true := midLine
          rw [if_pos midLine, if_pos same]
          exact write_fedBy _ _ console
        · have same : ¬ (console.fedBy source failures).midLine = true := midLine
          rw [if_neg midLine, if_neg same]
          rfl
      unfold say
      rw [broken]
      cases console.breakLine with
      | done later => exact write_fedBy _ _ later
      | failed error later => rfl

theorem Writes.source_after {act : Console → Outcome StreamError Console}
    (writes : Writes act) (console : Console) :
    (act console).after.source = console.source := by
  have written : ∀ (text : Text) (midLine : Bool) (console : Console),
      (console.write text midLine).after.source = console.source := by
    intro text midLine console
    rcases write_cases text midLine console with done | ⟨bytes, -, failed⟩
    · rw [done]
      rfl
    · rw [failed]
      rfl
  cases writes with
  | put character => exact written _ _ console
  | say message =>
      rw [Console.say]
      rcases breakLine_cases console with broke | ⟨bytes, failed⟩
      · rw [broke, Outcome.bind_done, written, source_brokeLine]
      · rw [failed]
        rfl

theorem brokeLine_fedBy (console : Console) :
    (console.fedBy source failures).brokeLine = console.brokeLine.fedBy source failures := by
  unfold brokeLine
  have same : (console.fedBy source failures).midLine = console.midLine := rfl
  rw [same]
  split <;> rfl

theorem flushed_fedBy (console : Console) :
    (console.fedBy source failures).flushed = console.flushed.fedBy source failures := by
  unfold flushed fedBy
  simp only [Nat.add_right_comm]

theorem prompted_fedBy (console : Console) :
    (console.fedBy source failures).prompted =
      console.prompted.fedBy source.skipLine failures := by
  unfold prompted
  rw [flushed_fedBy]
  rfl

end Console

namespace State

variable {settings : Settings} {state : State}

theorem input_eq_of_unlimited (state : State)
    (flushLimit : state.console.sink.flushLimit? = none)
    (limit : state.console.source.limit? = none) {line? : Option Text}
    (decoded : Text.decode? (Source.firstLine state.console.source.rest) = line?) :
    state.input settings =
      match line? with
      | some line =>
          (state.rewired Console.prompted).onTape
            (Tape.storeCharacter settings line.inputCharacter)
      | none => .failed (.stream .invalidText) (state.rewired Console.prompted) := by
  cases state with
  | mk tape console =>
      have read : console.flushed.readLine =
          (line?.elim (.error .invalidText) .ok, console.prompted) := by
        have taken := Source.readLine_eq_of_unlimited limit
        unfold Console.readLine Console.flushed
        simp only at taken decoded ⊢
        rw [taken, decoded]
        rfl
      unfold input onConsole
      simp only
      rw [Console.flush_eq_flushed flushLimit]
      simp only [Outcome.mapError_done, Outcome.map_done, Outcome.bind_done]
      unfold readCell
      simp only [read]
      cases line? <;> rfl

variable {source : Source} {failures : Nat} {command : Command}

theorem input_fedBy_of_text (settings : Settings) (failures : Nat)
    (faultless : state.Faultless)
    (cleans : state.console.source.Cleans source)
    (text : Source.isText (Source.firstLine source.rest) = true) :
    (state.rewired (Console.fedBy source failures)).input settings =
        (state.input settings).map
          (rewired (Console.fedBy source.skipLine failures)) ∧
      (state.input settings).after.console = state.console.prompted := by
  obtain ⟨line, decoded⟩ := Option.isSome_iff_exists.mp text
  have found : Text.decode? (Source.firstLine state.console.source.rest) = some line := by
    rw [cleans.rest, Source.firstLine_decodable text]
    exact decoded
  have unfed : state.input settings = (state.rewired Console.prompted).onTape
      (Tape.storeCharacter settings line.inputCharacter) :=
    input_eq_of_unlimited state faultless.flushLimit faultless.limit found
  have fed : (state.rewired (Console.fedBy source failures)).input settings =
      ((state.rewired (Console.fedBy source failures)).rewired Console.prompted).onTape
        (Tape.storeCharacter settings line.inputCharacter) :=
    input_eq_of_unlimited (state.rewired (Console.fedBy source failures))
      faultless.flushLimit cleans.limit decoded
  have prompted : (state.rewired (Console.fedBy source failures)).rewired Console.prompted =
      (state.rewired Console.prompted).rewired (Console.fedBy source.skipLine failures) :=
    congrArg (State.mk state.tape) (Console.prompted_fedBy state.console)
  rw [unfed, fed, prompted, onTape_rewired]
  exact ⟨rfl, console_after_onTape _ _⟩

theorem input_fedBy_of_broken (faultless : state.Faultless)
    (cleans : state.console.source.Cleans source)
    (broken : Source.isText (Source.firstLine source.rest) = false) :
    (state.rewired (Console.fedBy source failures)).input settings =
      .failed (.stream .invalidText)
        (state.rewired (Console.fedBy source.skipLine (failures + 1))) := by
  have undecoded : Text.decode? (Source.firstLine source.rest) = none := by
    unfold Source.isText at broken
    rwa [Option.isSome_eq_false_iff, Option.isNone_iff_eq_none] at broken
  have failed : (state.rewired (Console.fedBy source failures)).input settings =
      .failed (.stream .invalidText)
        ((state.rewired (Console.fedBy source failures)).rewired Console.prompted) :=
    input_eq_of_unlimited (state.rewired (Console.fedBy source failures))
      faultless.flushLimit cleans.limit undecoded
  rw [failed]
  rfl

theorem perform_fedBy_of_ne_input (other : command ≠ .input) (settings : Settings)
    (source : Source) (failures : Nat) (state : State) :
    (state.rewired (Console.fedBy source failures)).perform settings command =
        (state.perform settings command).map (rewired (Console.fedBy source failures)) ∧
      (state.perform settings command).after.console.source = state.console.source := by
  cases state with
  | mk tape console =>
      rcases perform_cases other settings tape with ⟨act, acts⟩ | ⟨act, writes, acts⟩
      · rw [acts, console_after_onTape, ← onTape_rewired]
        exact ⟨acts _, rfl⟩
      · rw [acts, console_after_onConsole, writes.source_after,
          ← onConsole_rewired (Console.writes_fedBy writes console)]
        exact ⟨acts _, rfl⟩

end State
end TapeDialects
