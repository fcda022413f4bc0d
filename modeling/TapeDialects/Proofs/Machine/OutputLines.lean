/-
Lines of an output on which no write has been cut short.

Such an output holds a text, and the record of the open line is right about it.
So the line break in front of a message comes where it is needed and nowhere
else: the message starts a line, and it ends that line.  A run that reports an
error has ended the line that it was in the middle of.

The limits of the streams may be others from one call to the next.  So flushes may be
refused and reads may fail on the way, at any point and as often as they like, and the
calls after them go on with the same machine, on streams that fail again or that do not.
-/

import TapeDialects.Proofs.Machine.Stepping

namespace TapeDialects

namespace Sink

variable {sink : Sink}

/-- The written bytes are the UTF-8 form of a text. -/
def HoldsText (sink : Sink) : Prop :=
  ∃ text : Text, sink.written.toList = text.encode

theorem isOpen_eq_true_iff :
    sink.isOpen = true ↔ sink.written ≠ #[] ∧ sink.written.back? ≠ some lineFeed := by
  unfold isOpen
  cases last : sink.written.back? with
  | none =>
      have nothing : sink.written = #[] := Array.back?_eq_none_iff.mp last
      simp [nothing]
  | some byte =>
      have something : sink.written ≠ #[] := by
        intro nothing
        rw [nothing] at last
        cases last
      simp [something]

theorem isOpen_eq_false_iff :
    sink.isOpen = false ↔ sink.written = #[] ∨ sink.written.back? = some lineFeed := by
  rw [← Bool.not_eq_true, isOpen_eq_true_iff, ne_eq, ne_eq, ← not_or, not_not]

end Sink

namespace Console

variable {console : Console}

structure Orderly (console : Console) : Prop where
  tracks : console.TracksLine
  text : console.sink.HoldsText

theorem ofStreams_orderly (source : Source) (capacity? flushLimit? : Option Nat) :
    (ofStreams source (Sink.empty capacity? flushLimit?)).Orderly :=
  { tracks := ofStreams_tracksLine source capacity? flushLimit?
    text := ⟨[], rfl⟩ }

theorem wrote_holdsText (holds : console.sink.HoldsText) (text : Text) (midLine : Bool) :
    (console.wrote text midLine).sink.HoldsText := by
  obtain ⟨before, written⟩ := holds
  refine ⟨before ++ text, ?_⟩
  rw [Text.encode_append, ← written]
  exact Array.toList_appendList

theorem brokeLine_holdsText (holds : console.sink.HoldsText) :
    console.brokeLine.sink.HoldsText := by
  unfold brokeLine
  split
  · exact wrote_holdsText holds _ _
  · exact holds

theorem brokeLine_tracksLine (tracks : console.TracksLine) :
    console.brokeLine.TracksLine ∧ console.brokeLine.midLine = false := by
  unfold brokeLine
  by_cases midLine : console.midLine
  · rw [if_pos midLine]
    exact ⟨wrote_line_tracksLine [] console, rfl⟩
  · rw [if_neg midLine]
    exact ⟨tracks, Bool.eq_false_iff.mpr midLine⟩

theorem Orderly.brokeLine (orderly : console.Orderly) : console.brokeLine.Orderly :=
  { tracks := (brokeLine_tracksLine orderly.tracks).1
    text := brokeLine_holdsText orderly.text }

theorem Orderly.isOpen_brokeLine (orderly : console.Orderly) :
    console.brokeLine.sink.isOpen = false := by
  obtain ⟨tracks, ended⟩ := brokeLine_tracksLine orderly.tracks
  rw [← ended]
  exact tracks.symm

theorem Orderly.flushed (orderly : console.Orderly) : console.flushed.Orderly :=
  { tracks := orderly.tracks
    text := orderly.text }

theorem Orderly.relimited (orderly : console.Orderly) (limits : StreamLimits) :
    (console.relimited limits).Orderly :=
  { tracks := orderly.tracks
    text := orderly.text }

theorem after_flush (console : Console) : console.flush.after = console.flushed := by
  rcases console.flush_cases with done | refused
  · rw [done]
    rfl
  · rw [refused]
    rfl

/-! ### Writes that are not cut short -/

theorem put_of_uncut {character : Char}
    (uncut : (console.put character).error? ≠ some .writeFailed) :
    console.put character = .done (console.wrote [character] (character != '\n')) := by
  rcases write_cases [character] (character != '\n') console with wrote | ⟨bytes, -, cut⟩
  · exact wrote
  · rw [put, cut] at uncut
    exact absurd rfl uncut

theorem say_of_uncut {message : String}
    (uncut : (console.say message).error? ≠ some .writeFailed) :
    console.say message =
      .done (console.brokeLine.wrote (message.toList ++ ['\n']) false) := by
  unfold say at uncut ⊢
  rcases breakLine_cases console with broke | ⟨bytes, cut⟩
  · rw [broke, Outcome.bind_done] at uncut ⊢
    rcases write_cases (message.toList ++ ['\n']) false console.brokeLine with
      wrote | ⟨bytes, -, cut⟩
    · exact wrote
    · rw [cut] at uncut
      exact absurd rfl uncut
  · rw [cut] at uncut
    exact absurd rfl uncut

end Console

namespace State

variable {state : State}

theorem uncut_of_onConsole {act : Console → Outcome StreamError Console}
    (uncut : (state.onConsole act).error? ≠ some (.stream .writeFailed)) :
    (act state.console).error? ≠ some .writeFailed := by
  intro cut
  apply uncut
  cases state with
  | mk tape console =>
      unfold onConsole
      simp only at cut ⊢
      cases acted : act console with
      | done later =>
          rw [acted] at cut
          cases cut
      | failed error later =>
          rw [acted] at cut
          cases cut
          rfl

theorem onConsole_of_done {act : Console → Outcome StreamError Console} {console : Console}
    (acted : act state.console = .done console) :
    state.onConsole act = .done { state with console } := by
  cases state with
  | mk tape before =>
      unfold onConsole
      simp only at acted ⊢
      rw [acted]
      rfl

theorem say_of_uncut {message : String}
    (uncut : (state.onConsole (Console.say message)).error? ≠ some (.stream .writeFailed)) :
    state.onConsole (Console.say message) =
      .done { state with
        console := state.console.brokeLine.wrote (message.toList ++ ['\n']) false } :=
  onConsole_of_done (Console.say_of_uncut (uncut_of_onConsole uncut))

theorem perform_holdsText (settings : Settings) {command : Command}
    (holds : state.console.sink.HoldsText)
    (uncut : (state.perform settings command).error? ≠ some (.stream .writeFailed)) :
    (state.perform settings command).after.console.sink.HoldsText := by
  have onTape : ∀ act : Tape → Outcome ExecutionError Tape,
      (state.onTape act).after.console.sink.HoldsText := by
    intro act
    rw [console_after_onTape]
    exact holds
  have spoken : ∀ message : String,
      (state.onConsole (Console.say message)).error? ≠ some (.stream .writeFailed) →
        (state.onConsole (Console.say message)).after.console.sink.HoldsText := by
    intro message uncut
    rw [say_of_uncut uncut]
    exact Console.wrote_holdsText (Console.brokeLine_holdsText holds) _ _
  cases command with
  | right => exact onTape _
  | left => exact onTape _
  | increment => exact onTape _
  | decrement => exact onTape _
  | output =>
      unfold perform output at uncut ⊢
      cases shown : state.tape.character? with
      | none => exact holds
      | some character =>
          rw [shown] at uncut
          simp only at uncut ⊢
          rw [onConsole_of_done (Console.put_of_uncut (uncut_of_onConsole uncut))]
          exact Console.wrote_holdsText holds _ _
  | input =>
      obtain ⟨count, taken⟩ := console_after_input settings state
      rw [perform, taken]
      exact holds
  | giveFishfood => exact spoken _ uncut
  | giveBanana => exact spoken _ uncut
  | start => exact holds
  | stop => exact holds
  | loopOpen => exact holds
  | loopClose => exact holds
  | again => exact holds

theorem perform_message (settings : Settings) {command : Command} {message : String}
    (worded : command.message? = some message)
    (uncut : (state.perform settings command).error? ≠ some (.stream .writeFailed)) :
    state.perform settings command =
      .done { state with
        console := state.console.brokeLine.wrote (message.toList ++ ['\n']) false } := by
  cases command with
  | giveFishfood =>
      cases worded
      exact say_of_uncut uncut
  | giveBanana =>
      cases worded
      exact say_of_uncut uncut
  | _ => cases worded

end State

namespace Machine

variable {settings : Settings} {program : Program} {machine later final : Machine}
  {ending : Ending}

theorem perform_uncut_of_step {command : Command}
    (effect : program.effective machine.cursor = .ok command)
    (uncut : (machine.step settings program).error? ≠ some (.stream .writeFailed)) :
    (machine.state.perform settings command).error? ≠ some (.stream .writeFailed) := by
  intro cut
  apply uncut
  cases performed : machine.state.perform settings command with
  | done state =>
      rw [performed] at cut
      cases cut
  | failed fault state =>
      rw [performed] at cut
      rw [step_failed_of_plain effect (Command.isPlain_of_perform_failed performed) performed]
      exact cut

theorem step_orderly (settings : Settings) (program : Program)
    (orderly : machine.state.console.Orderly)
    (uncut : (machine.step settings program).error? ≠ some (.stream .writeFailed)) :
    (machine.step settings program).after.state.console.Orderly := by
  refine { tracks := step_tracksLine settings program orderly.tracks uncut, text := ?text }
  case text =>
      cases effect : program.effective machine.cursor with
      | error fault =>
          rw [step_of_error effect]
          exact orderly.text
      | ok command =>
          rw [state_after_step effect]
          exact State.perform_holdsText settings orderly.text
            (perform_uncut_of_step effect uncut)

theorem step_message {command : Command} {message : String}
    (effect : program.effective machine.cursor = .ok command)
    (worded : command.message? = some message)
    (uncut : (machine.step settings program).error? ≠ some (.stream .writeFailed)) :
    machine.step settings program =
      .done { machine with
        state := { machine.state with
          console :=
            machine.state.console.brokeLine.wrote (message.toList ++ ['\n']) false }
        cursor := machine.cursor + 1 } := by
  have performed :=
    State.perform_message settings worded (perform_uncut_of_step effect uncut)
  have plain : command.IsPlain := by
    cases command with
    | stop => cases worded
    | loopOpen => cases worded
    | loopClose => cases worded
    | _ => decide
  exact step_done_of_plain effect plain performed

theorem orderly_of_stepped? {count : Nat} (orderly : machine.state.console.Orderly)
    (reached : machine.stepped? settings program count = some later) :
    later.state.console.Orderly := by
  induction count generalizing machine with
  | zero =>
      cases reached
      exact orderly
  | succ count ih =>
      obtain ⟨next, stepped, further⟩ := exists_done_of_stepped?_succ reached
      have kept := step_orderly settings program orderly
      rw [stepped] at kept
      exact ih (kept nofun) further

theorem console_finish (machine : Machine) :
    machine.finish.2.state.console = machine.state.console.flushed := by
  have flushed := console_after_onConsole Console.flush machine
  rw [Console.after_flush] at flushed
  unfold finish
  cases acted : machine.onConsole Console.flush with
  | done later =>
      rw [acted] at flushed
      exact flushed
  | failed error later =>
      rw [acted] at flushed
      exact flushed

theorem console_report_of_uncut {error : ExecutionError}
    (uncut : (machine.report program error).1 ≠ .interrupted .writeFailed) :
    (machine.report program error).2.state.console =
      machine.state.console.brokeLine.flushed := by
  unfold report at uncut ⊢
  simp only at uncut ⊢
  have left := console_after_onConsole
    (fun console => console.breakLine.bind Console.flush) { machine with running := false }
  rcases machine.state.console.breakLine_cases with broke | ⟨bytes, cut⟩
  · rw [broke, Outcome.bind_done, Console.after_flush] at left
    split
    · next failed =>
        rw [failed] at left
        exact left
    · next done =>
        rw [done] at left
        split <;> exact left
  · have failed : ({ machine with running := false } : Machine).onConsole
        (fun console => console.breakLine.bind Console.flush) = .failed .writeFailed _ :=
      onConsole_of_failed (by rw [cut]; rfl)
    rw [failed] at uncut
    exact absurd rfl uncut

theorem runFor_orderly {fuel : Nat} (orderly : machine.state.console.Orderly)
    (ended : machine.runFor settings program fuel = some (ending, final))
    (uncut : ending ≠ .interrupted .writeFailed) :
    final.state.console.Orderly ∧
      ((∃ diagnostic, ending = .reported diagnostic) →
        final.state.console.sink.isOpen = false) := by
  induction fuel generalizing machine with
  | zero => cases ended
  | succ fuel ih =>
      cases running : machine.running with
      | false =>
          have left := machine.console_finish
          have other := machine.finish_ne_reported
          rw [runFor_succ_of_halted running] at ended
          rw [Option.some.inj ended] at left other
          rw [left]
          refine ⟨orderly.flushed, ?_⟩
          rintro ⟨diagnostic, reported⟩
          exact absurd reported (other diagnostic)
      | true =>
          have kept := step_orderly settings program orderly
          rcases runFor_succ_cases running ended with ⟨later, stepped, further⟩ |
            ⟨error, later, stepped, reported⟩ | ⟨error, stepped, rfl⟩ | ⟨stepped, rfl⟩
          all_goals rw [stepped] at kept
          · exact ih (kept nofun) further
          · have left : final.state.console = later.state.console.brokeLine.flushed := by
              have unfailed : (later.report program error).1 ≠ .interrupted .writeFailed := by
                rw [reported]
                exact uncut
              have known := console_report_of_uncut unfailed
              rw [reported] at known
              exact known
            rw [left]
            exact ⟨(kept nofun).brokeLine.flushed,
              fun _ => (kept nofun).isOpen_brokeLine⟩
          · have unfailed : (Outcome.failed (Fault.stream error) final).error? ≠
                some (.stream .writeFailed) := by
              intro same
              cases same
              exact uncut rfl
            exact ⟨kept unfailed, nofun⟩
          · exact ⟨kept nofun, nofun⟩

theorem run_orderly {fuel : Nat} (orderly : machine.state.console.Orderly)
    (ended : machine.run settings program fuel = some (ending, final))
    (uncut : ending ≠ .interrupted .writeFailed) :
    final.state.console.Orderly ∧
      ((∃ diagnostic, ending = .reported diagnostic) →
        final.state.console.sink.isOpen = false) := by
  unfold run at ended
  split at ended
  · exact runFor_orderly orderly ended uncut
  · cases ended
    exact ⟨orderly, nofun⟩

/-! ### Machines on whose way no write was cut short -/

/-- Steps and runs lead to the machine from a fresh one on an empty output, and none of
them has failed by a write.  Between them the streams may get other limits. -/
inductive Uncut (settings : Settings) (program : Program) : Machine → Prop where
  | fresh (source : Source) (capacity? flushLimit? : Option Nat) :
      Uncut settings program (initial settings source (Sink.empty capacity? flushLimit?))
  | step {machine : Machine} (reached : Uncut settings program machine)
      (unfailed : (machine.step settings program).error? ≠ some (.stream .writeFailed)) :
      Uncut settings program (machine.step settings program).after
  | run {machine later : Machine} {fuel : Nat} {ending : Ending}
      (reached : Uncut settings program machine)
      (ended : machine.run settings program fuel = some (ending, later))
      (unfailed : ending ≠ .interrupted .writeFailed) : Uncut settings program later
  | relimited {machine : Machine} (reached : Uncut settings program machine)
      (limits : StreamLimits) : Uncut settings program (machine.relimited limits)

theorem Uncut.orderly (reached : Uncut settings program machine) :
    machine.state.console.Orderly := by
  induction reached with
  | fresh source capacity? flushLimit? =>
      exact Console.ofStreams_orderly source capacity? flushLimit?
  | step _ unfailed ih => exact step_orderly settings program ih unfailed
  | run _ ended unfailed ih => exact (run_orderly ih ended unfailed).1
  | relimited _ limits ih => exact ih.relimited limits

/-- How a message is written whose writes come through: behind the output of before,
and behind a line break if that is in the middle of a line. -/
structure SaysOnOwnLine (message : String) (before later : Machine) : Prop where
  written : later.state.console.sink.written.toList =
    before.state.console.brokeLine.sink.written.toList ++ Text.encode message.toList ++
      [lineFeed]
  broken : before.state.console.brokeLine.sink.written.toList =
    before.state.console.sink.written.toList ++
      (if before.state.console.sink.written ≠ #[] ∧
          before.state.console.sink.written.back? ≠ some lineFeed then [lineFeed] else [])
  startsLine : before.state.console.brokeLine.sink.written = #[] ∨
    before.state.console.brokeLine.sink.written.back? = some lineFeed

theorem saysOnOwnLine_of_orderly {message : String}
    (orderly : machine.state.console.Orderly)
    (said : later.state.console =
      machine.state.console.brokeLine.wrote (message.toList ++ ['\n']) false) :
    SaysOnOwnLine message machine later := by
  refine { written := ?written, broken := ?broken, startsLine := ?startsLine }
  case written =>
      rw [said]
      unfold Console.wrote
      rw [Text.encode_append, Array.toList_appendList, ← List.append_assoc]
      rfl
  case broken =>
      have tracks : machine.state.console.midLine = machine.state.console.sink.isOpen :=
        orderly.tracks
      rw [Console.written_brokeLine, Array.toList_appendList, tracks]
      simp only [Sink.isOpen_eq_true_iff]
  case startsLine => exact Sink.isOpen_eq_false_iff.mp orderly.isOpen_brokeLine

structure KeepsLines (settings : Settings) (program : Program) (machine : Machine) : Prop where
  record : machine.state.console.midLine = true ↔
    machine.state.console.sink.written ≠ #[] ∧
      machine.state.console.sink.written.back? ≠ some lineFeed
  text : ∃ text : Text, machine.state.console.sink.written.toList = text.encode
  /-- However many steps further on, a command that says something, be it repeated or
  not, says it on a line of its own, unless a write of it fails. -/
  messages : ∀ (count : Nat) (between : Machine) (command : Command) (message : String),
    machine.stepped? settings program count = some between →
    program.effective between.cursor = .ok command → command.message? = some message →
    (between.step settings program).error? ≠ some (.stream .writeFailed) →
      ∃ later, between.step settings program = .done later ∧
        SaysOnOwnLine message between later
  reports : ∀ (fuel : Nat) (diagnostic : Diagnostic) (final : Machine),
    machine.run settings program fuel = some (.reported diagnostic, final) →
      final.state.console.sink.written = #[] ∨
        final.state.console.sink.written.back? = some lineFeed

theorem Uncut.keepsLines (reached : Uncut settings program machine) :
    machine.KeepsLines settings program := by
  have orderly := reached.orderly
  refine
    { record := ?record
      text := orderly.text
      messages := ?messages
      reports := ?reports }
  case record =>
      have tracks : machine.state.console.midLine = machine.state.console.sink.isOpen :=
        orderly.tracks
      rw [tracks]
      exact Sink.isOpen_eq_true_iff
  case messages =>
      intro count between command message reached effect worded uncut
      have arrived := orderly_of_stepped? orderly reached
      exact ⟨_, step_message effect worded uncut, saysOnOwnLine_of_orderly arrived rfl⟩
  case reports =>
      intro fuel diagnostic final ended
      exact Sink.isOpen_eq_false_iff.mp
        ((run_orderly orderly ended nofun).2 ⟨diagnostic, rfl⟩)

def messagesBetweenOutput : Program :=
  Program.ofInstructions "+.bb.]".toList
    [.startingAt 0 .increment ['+'], .startingAt 1 .output ['.'],
      .startingAt 2 .giveBanana ['b'], .startingAt 3 .again ['b'],
      .startingAt 4 .output ['.'], .startingAt 5 .loopClose [']']]

/-- The message needs a line break at first and none when it is repeated.  The output
refuses to be flushed, which the report does not get past. -/
theorem messagesBetweenOutput_keepsLines :
    ∃ final : Machine,
      (initial oneCell (Source.ofBytes [] none) (Sink.empty none (some 0))).run oneCell
          messagesBetweenOutput 8 = some (.interrupted .flushFailed, final) ∧
        Uncut oneCell messagesBetweenOutput final ∧
        final.state.console.sink.written.toList =
          Text.encode ("\u0001\n*Banana transfer takes place* - \"Ook!\"\n" ++
            "*Banana transfer takes place* - \"Ook!\"\n\u0001\n").toList ∧
        final.KeepsLines oneCell messagesBetweenOutput := by
  have ran : ∃ final,
      (initial oneCell (Source.ofBytes [] none) (Sink.empty none (some 0))).run oneCell
          messagesBetweenOutput 8 = some (.interrupted .flushFailed, final) ∧
        final.state.console.sink.written.toList =
          Text.encode ("\u0001\n*Banana transfer takes place* - \"Ook!\"\n" ++
            "*Banana transfer takes place* - \"Ook!\"\n\u0001\n").toList :=
    ⟨_, rfl, rfl⟩
  obtain ⟨final, ended, written⟩ := ran
  have reached : Uncut oneCell messagesBetweenOutput final :=
    .run (.fresh (Source.ofBytes [] none) none (some 0)) ended nofun
  exact ⟨final, ended, reached, written, reached.keepsLines⟩

end Machine
end TapeDialects
