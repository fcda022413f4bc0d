/-
The record of the line that the output is in the middle of.

A console notes by hand whether the last character that was written was a line
feed.  The note is right if it says what the written bytes say: that there are
some, and that they do not end with a line feed.  Every write that comes through
makes it right, whatever it was before, and flushes and reads do not touch it.
Only a write that is cut short may leave it wrong.
-/

import TapeDialects.Proofs.Machine.Frame

namespace TapeDialects

namespace Sink

/-- Something has been written, and a line feed was not the last of it. -/
def isOpen (sink : Sink) : Bool :=
  sink.written.back?.any (· != lineFeed)

theorem back?_append (written : Array UInt8) {bytes : List UInt8} (nonempty : bytes ≠ []) :
    (written ++ bytes).back? = bytes.getLast? := by
  rw [← Array.getLast?_toList, Array.toList_appendList, List.getLast?_append,
    List.getLast?_eq_some_getLast nonempty]
  rfl

end Sink

namespace Console

/-- The record of the open line says what the written bytes say. -/
def TracksLine (console : Console) : Prop :=
  console.midLine = console.sink.isOpen

variable {console : Console}

theorem ofStreams_tracksLine (source : Source) (capacity? flushLimit? : Option Nat) :
    (ofStreams source (Sink.empty capacity? flushLimit?)).TracksLine := rfl

/-- The last byte of a character is a line feed only if the character is one. -/
theorem wrote_character_tracksLine (character : Char) (console : Console) :
    (console.wrote [character] (character != '\n')).TracksLine := by
  unfold TracksLine Sink.isOpen wrote
  simp only
  rw [Text.encode_singleton, Sink.back?_append _ String.utf8EncodeChar_ne_nil]
  by_cases lineEnds : character = '\n'
  · subst lineEnds
    rfl
  · have lineless := Text.lineFeed_notMem_utf8EncodeChar lineEnds
    obtain ⟨last, ends⟩ := Option.isSome_iff_exists.mp
      (List.getLast?_isSome.mpr (String.utf8EncodeChar_ne_nil (c := character)))
    have other : last ≠ lineFeed := by
      intro same
      rw [same] at ends
      exact lineless (List.mem_of_getLast? ends)
    rw [ends, Option.any_some, bne_iff_ne.mpr lineEnds, bne_iff_ne.mpr other]

theorem wrote_line_tracksLine (text : Text) (console : Console) :
    (console.wrote (text ++ ['\n']) false).TracksLine := by
  have encoded : Text.encode (text ++ ['\n']) = text.encode ++ [lineFeed] :=
    Text.encode_append text ['\n']
  unfold TracksLine Sink.isOpen wrote
  simp only
  rw [encoded, Sink.back?_append _ (List.concat_ne_nil _ _), List.getLast?_concat]
  rfl

theorem put_tracksLine {character : Char}
    (uncut : (console.put character).error? ≠ some .writeFailed) :
    (console.put character).after.TracksLine := by
  rcases write_cases [character] (character != '\n') console with wrote | ⟨bytes, -, cut⟩
  · rw [put, wrote]
    exact wrote_character_tracksLine character console
  · rw [put, cut] at uncut
    exact absurd rfl uncut

theorem say_tracksLine {message : String}
    (uncut : (console.say message).error? ≠ some .writeFailed) :
    (console.say message).after.TracksLine := by
  unfold say at uncut ⊢
  rcases breakLine_cases console with broke | ⟨bytes, cut⟩
  · rw [broke, Outcome.bind_done] at uncut ⊢
    rcases write_cases (message.toList ++ ['\n']) false console.brokeLine with
      wrote | ⟨bytes, -, cut⟩
    · rw [wrote]
      exact wrote_line_tracksLine message.toList console.brokeLine
    · rw [cut] at uncut
      exact absurd rfl uncut
  · rw [cut] at uncut
    exact absurd rfl uncut

end Console

namespace State

variable {state : State}

theorem onConsole_tracksLine {act : Console → Outcome StreamError Console}
    (tracks : (act state.console).error? ≠ some .writeFailed →
      (act state.console).after.TracksLine)
    (uncut : (state.onConsole act).error? ≠ some (.stream .writeFailed)) :
    (state.onConsole act).after.console.TracksLine := by
  rw [console_after_onConsole]
  apply tracks
  intro cut
  apply uncut
  cases state with
  | mk tape console =>
      unfold onConsole
      simp only at cut ⊢
      cases acted : act console with
      | done later =>
          rw [acted] at cut
          cases cut
      | failed error later =>
          rw [acted] at cut
          cases cut
          rfl

theorem perform_tracksLine (settings : Settings) {command : Command}
    (tracks : state.console.TracksLine)
    (uncut : (state.perform settings command).error? ≠ some (.stream .writeFailed)) :
    (state.perform settings command).after.console.TracksLine := by
  have onTape : ∀ act : Tape → Outcome ExecutionError Tape,
      (state.onTape act).after.console.TracksLine := by
    intro act
    rw [console_after_onTape]
    exact tracks
  cases command with
  | right => exact onTape _
  | left => exact onTape _
  | increment => exact onTape _
  | decrement => exact onTape _
  | output =>
      unfold perform output at uncut ⊢
      cases shown : state.tape.character? with
      | none => exact tracks
      | some character =>
          rw [shown] at uncut
          exact onConsole_tracksLine Console.put_tracksLine uncut
  | input =>
      obtain ⟨count, taken⟩ := console_after_input settings state
      rw [perform, taken]
      exact tracks
  | giveFishfood => exact onConsole_tracksLine Console.say_tracksLine uncut
  | giveBanana => exact onConsole_tracksLine Console.say_tracksLine uncut
  | start => exact tracks
  | stop => exact tracks
  | loopOpen => exact tracks
  | loopClose => exact tracks
  | again => exact tracks

end State

namespace Machine

variable {settings : Settings} {program : Program} {machine : Machine}

theorem step_tracksLine (settings : Settings) (program : Program)
    (tracks : machine.state.console.TracksLine)
    (uncut : (machine.step settings program).error? ≠ some (.stream .writeFailed)) :
    (machine.step settings program).after.state.console.TracksLine := by
  cases effect : program.effective machine.cursor with
  | error fault =>
      rw [step_of_error effect]
      exact tracks
  | ok command =>
      rw [state_after_step effect]
      apply State.perform_tracksLine settings tracks
      intro cut
      apply uncut
      cases performed : machine.state.perform settings command with
      | done later =>
          rw [performed] at cut
          cases cut
      | failed fault later =>
          rw [performed] at cut
          rw [step_failed_of_plain effect (Command.isPlain_of_perform_failed performed)
            performed]
          exact cut

end Machine
end TapeDialects
