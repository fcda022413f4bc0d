/-
What writing, flushing and reading do to a console, whatever its streams accept.

A write that fails has kept the first bytes of its text, those that still fit,
and nothing else has changed.  A flush is counted even if it is refused, and a
line is taken from the input even if nothing can be made of it.
-/

import TapeDialects.Proofs.Machine.Faultless

namespace TapeDialects

theorem Sink.fitting_prefix (sink : Sink) (bytes : List UInt8) :
    sink.fitting bytes <+: bytes := by
  unfold fitting
  split
  · exact List.prefix_rfl
  · exact List.take_prefix _ _

namespace Console

/-- The console after a write of which only some bytes have come through. -/
def kept (bytes : List UInt8) (console : Console) : Console :=
  { console with sink := { console.sink with written := console.sink.written ++ bytes } }

theorem write_eq_ite (text : Text) (midLine : Bool) (console : Console) :
    console.write text midLine =
      if (console.sink.fitting text.encode).length = text.encode.length then
        .done (console.wrote text midLine)
      else
        .failed .writeFailed (console.kept (console.sink.fitting text.encode)) := by
  have first := console.sink.fitting_prefix text.encode
  cases console with
  | mk source sink previous =>
      unfold write Sink.write
      simp only at first ⊢
      by_cases whole : (sink.fitting text.encode).length = text.encode.length
      · rw [if_pos whole, if_pos whole, first.eq_of_length whole]
        rfl
      · rw [if_neg whole, if_neg whole]
        rfl

theorem write_cases (text : Text) (midLine : Bool) (console : Console) :
    console.write text midLine = .done (console.wrote text midLine) ∨
      ∃ bytes, bytes <+: text.encode ∧
        console.write text midLine = .failed .writeFailed (console.kept bytes) := by
  rw [write_eq_ite]
  split
  · exact Or.inl rfl
  · exact Or.inr ⟨_, console.sink.fitting_prefix text.encode, rfl⟩

theorem flush_cases (console : Console) :
    console.flush = .done console.flushed ∨
      console.flush = .failed .flushFailed console.flushed := by
  cases console with
  | mk source sink midLine =>
      unfold flush Sink.flush
      simp only
      split
      · exact Or.inl rfl
      · split
        · exact Or.inl rfl
        · exact Or.inr rfl

theorem readLine_consumes (console : Console) :
    ∃ count, console.readLine.2 = console.consumed count := by
  cases console with
  | mk source sink midLine =>
      unfold readLine Source.readLine
      simp only
      refine ⟨(Source.firstLine source.available).length, ?_⟩
      split
      · rfl
      · split <;> rfl

theorem breakLine_cases (console : Console) :
    console.breakLine = .done console.brokeLine ∨
      ∃ bytes, console.breakLine = .failed .writeFailed (console.kept bytes) := by
  unfold breakLine brokeLine
  split
  · rcases write_cases ['\n'] false console with done | ⟨bytes, -, failed⟩
    · exact Or.inl done
    · exact Or.inr ⟨bytes, failed⟩
  · exact Or.inl rfl

theorem kept_of_say_failed {console later : Console} {message : String}
    {error : StreamError} (failed : console.say message = .failed error later) :
    ∃ bytes, later = console.kept bytes ∨ later = console.brokeLine.kept bytes := by
  unfold say at failed
  rcases breakLine_cases console with done | ⟨bytes, broken⟩
  · rw [done, Outcome.bind_done] at failed
    rcases write_cases (message.toList ++ ['\n']) false console.brokeLine with
      written | ⟨bytes, -, cut⟩
    · rw [written] at failed
      cases failed
    · rw [cut] at failed
      cases failed
      exact ⟨bytes, Or.inr rfl⟩
  · rw [broken, Outcome.bind_failed] at failed
    cases failed
    exact ⟨bytes, Or.inl rfl⟩

end Console
end TapeDialects
