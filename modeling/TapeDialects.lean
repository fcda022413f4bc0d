import TapeDialects.Coding.CountedRun
import TapeDialects.Coding.SelfRepetition
import TapeDialects.Coding.Wildcard
import TapeDialects.Coding.WordLength
import TapeDialects.Command
import TapeDialects.Dialect.Basic
import TapeDialects.Dialect.Registry
import TapeDialects.Dialect.Tables
import TapeDialects.Instruction
import TapeDialects.Interpreter
import TapeDialects.Lexeme.Comment
import TapeDialects.Lexeme.Lexer
import TapeDialects.Lexeme.Table
import TapeDialects.Machine.Console
import TapeDialects.Machine.Fault
import TapeDialects.Machine.Jump
import TapeDialects.Machine.Outcome
import TapeDialects.Machine.Run
import TapeDialects.Machine.Settings
import TapeDialects.Machine.State
import TapeDialects.Machine.Step
import TapeDialects.Machine.Stream
import TapeDialects.Machine.Stretch
import TapeDialects.Machine.Tape
import TapeDialects.Program
import TapeDialects.Report.Diagnostic
import TapeDialects.Report.Excerpt
import TapeDialects.Text.LetterCase
import TapeDialects.Text.Line
import TapeDialects.Text.Slice
import TapeDialects.Text.Space
import TapeDialects.Text.Utf8
import TapeDialects.Text.Word
import TapeDialects.Proofs.Loop.Height
import TapeDialects.Proofs.Loop.Search
import TapeDialects.Proofs.Loop.Jump
import TapeDialects.Proofs.Machine.Faultless
import TapeDialects.Proofs.Machine.Ending
import TapeDialects.Proofs.Structured.Block
import TapeDialects.Proofs.Structured.Placement
import TapeDialects.Proofs.Structured.Simulation
import TapeDialects.Proofs.Structured.Refinement
import TapeDialects.Proofs.Lexeme.Separable
import TapeDialects.Proofs.Coding.Counting
import TapeDialects.Proofs.Coding.Wildcard
import TapeDialects.Proofs.Dialect.RoundTrip
import TapeDialects.Proofs.Machine.Checked
import TapeDialects.Proofs.Machine.Reachable
import TapeDialects.Proofs.Machine.Safety
import TapeDialects.Proofs.Loop.Course
import TapeDialects.Proofs.Machine.Session
import TapeDialects.Proofs.Dialect.Standing
import TapeDialects.Proofs.Dialect.Order
import TapeDialects.Proofs.Dialect.Slicing
import TapeDialects.Proofs.Dialect.Span
import TapeDialects.Proofs.Dialect.Translation
import TapeDialects.Proofs.Machine.Effect
import TapeDialects.Proofs.Machine.Failure
import TapeDialects.Proofs.Loop.Repetition
import TapeDialects.Proofs.Machine.Frame
import TapeDialects.Proofs.Machine.Widening
import TapeDialects.Proofs.Machine.Conservative
import TapeDialects.Proofs.Machine.OpenLine
import TapeDialects.Proofs.Machine.Stepping
import TapeDialects.Proofs.Machine.Cause
import TapeDialects.Proofs.Text.ByteLine
import TapeDialects.Proofs.Machine.Change
import TapeDialects.Proofs.Machine.BrokenLine
import TapeDialects.Proofs.Machine.Resumption
import TapeDialects.Proofs.Machine.Limit
import TapeDialects.Proofs.Machine.Truncation
import TapeDialects.Proofs.Machine.OutputLines
import TapeDialects.Proofs.Machine.Period
import TapeDialects.Proofs.Machine.Clamping
import TapeDialects.Proofs.Text.InputLine
import TapeDialects.Proofs.Machine.LineInput
import TapeDialects.Proofs.Loop.Insertion
import TapeDialects.Proofs.Machine.Companion
import TapeDialects.Proofs.Machine.Bisimilar
import TapeDialects.Proofs.Machine.Insertion
import TapeDialects.Proofs.Machine.Walk
import TapeDialects.Proofs.Loop.Clearing
import TapeDialects.Proofs.Machine.Balance
import TapeDialects.Proofs.Machine.Cancellation
import TapeDialects.Proofs.Machine.StraightLine
import TapeDialects.Proofs.Machine.Rotation
import TapeDialects.Proofs.Lexeme.Leftmost
import TapeDialects.Proofs.Lexeme.PrefixFree
import TapeDialects.Proofs.Lexeme.Priority
import TapeDialects.Proofs.Lexeme.Stripping
import TapeDialects.Proofs.Lexeme.Nesting
import TapeDialects.Proofs.Lexeme.Blanking
import TapeDialects.Proofs.Machine.Echo
import TapeDialects.Proofs.Text.Power
import TapeDialects.Proofs.Coding.PrimitiveRoot
import TapeDialects.Proofs.Coding.Moved
import TapeDialects.Proofs.Coding.Pieces
import TapeDialects.Proofs.Coding.Locality
import TapeDialects.Proofs.Coding.LoneStar
import TapeDialects.Proofs.Coding.LetterCase
import TapeDialects.Proofs.Coding.TakenWord
import TapeDialects.Proofs.Report.Excerpt
import TapeDialects.Proofs.Dialect.UnbrokenLexeme
import TapeDialects.Proofs.Report.SourceLine
