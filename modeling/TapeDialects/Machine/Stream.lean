/-
The streams of bytes that a program reads from and writes to.

Both may have limits.  A sink with a capacity takes no more bytes than that in
all: a write that goes over it keeps the bytes that still fit, and fails.  A sink
may also stop to accept flushes after a number of them.  A source with a limit
fails when more is asked of it after so many bytes, at the end of the input too.
-/

import TapeDialects.Machine.Fault
import TapeDialects.Machine.Outcome
import TapeDialects.Text.Utf8

namespace TapeDialects

def lineFeed : UInt8 := 10

structure Sink where
  written : Array UInt8
  capacity? : Option Nat
  flushes : Nat
  flushLimit? : Option Nat
  deriving DecidableEq

namespace Sink

def empty (capacity? flushLimit? : Option Nat) : Sink :=
  { written := #[], capacity?, flushes := 0, flushLimit? }

def fitting (sink : Sink) (bytes : List UInt8) : List UInt8 :=
  match sink.capacity? with
  | none => bytes
  | some capacity => bytes.take (capacity - sink.written.size)

def write (bytes : List UInt8) (sink : Sink) : Outcome StreamError Sink :=
  let kept := sink.fitting bytes
  let filled := { sink with written := sink.written ++ kept }
  if kept.length = bytes.length then .done filled else .failed .writeFailed filled

/-- Every flush is counted, a refused one too. -/
def flush (sink : Sink) : Outcome StreamError Sink :=
  let flushed := { sink with flushes := sink.flushes + 1 }
  match sink.flushLimit? with
  | none => .done flushed
  | some limit =>
      if sink.flushes < limit then .done flushed else .failed .flushFailed flushed

end Sink

structure Source where
  rest : List UInt8
  consumed : Nat
  limit? : Option Nat
  deriving DecidableEq

namespace Source

def ofBytes (bytes : List UInt8) (limit? : Option Nat) : Source :=
  { rest := bytes, consumed := 0, limit? }

def available (source : Source) : List UInt8 :=
  match source.limit? with
  | none => source.rest
  | some limit => source.rest.take (limit - source.consumed)

/-- Whether the source fails when more is asked of it. -/
def isSpent (source : Source) : Bool :=
  match source.limit? with
  | none => false
  | some limit => decide (limit ≤ source.consumed)

def consume (count : Nat) (source : Source) : Source :=
  { source with
    rest := source.rest.drop count
    consumed := source.consumed + count }

/-- The bytes up to the first line feed and with it, or all if there is none. -/
def firstLine : List UInt8 → List UInt8
  | [] => []
  | byte :: rest => if byte = lineFeed then [byte] else byte :: firstLine rest

/-- Take the next line.  Its bytes are consumed even if they are not the UTF-8
form of a text, or if the limit cuts the line short. -/
def readLine (source : Source) : Except StreamError Text × Source :=
  let line := firstLine source.available
  let later := source.consume line.length
  if line.getLast? ≠ some lineFeed ∧ later.isSpent then
    (.error .readFailed, later)
  else
    match Text.decode? line with
    | some text => (.ok text, later)
    | none => (.error .invalidText, later)

end Source
end TapeDialects
