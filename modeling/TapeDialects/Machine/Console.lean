/-
Input and output as a program sees them: lines to read, and an output that
knows whether it stands in the middle of a line.
-/

import TapeDialects.Machine.Stream

namespace TapeDialects

structure Console where
  source : Source
  sink : Sink
  /-- The last character written was not a line feed. -/
  midLine : Bool
  deriving DecidableEq

namespace Console

def ofStreams (source : Source) (sink : Sink) : Console :=
  { source, sink, midLine := false }

/-- Write a text, after which the output is in the middle of a line or not.  A
failed write leaves that as it was. -/
def write (text : Text) (midLine : Bool) (console : Console) :
    Outcome StreamError Console :=
  match console with
  | { source, sink, midLine := previous } =>
      match sink.write text.encode with
      | .done sink => .done { source, sink, midLine }
      | .failed error sink => .failed error { source, sink, midLine := previous }

def put (character : Char) (console : Console) : Outcome StreamError Console :=
  console.write [character] (character != '\n')

/-- End the line that the output is in the middle of, if it is. -/
def breakLine (console : Console) : Outcome StreamError Console :=
  if console.midLine then console.write ['\n'] false else .done console

def say (message : String) (console : Console) : Outcome StreamError Console :=
  console.breakLine.bind fun console => console.write (message.toList ++ ['\n']) false

def flush (console : Console) : Outcome StreamError Console :=
  match console with
  | { source, sink, midLine } =>
      sink.flush.map fun sink => { source, sink, midLine }

def readLine (console : Console) : Except StreamError Text × Console :=
  match console with
  | { source, sink, midLine } =>
      let (line, source) := source.readLine
      (line, { source, sink, midLine })

end Console
end TapeDialects
