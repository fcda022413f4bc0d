/-
Running a text that is written in a dialect, from its name to its end.
-/

import TapeDialects.Dialect.Registry
import TapeDialects.Machine.Run

namespace TapeDialects

/-- Look the dialect up, read the text in it and run the program from a blank
tape.  There is no ending if the fuel gives out. -/
def interpret (text : Text) (dialectName : String) (settings : Settings)
    (source : Source) (sink : Sink) (fuel : Nat) :
    Except UnknownDialect (Option (Ending × Machine)) :=
  match Dialect.lookup dialectName with
  | .error unknown => .error unknown
  | .ok dialect =>
      .ok ((Machine.initial settings source sink).run settings
        (Program.ofText dialect text) fuel)

end TapeDialects
