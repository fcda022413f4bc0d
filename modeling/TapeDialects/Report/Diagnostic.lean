/-
The report of a run that an error has stopped: the failing instruction with its
surroundings in the text, the cell that the tape pointer was at, and the error.
-/

import TapeDialects.Report.Excerpt

namespace TapeDialects

structure Diagnostic where
  lexeme : Text
  excerpt : Excerpt
  pointer : Nat
  message : String
  deriving DecidableEq

namespace Diagnostic

def of? (text lexeme : Text) (span : Span) (pointer : Nat) (message : String) :
    Option Diagnostic :=
  (Excerpt.of? text span).map fun excerpt => { lexeme, excerpt, pointer, message }

def display (diagnostic : Diagnostic) : String :=
  String.intercalate "\n"
    ["RunTime error [operator: ` " ++ String.ofList diagnostic.lexeme ++
        " `; pointer: " ++ toString diagnostic.pointer ++ "]:",
      String.ofList diagnostic.excerpt.context,
      String.ofList diagnostic.excerpt.underline,
      diagnostic.message]

end Diagnostic
end TapeDialects
