/-
The known dialects.  Names are looked up without regard to the case of ASCII
letters.
-/

import TapeDialects.Dialect.Basic
import TapeDialects.Dialect.Tables

namespace TapeDialects

structure UnknownDialect where
  name : String
  deriving DecidableEq

def UnknownDialect.message (unknown : UnknownDialect) : String :=
  "unknown dialect '" ++ unknown.name ++ "'"

namespace Dialect

def all : List Dialect :=
  [{ name := "Brainfuck", reading := .unique Tables.brainfuck },
    { name := "Alphuck", reading := .unique Tables.alphuck },
    { name := "BrainSymbol", reading := .unique Tables.brainSymbol },
    { name := "!!Fuck", reading := .unique Tables.exclamationFuck },
    { name := "German", reading := .unique Tables.german },
    { name := "MessyScript", reading := .unique Tables.messyScript },
    { name := "MorseFuck", reading := .unique Tables.morseFuck },
    { name := "Pewlang", reading := .unique Tables.pewlang },
    { name := "ReverseFuck", reading := .unique Tables.reverseFuck },
    { name := "Roadrunner", reading := .unique Tables.roadrunner },
    { name := "Ternary", reading := .unique Tables.ternary },
    { name := "Triplet", reading := .unique Tables.triplet },
    { name := "UwU", reading := .unique Tables.uwu },
    { name := "Blub", reading := .unique Tables.blub },
    { name := "Ook", reading := .unique Tables.ook },
    { name := "WholesomeFuck", reading := .ranked Tables.wholesomeFuck },
    { name := "ZZZ", reading := .ranked Tables.zzz },
    { name := "FuckFuck", reading := .wildcard },
    { name := "Tally"
      reading := .countedRuns { marker := '|', terminator := ';', cycles := false } },
    { name := "Knots"
      reading := .countedRuns { marker := 'o', terminator := '-', cycles := true } },
    { name := "Lengthy", reading := .wordLength },
    { name := "Echo", reading := .selfRepetition },
    { name := "Scream", reading := .commented Tables.scream '(' ')' }]

def sameName (name other : String) : Bool :=
  name.toList.map Char.toLower == other.toList.map Char.toLower

def lookup (name : String) : Except UnknownDialect Dialect :=
  match all.find? fun dialect => sameName dialect.name name with
  | some dialect => .ok dialect
  | none => .error { name }

end Dialect
end TapeDialects
