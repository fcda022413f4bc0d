/-
The model of tape and cells that a program runs with.

A cell has a number of variants.  Unsigned cells count from zero; signed cells
have as many values below zero as from zero on.  A value that leaves the range
of a cell comes back from its other end if the cells wrap, and is an error
otherwise.  The bound on the number of variants keeps twice that number, and
with it every intermediate value of the wrapping, inside signed 64-bit words.
-/

import TapeDialects.Machine.Fault

namespace TapeDialects

/-- Half of the largest signed 64-bit word. -/
def mostVariants : Int := 4611686018427387903

structure Settings where
  tapeLength : Nat
  looped : Bool
  variants : Int
  signed : Bool
  wrapping : Bool
  tapeLength_pos : 0 < tapeLength
  tapeLength_lt : tapeLength < UInt64.size
  two_le_variants : 2 ≤ variants
  variants_le : variants ≤ mostVariants

inductive SettingsError where
  | emptyTape
  | tooFewVariants (variants : Int)
  | tooManyVariants (variants : Int)
  deriving DecidableEq

def SettingsError.message : SettingsError → String
  | emptyTape => "Tape length must be positive."
  | tooFewVariants variants =>
      s!"Cell must have at least two variants, got {variants}."
  | tooManyVariants variants =>
      s!"Cell must have at most {mostVariants} variants, got {variants}."

namespace Settings

/-- The settings with the given values, if these make sense.  An empty tape is
noticed before a bad number of variants. -/
def make (tapeLength : UInt64) (looped : Bool) (variants : Int) (signed wrapping : Bool) :
    Except SettingsError Settings :=
  if empty : tapeLength.toNat = 0 then
    .error .emptyTape
  else if few : variants < 2 then
    .error (.tooFewVariants variants)
  else if many : mostVariants < variants then
    .error (.tooManyVariants variants)
  else
    .ok
      { tapeLength := tapeLength.toNat
        looped
        variants
        signed
        wrapping
        tapeLength_pos := Nat.pos_of_ne_zero empty
        tapeLength_lt := tapeLength.toNat_lt_size
        two_le_variants := Int.not_lt.mp few
        variants_le := Int.not_lt.mp many }

/-- A looped tape of thirty thousand bytes that wrap. -/
def standard : Settings :=
  { tapeLength := 30000
    looped := true
    variants := 256
    signed := false
    wrapping := true
    tapeLength_pos := by decide
    tapeLength_lt := by decide
    two_le_variants := by decide
    variants_le := by decide }

def maximum (settings : Settings) : Int :=
  settings.variants - 1

def minimum (settings : Settings) : Int :=
  if settings.signed then -settings.variants else 0

/-- The value of a cell that differs by a multiple of the number of values. -/
def wrap (settings : Settings) (value : Int) : Int :=
  if settings.signed then
    settings.minimum + (value - settings.variants) % (settings.variants * 2)
  else
    value % settings.variants

def clampHigh (settings : Settings) (value : Int) : Except ExecutionError Int :=
  if value ≤ settings.maximum then
    .ok value
  else if settings.wrapping then
    .ok (settings.wrap value)
  else
    .error (.valueTooHigh value settings.maximum)

def clampLow (settings : Settings) (value : Int) : Except ExecutionError Int :=
  if settings.minimum ≤ value then
    .ok value
  else if settings.wrapping then
    .ok (settings.wrap value)
  else
    .error (.valueTooLow value settings.minimum)

theorem minimum_le_wrap (settings : Settings) (value : Int) :
    settings.minimum ≤ settings.wrap value := by
  have atLeastTwo := settings.two_le_variants
  by_cases signed : settings.signed
  · have bounded := Int.emod_nonneg (value - settings.variants)
      (show settings.variants * 2 ≠ 0 by omega)
    simp only [wrap, signed, if_true]
    omega
  · have bounded := Int.emod_nonneg value (show settings.variants ≠ 0 by omega)
    simpa [wrap, minimum, signed] using bounded

theorem wrap_le_maximum (settings : Settings) (value : Int) :
    settings.wrap value ≤ settings.maximum := by
  have atLeastTwo := settings.two_le_variants
  by_cases signed : settings.signed
  · have bounded := Int.emod_lt_of_pos (value - settings.variants)
      (show 0 < settings.variants * 2 by omega)
    simp only [wrap, minimum, maximum, signed, if_true]
    omega
  · have bounded := Int.emod_lt_of_pos value (show 0 < settings.variants by omega)
    simp only [wrap, maximum, signed, Bool.false_eq_true, if_false]
    omega

end Settings
end TapeDialects
