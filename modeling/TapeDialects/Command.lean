/-
The commands of the tape language.

Eight of them are basic: every dialect has them, and the dialects that count
something refer to them by their place in the conventional order.  Two commands
mark where a program starts and stops; one runs its predecessor again; two only
print a fixed message.
-/

namespace TapeDialects

inductive Command where
  | start
  | stop
  | right
  | left
  | increment
  | decrement
  | output
  | input
  | loopOpen
  | loopClose
  | again
  | giveFishfood
  | giveBanana
  deriving DecidableEq

namespace Command

def basic : List Command :=
  [right, left, increment, decrement, output, input, loopOpen, loopClose]

/-- The basic command with a code, counted from one; the codes go round. -/
def ofCode (code : Nat) : Command :=
  basic.getD ((code - 1) % basic.length) right

theorem ofCode_mem_basic (code : Nat) : ofCode code ∈ basic := by
  have bounded : (code - 1) % basic.length < basic.length :=
    Nat.mod_lt _ (by decide)
  simp [ofCode, List.getElem?_eq_getElem bounded]

def message? : Command → Option String
  | giveFishfood => some "*Fishfood transfer takes place* - \"Blub!\""
  | giveBanana => some "*Banana transfer takes place* - \"Ook!\""
  | _ => none

end Command
end TapeDialects
