/-
Stretches of a run: a number of steps with a record of each.
-/

import TapeDialects.Machine.Step

namespace TapeDialects

structure Snapshot where
  cursor : Nat
  pointer : Nat
  current : Int
  deriving DecidableEq

structure Stretch where
  snapshots : List Snapshot
  fault? : Option Fault
  machine : Machine
  deriving DecidableEq

namespace Machine

def snapshot (machine : Machine) : Snapshot :=
  { cursor := machine.cursor
    pointer := machine.state.tape.pointer
    current := machine.state.tape.current }

/-- Take up to so many steps, until one fails or has stopped the machine. -/
def stretch (settings : Settings) (program : Program) : Nat → Machine → Stretch
  | 0, machine => { snapshots := [], fault? := none, machine }
  | count + 1, machine =>
      match machine.step settings program with
      | .failed fault machine => { snapshots := [], fault? := some fault, machine }
      | .done machine =>
          let snapshot := machine.snapshot
          if machine.running then
            let later := stretch settings program count machine
            { later with snapshots := snapshot :: later.snapshots }
          else
            { snapshots := [snapshot], fault? := none, machine }

end Machine
end TapeDialects
