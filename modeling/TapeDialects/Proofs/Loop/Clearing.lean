/-
The loop that does nothing but lower its cell.

Each turn takes two steps and lowers the cell by one, round the range of values
where they wrap.  The residue of the cell modulo the number of its values goes
down by one with every turn, also where the value itself jumps from the smallest
to the largest, and the loop is left when it is zero.  Where values do not wrap, a
cell below zero runs into the smallest value instead.
-/

import TapeDialects.Proofs.Loop.Jump
import TapeDialects.Proofs.Machine.Clamping
import TapeDialects.Proofs.Machine.Walk

namespace TapeDialects

namespace Program

structure ClearsAt (program : Program) (index : Nat) : Prop where
  opens : program.command? index = some .loopOpen
  lowers : program.command? (index + 1) = some .decrement
  closes : program.command? (index + 2) = some .loopClose

variable {program : Program} {index : Nat}

theorem ClearsAt.loopExit_eq (clears : program.ClearsAt index) :
    program.loopExit index = index + 2 := by
  have inside := lt_size_of_command? clears.closes
  obtain ⟨ahead, counted⟩ := Nat.exists_eq_add_of_lt inside
  have whole : program.size - index = ahead + 3 := by omega
  unfold loopExit
  rw [whole, exitFrom_succ clears.opens nofun]
  exact (exitFrom_succ clears.lowers nofun).trans (exitFrom_succ clears.closes nofun)

theorem ClearsAt.loopEntry?_eq (clears : program.ClearsAt index) :
    program.loopEntry? (index + 2) = some index := by
  obtain ⟨before, counted⟩ :=
    Nat.exists_eq_add_one.mpr (pos_of_ne_start clears.opens nofun)
  have opens := clears.opens
  unfold loopEntry?
  rw [entryFrom?_succ clears.closes nofun]
  refine (entryFrom?_succ clears.lowers nofun).trans ?_
  rw [counted] at opens ⊢
  exact entryFrom?_succ opens nofun

end Program

/-! ### Residues on the way to zero -/

namespace Settings

variable {settings : Settings} {value : Int} {passed : Nat}

theorem sub_emod_of_le (early : passed ≤ value % settings.period) :
    (value - passed) % settings.period = value % settings.period - passed := by
  have below := Int.emod_lt_of_pos value settings.period_pos
  rw [← Int.emod_sub_emod]
  exact Int.emod_eq_of_lt (by omega) (by omega)

theorem not_represents_zero_of_lt (early : passed < value % settings.period) :
    ¬ settings.Represents (value - passed) 0 := by
  intro represents
  have congruent := represents.congruent
  rw [sub_emod_of_le (Int.le_of_lt early), Int.zero_emod] at congruent
  omega

theorem represents_one (counted : value % settings.period = passed + 1) :
    settings.Represents (value - passed) 1 := by
  have atLeastTwo := settings.two_le_variants
  have highest : settings.maximum = settings.variants - 1 := rfl
  have lowest := settings.minimum_nonpos
  have below := Int.emod_lt_of_pos value settings.period_pos
  refine { admitted := ⟨by omega, by omega⟩, congruent := ?congruent }
  case congruent =>
      have wide : 1 < settings.period := by
        unfold period
        omega
      rw [sub_emod_of_le (by omega), Int.emod_eq_of_lt (by omega) wide]
      omega

theorem Admits.not_represents_zero (admitted : settings.Admits value) (nonzero : value ≠ 0) :
    ¬ settings.Represents value 0 :=
  fun represents => nonzero (admitted.represents.unique represents)

theorem Admits.exists_emod_eq (admitted : settings.Admits value) (nonzero : value ≠ 0) :
    ∃ count : Nat, value % settings.period = count + 1 := by
  have low := Int.emod_nonneg value (Int.ne_of_gt settings.period_pos)
  have unlike : value % settings.period ≠ 0 := by
    intro divided
    apply admitted.not_represents_zero nonzero
    exact { admitted := settings.admits_zero, congruent := by rw [divided, Int.zero_emod] }
  exact ⟨(value % settings.period).toNat - 1, by omega⟩

theorem exists_lowered {held : Int} (represents : settings.Represents value held)
    (high : value ≤ settings.maximum)
    (stays : settings.wrapping = true ∨ settings.minimum ≤ value - 1) :
    ∃ result, settings.clampLow (held - 1) = .ok result ∧
      settings.Represents (value - 1) result := by
  have heldHigh := represents.admitted.2
  have heldStays : settings.wrapping = true ∨ settings.minimum ≤ held - 1 := by
    refine stays.imp_right (fun low => ?_)
    have within : settings.Admits value := ⟨by omega, high⟩
    have same := represents.unique within.represents
    omega
  obtain ⟨result, clamped, lowered⟩ := exists_clampLow_eq heldStays (by omega)
  refine ⟨result, clamped, lowered.congr ?_⟩
  rw [Int.sub_eq_add_neg, Int.sub_eq_add_neg]
  exact represents.add (-1)

end Settings

namespace Tape

variable {tape : Tape} {value other : Int}

theorem write_current (tape : Tape) : tape.write tape.current = tape := by
  unfold write current Array.setIfInBounds
  split
  · next inside =>
      exact congrArg (Tape.mk · tape.pointer) (Array.set_getElem_self inside)
  · rfl

theorem write_write (tape : Tape) (value other : Int) :
    (tape.write value).write other = tape.write other := by
  unfold write
  rw [Array.setIfInBounds_setIfInBounds]

theorem current_write (inside : tape.pointer < tape.cells.size) (value : Int) :
    (tape.write value).current = value := by
  unfold write current
  rw [Array.getD_eq_getD_getElem?, Array.getElem?_setIfInBounds_self, if_pos inside,
    Option.getD_some]

theorem pointer_lt_of_current_ne_zero (nonzero : tape.current ≠ 0) :
    tape.pointer < tape.cells.size := by
  by_contra outside
  apply nonzero
  unfold current
  rw [Array.getD_eq_getD_getElem?, Array.getElem?_eq_none (Nat.le_of_not_lt outside),
    Option.getD_none]

end Tape

/-! ### Turns -/

namespace Machine

def holding (machine : Machine) (value : Int) (cursor : Nat) : Machine :=
  { machine with
    state := { machine.state with tape := machine.state.tape.write value }
    cursor }

/-- So many steps are taken, and none of them starts at a place of the program. -/
def StaysOff (settings : Settings) (program : Program) (place count : Nat)
    (machine : Machine) : Prop :=
  ∀ earlier < count, ∃ between,
    machine.stepped? settings program earlier = some between ∧ between.cursor ≠ place

variable {settings : Settings} {program : Program} {machine later : Machine}
  {index place count : Nat}

theorem holding_holding (machine : Machine) (value other : Int) (cursor further : Nat) :
    (machine.holding value cursor).holding other further = machine.holding other further := by
  unfold holding
  simp only
  rw [Tape.write_write]

theorem holding_current (machine : Machine) :
    machine.holding machine.state.tape.current machine.cursor = machine := by
  unfold holding
  rw [Tape.write_current]

theorem current_holding (inside : machine.state.tape.pointer < machine.state.tape.cells.size)
    (value : Int) (cursor : Nat) : (machine.holding value cursor).state.tape.current = value :=
  Tape.current_write inside value

theorem inside_holding (inside : machine.state.tape.pointer < machine.state.tape.cells.size)
    (value : Int) (cursor : Nat) :
    (machine.holding value cursor).state.tape.pointer <
      (machine.holding value cursor).state.tape.cells.size := by
  unfold holding Tape.write
  rw [Array.size_setIfInBounds]
  exact inside

theorem StaysOff.before (elsewhere : machine.cursor ≠ place)
    (stepped : machine.step settings program = .done later)
    (further : later.StaysOff settings program place count) :
    machine.StaysOff settings program place (count + 1) := by
  intro earlier early
  cases earlier with
  | zero => exact ⟨machine, rfl, elsewhere⟩
  | succ earlier =>
      rw [stepped?_succ_of_done stepped]
      exact further earlier (Nat.lt_of_succ_lt_succ early)

theorem StaysOff.append (staysOff : machine.StaysOff settings program place count)
    (reached : machine.stepped? settings program count = some later) {more : Nat}
    (further : later.StaysOff settings program place more) :
    machine.StaysOff settings program place (count + more) := by
  intro earlier early
  rcases Nat.lt_or_ge earlier count with before | behind
  · exact staysOff earlier before
  · obtain ⟨rest, same⟩ := Nat.exists_eq_add_of_le behind
    rw [same, stepped?_add reached]
    exact further rest (by omega)

theorem step_decrement_of_clampLow (lowers : program.command? machine.cursor = some .decrement)
    {result : Int} (clamped : settings.clampLow (machine.state.tape.current - 1) = .ok result) :
    machine.step settings program = .done (machine.holding result (machine.cursor + 1)) := by
  have acted : machine.state.tape.decrement settings =
      .done (machine.state.tape.write result) := by
    unfold Tape.decrement
    rw [clamped]
    rfl
  have performed : machine.state.perform settings .decrement =
      .done { machine.state with tape := machine.state.tape.write result } :=
    State.onTape_of_done acted machine.state.console
  exact step_done_of_plain (Program.effective_eq_ok lowers nofun) (by decide) performed

theorem step_decrement_of_clampLow_error
    (lowers : program.command? machine.cursor = some .decrement) {error : ExecutionError}
    (clamped : settings.clampLow (machine.state.tape.current - 1) = .error error) :
    machine.step settings program = .failed (.execution error) machine := by
  have acted : machine.state.tape.decrement settings = .failed error machine.state.tape := by
    unfold Tape.decrement
    rw [clamped]
    rfl
  have performed : machine.state.perform settings .decrement =
      .failed (.execution error) machine.state :=
    State.onTape_of_failed acted machine.state.console
  exact step_failed_of_plain (Program.effective_eq_ok lowers nofun) (by decide) performed

theorem turn (clears : program.ClearsAt index) (here : machine.cursor = index + 1)
    (inside : machine.state.tape.pointer < machine.state.tape.cells.size) {result : Int}
    (clamped : settings.clampLow (machine.state.tape.current - 1) = .ok result) :
    machine.stepped? settings program 2 =
        some (machine.holding result (if result = 0 then index + 3 else index + 1)) ∧
      machine.StaysOff settings program (index + 3) 2 := by
  have lowers : program.command? machine.cursor = some .decrement := by
    rw [here]
    exact clears.lowers
  have lowered := step_decrement_of_clampLow lowers clamped
  rw [here] at lowered
  have current := current_holding inside result (index + 2)
  have closed : (machine.holding result (index + 2)).step settings program =
      .done (machine.holding result (if result = 0 then index + 3 else index + 1)) := by
    by_cases zero : result = 0
    · rw [if_pos zero, step_loopClose_of_zero clears.closes (current.trans zero)]
      rfl
    · rw [if_neg zero,
        step_loopClose_of_some clears.closes (by rw [current]; exact zero) clears.loopEntry?_eq]
      rfl
  constructor
  · rw [stepped?_succ_of_done lowered, stepped?_succ_of_done closed]
    rfl
  · refine .before (by omega) lowered (.before ?_ closed nofun)
    exact Nat.ne_of_lt (Nat.lt_succ_self (index + 2))

/-- So many turns, on none of which the cell stands for zero. -/
theorem exists_stepped?_turns (clears : program.ClearsAt index)
    (here : machine.cursor = index + 1)
    (inside : machine.state.tape.pointer < machine.state.tape.cells.size)
    (admitted : settings.Admits machine.state.tape.current) (turns : Nat)
    (apart : ∀ passed : Nat, 0 < passed → passed ≤ turns →
      ¬ settings.Represents (machine.state.tape.current - passed) 0)
    (stays : settings.wrapping = true ∨
      settings.minimum ≤ machine.state.tape.current - turns) :
    ∃ result, settings.Represents (machine.state.tape.current - turns) result ∧
      machine.stepped? settings program (2 * turns) =
        some (machine.holding result (index + 1)) ∧
      machine.StaysOff settings program (index + 3) (2 * turns) := by
  induction turns with
  | zero =>
      refine ⟨machine.state.tape.current, ?_, ?_, nofun⟩
      · simpa using admitted.represents
      · rw [← here, holding_current]
        rfl
  | succ turns ih =>
      obtain ⟨value, represents, reached, staysOff⟩ :=
        ih (fun passed positive early => apart passed positive (Nat.le_succ_of_le early))
          (stays.imp_right (fun low => by omega))
      have below : machine.state.tape.current - (turns + 1 : Nat) =
          machine.state.tape.current - turns - 1 := by omega
      have high : machine.state.tape.current - turns ≤ settings.maximum := by
        have bound := admitted.2
        omega
      rw [below] at stays
      obtain ⟨result, clamped, counted⟩ := Settings.exists_lowered represents high stays
      rw [← below] at counted
      have nonzero : result ≠ 0 := by
        intro zero
        rw [zero] at counted
        exact apart (turns + 1) turns.succ_pos (Nat.le_refl _) counted
      have reads := current_holding inside value (index + 1)
      rw [← reads] at clamped
      have turned := turn clears rfl (inside_holding inside value (index + 1)) clamped
      rw [if_neg nonzero, holding_holding] at turned
      refine ⟨result, counted, ?_, staysOff.append reached turned.2⟩
      rw [Nat.mul_succ, stepped?_add reached]
      exact turned.1

/-! ### The loop as a whole -/

theorem exists_stepped?_inside (clears : program.ClearsAt machine.cursor)
    (admitted : settings.Admits machine.state.tape.current)
    (nonzero : machine.state.tape.current ≠ 0) (turns : Nat)
    (apart : ∀ passed : Nat, 0 < passed → passed ≤ turns →
      ¬ settings.Represents (machine.state.tape.current - passed) 0)
    (stays : settings.wrapping = true ∨
      settings.minimum ≤ machine.state.tape.current - turns) :
    ∃ result, settings.Represents (machine.state.tape.current - turns) result ∧
      machine.stepped? settings program (1 + 2 * turns) =
        some (machine.holding result (machine.cursor + 1)) ∧
      machine.StaysOff settings program (machine.cursor + 3) (1 + 2 * turns) := by
  have entered : machine.step settings program = .done machine.advance :=
    step_loopOpen_of_ne_zero clears.opens nonzero
  have begun : machine.advance.cursor = machine.cursor + 1 := rfl
  obtain ⟨result, represents, reached, staysOff⟩ :=
    exists_stepped?_turns clears begun (Tape.pointer_lt_of_current_ne_zero nonzero) admitted turns
      apart stays
  refine ⟨result, represents, ?_, ?_⟩
  · rw [Nat.add_comm 1, stepped?_succ_of_done entered]
    exact reached
  · rw [Nat.add_comm 1]
    exact .before (by omega) entered staysOff

/-- The loop is left with a zero in the current cell, and nothing else has changed. -/
structure Cleared (machine later : Machine) : Prop where
  cursor : later.cursor = machine.cursor + 3
  current : later.state.tape.current = 0
  cells : ∀ other, other ≠ machine.state.tape.pointer →
    later.state.tape.cells[other]? = machine.state.tape.cells[other]?
  pointer : later.state.tape.pointer = machine.state.tape.pointer
  console : later.state.console = machine.state.console
  running : later.running = machine.running

theorem cleared_holding (machine : Machine) :
    machine.Cleared (machine.holding 0 (machine.cursor + 3)) := by
  refine { cursor := rfl, current := ?current, cells := ?cells, pointer := rfl, console := rfl,
           running := rfl }
  case current =>
      unfold holding Tape.write Tape.current
      rw [Array.getD_eq_getD_getElem?, Array.getElem?_setIfInBounds_self]
      split <;> rfl
  case cells =>
      intro other apart
      exact Array.getElem?_setIfInBounds_ne (Ne.symm apart)

structure ClearsCell (settings : Settings) (program : Program) (machine : Machine) : Prop where
  clears : settings.wrapping = true ∨ 0 ≤ machine.state.tape.current →
    ∃ later,
      machine.stepped? settings program
          (1 + 2 * (machine.state.tape.current % settings.period).toNat) = some later ∧
      machine.Cleared later ∧
      machine.StaysOff settings program (machine.cursor + 3)
        (1 + 2 * (machine.state.tape.current % settings.period).toNat)
  fails : settings.wrapping = false → machine.state.tape.current < 0 →
    ∃ later,
      machine.stepped? settings program
          (1 + 2 * (machine.state.tape.current - settings.minimum).toNat) = some later ∧
      later.state.tape.current = settings.minimum ∧
      later.step settings program =
        .failed (.execution (.valueTooLow (settings.minimum - 1) settings.minimum)) later

theorem stepped?_of_current_eq_zero (settings : Settings) (clears : program.ClearsAt machine.cursor)
    (zero : machine.state.tape.current = 0) :
    machine.stepped? settings program 1 = some (machine.holding 0 (machine.cursor + 3)) ∧
      machine.StaysOff settings program (machine.cursor + 3) 1 := by
  have passed : machine.step settings program =
      .done (machine.holding 0 (machine.cursor + 3)) := by
    rw [step_loopOpen_of_zero clears.opens zero, clears.loopExit_eq]
    unfold holding
    rw [← zero, Tape.write_current]
  exact ⟨stepped?_succ_of_done passed 0, .before (by omega) passed nofun⟩

/-- All turns but the last take a cell to one, and the last one takes it to zero. -/
theorem stepped?_of_current_emod_eq (clears : program.ClearsAt machine.cursor)
    (admitted : settings.Admits machine.state.tape.current)
    (nonzero : machine.state.tape.current ≠ 0) {turns : Nat}
    (counted : machine.state.tape.current % settings.period = turns + 1)
    (stays : settings.wrapping = true ∨
      settings.minimum ≤ machine.state.tape.current - turns) :
    machine.stepped? settings program (1 + 2 * turns + 2) =
        some (machine.holding 0 (machine.cursor + 3)) ∧
      machine.StaysOff settings program (machine.cursor + 3) (1 + 2 * turns + 2) := by
  have inside := Tape.pointer_lt_of_current_ne_zero nonzero
  have apart : ∀ passed : Nat, 0 < passed → passed ≤ turns →
      ¬ settings.Represents (machine.state.tape.current - passed) 0 :=
    fun passed _ early => Settings.not_represents_zero_of_lt (by omega)
  obtain ⟨result, represents, reached, staysOff⟩ :=
    exists_stepped?_inside clears admitted nonzero turns apart stays
  have last : result = 1 := represents.unique (Settings.represents_one counted)
  have clamped : settings.clampLow
      ((machine.holding result (machine.cursor + 1)).state.tape.current - 1) = .ok 0 := by
    rw [current_holding inside, last]
    exact if_pos settings.minimum_nonpos
  have turned := turn clears rfl (inside_holding inside result _) clamped
  rw [if_pos rfl, holding_holding] at turned
  rw [stepped?_add reached]
  exact ⟨turned.1, staysOff.append reached turned.2⟩

theorem exists_cleared (clears : program.ClearsAt machine.cursor)
    (admitted : settings.Admits machine.state.tape.current)
    (stays : settings.wrapping = true ∨ 0 ≤ machine.state.tape.current) :
    ∃ later,
      machine.stepped? settings program
          (1 + 2 * (machine.state.tape.current % settings.period).toNat) = some later ∧
      machine.Cleared later ∧
      machine.StaysOff settings program (machine.cursor + 3)
        (1 + 2 * (machine.state.tape.current % settings.period).toNat) := by
  refine ⟨machine.holding 0 (machine.cursor + 3), ?_⟩
  by_cases zero : machine.state.tape.current = 0
  · obtain ⟨reached, staysOff⟩ := stepped?_of_current_eq_zero settings clears zero
    rw [zero, Int.zero_emod]
    exact ⟨reached, machine.cleared_holding, staysOff⟩
  · obtain ⟨turns, counted⟩ := admitted.exists_emod_eq zero
    have bounded : settings.wrapping = true ∨
        settings.minimum ≤ machine.state.tape.current - turns := by
      refine stays.imp_right (fun low => ?_)
      have lowest := settings.minimum_nonpos
      have high := admitted.2
      have whole : machine.state.tape.current % settings.period = machine.state.tape.current := by
        apply Int.emod_eq_of_lt low
        unfold Settings.period
        omega
      omega
    obtain ⟨reached, staysOff⟩ := stepped?_of_current_emod_eq clears admitted zero counted bounded
    have steps : 1 + 2 * (machine.state.tape.current % settings.period).toNat =
        1 + 2 * turns + 2 := by omega
    rw [steps]
    exact ⟨reached, machine.cleared_holding, staysOff⟩

theorem exists_stuck_at_minimum (clears : program.ClearsAt machine.cursor)
    (low : settings.minimum ≤ machine.state.tape.current) (strict : settings.wrapping = false)
    (negative : machine.state.tape.current < 0) :
    ∃ later,
      machine.stepped? settings program
          (1 + 2 * (machine.state.tape.current - settings.minimum).toNat) = some later ∧
      later.state.tape.current = settings.minimum ∧
      later.step settings program =
        .failed (.execution (.valueTooLow (settings.minimum - 1) settings.minimum)) later := by
  have inside := Tape.pointer_lt_of_current_ne_zero (Int.ne_of_lt negative)
  have highest := settings.admits_zero.2
  obtain ⟨turns, counted⟩ := Int.eq_ofNat_of_zero_le (Int.sub_nonneg_of_le low)
  have lowest : machine.state.tape.current - turns = settings.minimum := by omega
  have apart : ∀ passed : Nat, 0 < passed → passed ≤ turns →
      ¬ settings.Represents (machine.state.tape.current - passed) 0 := by
    intro passed _ early
    have within : settings.Admits (machine.state.tape.current - passed) :=
      ⟨by omega, by omega⟩
    exact within.not_represents_zero (by omega)
  obtain ⟨result, represents, reached, -⟩ :=
    exists_stepped?_inside clears ⟨low, by omega⟩ (Int.ne_of_lt negative) turns apart
      (Or.inr (Int.le_of_eq lowest.symm))
  have bottom : settings.Admits settings.minimum := ⟨Int.le_refl _, by omega⟩
  rw [lowest] at represents
  have last : result = settings.minimum := represents.unique bottom.represents
  have reads := current_holding inside result (machine.cursor + 1)
  have clamped : settings.clampLow
      ((machine.holding result (machine.cursor + 1)).state.tape.current - 1) =
        .error (.valueTooLow (settings.minimum - 1) settings.minimum) := by
    rw [reads, last]
    exact Settings.clampLow_minimum_sub_one strict
  refine ⟨_, ?_, reads.trans last, step_decrement_of_clampLow_error clears.lowers clamped⟩
  rw [counted, Int.toNat_natCast]
  exact reached

theorem clearsCell_of_admits (clears : program.ClearsAt machine.cursor)
    (admitted : settings.Admits machine.state.tape.current) :
    machine.ClearsCell settings program :=
  { clears := exists_cleared clears admitted
    fails := exists_stuck_at_minimum clears admitted.1 }

def fewValues (wrapping : Bool) : Settings :=
  { tapeLength := 6
    looped := false
    variants := 2
    signed := true
    wrapping
    tapeLength_pos := by decide
    tapeLength_lt := by decide
    two_le_variants := by decide
    variants_le := by decide }

def clearLoop : List Instruction :=
  [.startingAt 0 .loopOpen ['['], .startingAt 1 .decrement ['-'], .startingAt 2 .loopClose [']']]

def atLowest : Machine :=
  { state :=
      { tape := { cells := #[1, 0, -2, -1, 0, 1], pointer := 2 }
        console := Console.ofStreams (Source.ofBytes [] none) (Sink.empty none none) }
    cursor := 1
    running := true }

/-- From the smallest value the cell comes to zero by way of the largest one, if it wraps. -/
theorem atLowest_clearsCell :
    (Program.ofInstructions "[-]".toList clearLoop).ClearsAt atLowest.cursor ∧
      (∀ wrapping, (fewValues wrapping).Admits atLowest.state.tape.current) ∧
      atLowest.state.tape.current % (fewValues true).period = 2 ∧
      atLowest.ClearsCell (fewValues true) (Program.ofInstructions "[-]".toList clearLoop) ∧
      atLowest.ClearsCell (fewValues false) (Program.ofInstructions "[-]".toList clearLoop) := by
  have clears : (Program.ofInstructions "[-]".toList clearLoop).ClearsAt atLowest.cursor :=
    ⟨rfl, rfl, rfl⟩
  have admitted : ∀ wrapping, (fewValues wrapping).Admits atLowest.state.tape.current := by
    intro wrapping
    cases wrapping <;> exact ⟨by decide, by decide⟩
  exact ⟨clears, admitted, by decide, clearsCell_of_admits clears (admitted true),
    clearsCell_of_admits clears (admitted false)⟩

end Machine
end TapeDialects
