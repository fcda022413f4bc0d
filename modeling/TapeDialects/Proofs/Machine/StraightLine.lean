/-
Programs of moves and changes alone.

Such a program computes what it would on an endless row of unbounded numbers, taken
round the tape and into the range of the cells.  Where the tape is not looped or
values do not wrap it goes as far as these numbers stay inside: the first prefix of
it that takes them out fails, by the error that says where they have gone, and the
tape is left as it was before.
-/

import TapeDialects.Proofs.Loop.Insertion
import TapeDialects.Proofs.Machine.Balance
import TapeDialects.Proofs.Machine.Clamping

namespace TapeDialects

namespace Command

def change : Command → Int
  | increment => 1
  | decrement => -1
  | _ => 0

theorem eq_right_of_drift {command : Command} (moves : 0 < command.drift) : command = right := by
  revert moves
  cases command <;> decide

theorem eq_left_of_drift {command : Command} (moves : command.drift < 0) : command = left := by
  revert moves
  cases command <;> decide

theorem eq_increment_of_change {command : Command} (changes : 0 < command.change) :
    command = increment := by
  revert changes
  cases command <;> decide

theorem eq_decrement_of_change {command : Command} (changes : command.change < 0) :
    command = decrement := by
  revert changes
  cases command <;> decide

theorem travel_append (front back : List Command) :
    travel (front ++ back) = travel front + travel back := by
  induction front with
  | nil => exact (Int.zero_add _).symm
  | cons command front ih => rw [List.cons_append, travel, travel, ih, Int.add_assoc]

theorem offsets_append (command : Command) (offset : Int) (front back : List Command) :
    offsets command offset (front ++ back) =
      offsets command offset front ++ offsets command (offset + travel front) back := by
  induction front generalizing offset with
  | nil =>
      rw [travel, Int.add_zero]
      rfl
  | cons first front ih =>
      rw [List.cons_append, offsets_cons, ih, offsets_cons command offset first front, travel,
        Int.add_assoc, List.append_assoc]

theorem travel_append_singleton (commands : List Command) (command : Command) :
    travel (commands ++ [command]) = travel commands + command.drift := by
  rw [travel_append, travel, travel, Int.add_zero]

end Command

namespace Settings

variable {settings : Settings} {commands : List Command} {command : Command}
  {error : ExecutionError}

/-- Taken round the tape, an offset from its first cell leads to the cell with the index. -/
def landsAt (settings : Settings) (index : Nat) (offset : Int) : Bool :=
  offset % settings.tapeLength = index

/-- How often commands raise a cell, less how often they lower it. -/
def total (settings : Settings) (commands : List Command) (index : Nat) : Int :=
  (Command.offsets .increment 0 commands).countP (settings.landsAt index) -
    (Command.offsets .decrement 0 commands).countP (settings.landsAt index)

theorem total_append_singleton (settings : Settings) (commands : List Command)
    (command : Command) (index : Nat) :
    settings.total (commands ++ [command]) index =
      settings.total commands index +
        if settings.landsAt index (Command.travel commands) then command.change else 0 := by
  unfold total
  rw [Command.offsets_append, Command.offsets_append .decrement, Int.zero_add, List.countP_append,
    List.countP_append]
  cases command with
  | increment =>
      simp only [Command.offsets, Command.change, if_true, reduceCtorEq, if_false,
        List.countP_nil, List.countP_singleton]
      split <;> omega
  | decrement =>
      simp only [Command.offsets, Command.change, if_true, reduceCtorEq, if_false,
        List.countP_nil, List.countP_singleton]
      split <;> omega
  | _ =>
      simp only [Command.offsets, Command.change, reduceCtorEq, if_false, List.countP_nil, ite_self]
      omega

/-- The commands have just left the tape or the range of a cell, in a way that is an error. -/
inductive Breach (settings : Settings) (commands : List Command) : ExecutionError → Prop where
  | pointerTooLow (bounded : settings.looped = false) (left : Command.travel commands = -1) :
      Breach settings commands .pointerTooLow
  | pointerTooHigh (bounded : settings.looped = false)
      (left : Command.travel commands = settings.tapeLength) :
      Breach settings commands (.pointerTooHigh settings.tapeLength (settings.tapeLength - 1))
  | valueTooLow (strict : settings.wrapping = false) {index : Nat}
      (inside : index < settings.tapeLength)
      (left : settings.total commands index = settings.minimum - 1) :
      Breach settings commands (.valueTooLow (settings.minimum - 1) settings.minimum)
  | valueTooHigh (strict : settings.wrapping = false) {index : Nat}
      (inside : index < settings.tapeLength)
      (left : settings.total commands index = settings.maximum + 1) :
      Breach settings commands (.valueTooHigh (settings.maximum + 1) settings.maximum)

def Illegal (settings : Settings) (commands : List Command) : Prop :=
  ∃ error, settings.Breach commands error

theorem illegal_iff :
    settings.Illegal commands ↔
      settings.looped = false ∧
          (Command.travel commands = -1 ∨ Command.travel commands = settings.tapeLength) ∨
        settings.wrapping = false ∧ ∃ index < settings.tapeLength,
          settings.total commands index = settings.minimum - 1 ∨
            settings.total commands index = settings.maximum + 1 := by
  constructor
  · rintro ⟨error, breach⟩
    cases breach with
    | pointerTooLow bounded left => exact Or.inl ⟨bounded, Or.inl left⟩
    | pointerTooHigh bounded left => exact Or.inl ⟨bounded, Or.inr left⟩
    | valueTooLow strict inside left => exact Or.inr ⟨strict, _, inside, Or.inl left⟩
    | valueTooHigh strict inside left => exact Or.inr ⟨strict, _, inside, Or.inr left⟩
  · rintro (⟨bounded, left | left⟩ | ⟨strict, index, inside, left | left⟩)
    · exact ⟨_, .pointerTooLow bounded left⟩
    · exact ⟨_, .pointerTooHigh bounded left⟩
    · exact ⟨_, .valueTooLow strict inside left⟩
    · exact ⟨_, .valueTooHigh strict inside left⟩

instance : Decidable (settings.Illegal commands) :=
  decidable_of_iff _ illegal_iff.symm

/-- Where moves are bounded they have stayed on the tape, and where changes are bounded they
have stayed in the range of the cells. -/
structure Lawful (settings : Settings) (commands : List Command) : Prop where
  within : settings.looped = false →
    0 ≤ Command.travel commands ∧ Command.travel commands < settings.tapeLength
  admitted : settings.wrapping = false → ∀ index < settings.tapeLength,
    settings.Admits (settings.total commands index)

theorem lawful_nil (settings : Settings) : settings.Lawful [] :=
  { within := fun _ => ⟨Int.le_refl 0, Int.natCast_pos.mpr settings.tapeLength_pos⟩
    admitted := fun _ _ _ => settings.admits_zero }

theorem Lawful.legal (lawful : settings.Lawful commands) : ¬ settings.Illegal commands := by
  rintro ⟨error, breach⟩
  cases breach with
  | pointerTooLow bounded left =>
      have low := (lawful.within bounded).1
      omega
  | pointerTooHigh bounded left =>
      have high := (lawful.within bounded).2
      omega
  | valueTooLow strict inside left =>
      have low := (lawful.admitted strict _ inside).1
      omega
  | valueTooHigh strict inside left =>
      have high := (lawful.admitted strict _ inside).2
      omega

theorem Lawful.append_singleton (lawful : settings.Lawful commands)
    (legal : ¬ settings.Illegal (commands ++ [command])) :
    settings.Lawful (commands ++ [command]) := by
  refine { within := ?within, admitted := ?admitted }
  case within =>
      intro bounded
      obtain ⟨low, high⟩ := lawful.within bounded
      have notLow : Command.travel (commands ++ [command]) ≠ -1 :=
        fun left => legal ⟨_, .pointerTooLow bounded left⟩
      have notHigh : Command.travel (commands ++ [command]) ≠ settings.tapeLength :=
        fun left => legal ⟨_, .pointerTooHigh bounded left⟩
      have near : -1 ≤ command.drift ∧ command.drift ≤ 1 := by
        cases command <;> decide
      rw [Command.travel_append_singleton] at notLow notHigh ⊢
      omega
  case admitted =>
      intro strict index inside
      obtain ⟨low, high⟩ := lawful.admitted strict index inside
      have notLow : settings.total (commands ++ [command]) index ≠ settings.minimum - 1 :=
        fun left => legal ⟨_, .valueTooLow strict inside left⟩
      have notHigh : settings.total (commands ++ [command]) index ≠ settings.maximum + 1 :=
        fun left => legal ⟨_, .valueTooHigh strict inside left⟩
      have near : -1 ≤ command.change ∧ command.change ≤ 1 := by
        cases command <;> decide
      rw [total_append_singleton] at notLow notHigh ⊢
      by_cases lands : settings.landsAt index (Command.travel commands)
      · rw [if_pos lands] at notLow notHigh ⊢
        exact ⟨by omega, by omega⟩
      · rw [if_neg lands, Int.add_zero]
        exact ⟨low, high⟩

end Settings

/-! ### The tape behind commands -/

namespace Tape

variable {settings : Settings} {commands : List Command} {command : Command} {tape : Tape}
  {error : ExecutionError}

/-- A blank tape on which commands have been carried out. -/
def After (settings : Settings) (commands : List Command) (tape : Tape) : Prop :=
  Balance.Behind settings (blank settings.tapeLength) 0 [] [] commands tape

/-- The pointer is where the moves lead round the tape, and each cell holds the value that
stands for its total. -/
structure Computes (settings : Settings) (commands : List Command) (tape : Tape) : Prop where
  length : tape.cells.size = settings.tapeLength
  pointer : (tape.pointer : Int) = Command.travel commands % settings.tapeLength
  cells : ∀ index < settings.tapeLength, ∀ value,
    tape.cells[index]? = some value ↔ settings.Represents (settings.total commands index) value

theorem landsOn_blank (settings : Settings) :
    (blank settings.tapeLength).landsOn settings = settings.landsAt := by
  funext index offset
  unfold landsOn Settings.landsAt blank
  rw [Int.natCast_zero, Int.zero_add]

namespace After

theorem represents (after : tape.After settings commands) {index : Nat}
    (inside : index < settings.tapeLength) :
    settings.Represents (settings.total commands index) (tape.cells.getD index 0) := by
  have cells := Balance.cells after index inside
  have empty : (blank settings.tapeLength).cells.getD index 0 = 0 := by
    unfold blank
    rw [Array.getD_eq_getD_getElem?, Array.getElem?_replicate, if_pos inside, Option.getD_some]
  rw [landsOn_blank, empty, Int.zero_add, List.nil_append, List.nil_append] at cells
  exact cells

theorem pointer_eq_emod (after : tape.After settings commands) :
    (tape.pointer : Int) = Command.travel commands % settings.tapeLength := by
  have pointer := Balance.pointer after
  unfold blank at pointer
  rwa [Int.natCast_zero, Int.zero_add, Int.zero_add] at pointer

theorem computes (after : tape.After settings commands) : tape.Computes settings commands := by
  have length := (Balance.sound after).length
  refine { length, pointer := after.pointer_eq_emod, cells := ?cells }
  case cells =>
      intro index inside value
      have represents := after.represents inside
      rw [← length] at inside
      rw [Array.getD_eq_getD_getElem?, Array.getElem?_eq_getElem inside, Option.getD_some]
        at represents
      rw [Array.getElem?_eq_getElem inside, Option.some.injEq]
      constructor
      · intro same
        rw [← same]
        exact represents
      · intro otherwise
        exact represents.unique otherwise

theorem pointer_eq (after : tape.After settings commands) (lawful : settings.Lawful commands)
    (bounded : settings.looped = false) : (tape.pointer : Int) = Command.travel commands := by
  obtain ⟨low, high⟩ := lawful.within bounded
  rw [after.pointer_eq_emod, Int.emod_eq_of_lt low high]

theorem current_eq (after : tape.After settings commands) (lawful : settings.Lawful commands)
    (strict : settings.wrapping = false) :
    tape.current = settings.total commands tape.pointer := by
  have inside := (Balance.sound after).pointer_lt
  exact (after.represents inside).unique (lawful.admitted strict _ inside).represents

theorem landsAt_iff (after : tape.After settings commands) (index : Nat) :
    settings.landsAt index (Command.travel commands) = true ↔ index = tape.pointer := by
  unfold Settings.landsAt
  rw [decide_eq_true_iff, ← after.pointer_eq_emod, Int.ofNat_inj]
  exact eq_comm

theorem allows (after : tape.After settings commands) (lawful : settings.Lawful commands)
    (further : settings.Lawful (commands ++ [command])) : tape.Allows settings command := by
  have inside := (Balance.sound after).pointer_lt
  have here := (after.landsAt_iff tape.pointer).mpr rfl
  refine { right := ?right, left := ?left, increment := ?increment, decrement := ?decrement }
  case right =>
      intro same
      cases bounded : settings.looped with
      | true => exact Or.inl rfl
      | false =>
          have reached := after.pointer_eq lawful bounded
          have stays := (further.within bounded).2
          rw [Command.travel_append_singleton, same, Command.drift] at stays
          exact Or.inr (by omega)
  case left =>
      intro same
      cases bounded : settings.looped with
      | true => exact Or.inl rfl
      | false =>
          have reached := after.pointer_eq lawful bounded
          have stays := (further.within bounded).1
          rw [Command.travel_append_singleton, same, Command.drift] at stays
          exact Or.inr (by omega)
  case increment =>
      intro same
      cases strict : settings.wrapping with
      | true => exact Or.inl rfl
      | false =>
          have held := after.current_eq lawful strict
          have stays := (further.admitted strict _ inside).2
          rw [Settings.total_append_singleton, if_pos here, same, Command.change, ← held] at stays
          exact Or.inr stays
  case decrement =>
      intro same
      cases strict : settings.wrapping with
      | true => exact Or.inl rfl
      | false =>
          have held := after.current_eq lawful strict
          have stays := (further.admitted strict _ inside).1
          rw [Settings.total_append_singleton, if_pos here, same, Command.change, ← held] at stays
          exact Or.inr stays

theorem moveLeft_of_breach (after : tape.After settings commands)
    (lawful : settings.Lawful commands) (bounded : settings.looped = false)
    (left : Command.travel (commands ++ [command]) = -1) :
    command = .left ∧ tape.moveLeft settings = .failed .pointerTooLow tape := by
  have low := (lawful.within bounded).1
  have reached := after.pointer_eq lawful bounded
  rw [Command.travel_append_singleton] at left
  have moves : command = .left := Command.eq_left_of_drift (by omega)
  rw [moves, Command.drift] at left
  refine ⟨moves, ?_⟩
  unfold moveLeft
  rw [if_neg (by omega), bounded]
  rfl

theorem moveRight_of_breach (after : tape.After settings commands)
    (lawful : settings.Lawful commands) (bounded : settings.looped = false)
    (left : Command.travel (commands ++ [command]) = settings.tapeLength) :
    command = .right ∧ tape.moveRight settings =
      .failed (.pointerTooHigh settings.tapeLength (settings.tapeLength - 1)) tape := by
  have high := (lawful.within bounded).2
  have reached := after.pointer_eq lawful bounded
  rw [Command.travel_append_singleton] at left
  have moves : command = .right := Command.eq_right_of_drift (by omega)
  rw [moves, Command.drift] at left
  have last : tape.pointer + 1 = settings.tapeLength := by omega
  refine ⟨moves, ?_⟩
  unfold moveRight
  rw [if_neg (by omega), bounded, last]
  rfl

theorem total_of_breach (after : tape.After settings commands)
    (lawful : settings.Lawful commands) (strict : settings.wrapping = false) {index : Nat}
    (inside : index < settings.tapeLength)
    (left : ¬ settings.Admits (settings.total (commands ++ [command]) index)) :
    settings.total (commands ++ [command]) index = tape.current + command.change := by
  have lands := after.landsAt_iff index
  rw [Settings.total_append_singleton] at left ⊢
  by_cases here : index = tape.pointer
  · rw [if_pos (lands.mpr here), here, ← after.current_eq lawful strict]
  · rw [if_neg (fun on => here (lands.mp on)), Int.add_zero] at left
    exact absurd (lawful.admitted strict index inside) left

theorem decrement_of_breach (after : tape.After settings commands)
    (lawful : settings.Lawful commands) (strict : settings.wrapping = false) {index : Nat}
    (inside : index < settings.tapeLength)
    (left : settings.total (commands ++ [command]) index = settings.minimum - 1) :
    command = .decrement ∧ tape.decrement settings =
      .failed (.valueTooLow (settings.minimum - 1) settings.minimum) tape := by
  have outside : ¬ settings.Admits (settings.total (commands ++ [command]) index) := by
    intro admitted
    exact absurd admitted.1 (by omega)
  have low := (Balance.sound after).current_admitted.1
  rw [after.total_of_breach lawful strict inside outside] at left
  have changes : command = .decrement := Command.eq_decrement_of_change (by omega)
  rw [changes, Command.change] at left
  have below : tape.current - 1 = settings.minimum - 1 := left
  refine ⟨changes, ?_⟩
  unfold decrement
  rw [below, Settings.clampLow_minimum_sub_one strict]
  rfl

theorem increment_of_breach (after : tape.After settings commands)
    (lawful : settings.Lawful commands) (strict : settings.wrapping = false) {index : Nat}
    (inside : index < settings.tapeLength)
    (left : settings.total (commands ++ [command]) index = settings.maximum + 1) :
    command = .increment ∧ tape.increment settings =
      .failed (.valueTooHigh (settings.maximum + 1) settings.maximum) tape := by
  have outside : ¬ settings.Admits (settings.total (commands ++ [command]) index) := by
    intro admitted
    exact absurd admitted.2 (by omega)
  have high := (Balance.sound after).current_admitted.2
  rw [after.total_of_breach lawful strict inside outside] at left
  have changes : command = .increment := Command.eq_increment_of_change (by omega)
  rw [changes, Command.change] at left
  refine ⟨changes, ?_⟩
  unfold increment
  rw [left, Settings.clampHigh_maximum_add_one strict]
  rfl

theorem perform_failed_of_breach (after : tape.After settings commands)
    (lawful : settings.Lawful commands)
    (breach : settings.Breach (commands ++ [command]) error) (console : Console) :
    State.perform settings command { tape, console } =
      .failed (.execution error) { tape, console } := by
  cases breach with
  | pointerTooLow bounded left =>
      obtain ⟨rfl, failed⟩ := after.moveLeft_of_breach lawful bounded left
      exact State.onTape_of_failed failed console
  | pointerTooHigh bounded left =>
      obtain ⟨rfl, failed⟩ := after.moveRight_of_breach lawful bounded left
      exact State.onTape_of_failed failed console
  | valueTooLow strict inside left =>
      obtain ⟨rfl, failed⟩ := after.decrement_of_breach lawful strict inside left
      exact State.onTape_of_failed failed console
  | valueTooHigh strict inside left =>
      obtain ⟨rfl, failed⟩ := after.increment_of_breach lawful strict inside left
      exact State.onTape_of_failed failed console

end After

end Tape

/-! ### Prefixes -/

namespace Settings

variable {settings : Settings} {commands : List Command} {count : Nat}

theorem lawful_take (legal : ∀ earlier ≤ count, ¬ settings.Illegal (commands.take earlier)) :
    settings.Lawful (commands.take count) := by
  induction count with
  | zero => exact settings.lawful_nil
  | succ count ih =>
      have before := ih (fun earlier early => legal earlier (Nat.le_succ_of_le early))
      have now := legal (count + 1) (Nat.le_refl _)
      rw [List.take_add_one] at now ⊢
      cases next : commands[count]? with
      | none =>
          rw [Option.toList_none, List.append_nil]
          exact before
      | some command =>
          rw [next, Option.toList_some] at now
          exact before.append_singleton now

theorem exists_walks_take (free : ∀ command ∈ commands, command ∈ Command.tapeActs)
    (legal : ∀ earlier ≤ count, ¬ settings.Illegal (commands.take earlier)) :
    ∃ later, Tape.Walks settings (commands.take count) (Tape.blank settings.tapeLength) later ∧
      later.After settings (commands.take count) := by
  apply (Tape.blank_sound settings).balance_self.exists_walks
  · intro command member
    exact free command (List.mem_of_mem_take member)
  · intro front command back parts between after
    have counted : front.length + (back.length + 1) ≤ count := by
      have length := congrArg List.length parts
      rw [List.length_take, List.length_append, List.length_cons] at length
      omega
    have whole : front ++ command :: back <+: commands := by
      rw [← parts]
      exact List.take_prefix count commands
    have earlier : front = commands.take front.length :=
      List.prefix_iff_eq_take.mp ((List.prefix_append front _).trans whole)
    have further : front ++ [command] = commands.take (front.length + 1) := by
      have shorter : front ++ [command] <+: commands := by
        refine List.IsPrefix.trans ⟨back, ?_⟩ whole
        rw [List.append_assoc, List.singleton_append]
      rw [List.prefix_iff_eq_take.mp shorter, List.length_append, List.length_singleton]
    refine Tape.After.allows after ?_ ?_
    · rw [earlier]
      exact lawful_take (fun place early => legal place (by omega))
    · rw [further]
      exact lawful_take (fun place early => legal place (by omega))

structure FirstIllegal (settings : Settings) (commands : List Command) (count : Nat) : Prop where
  inside : count ≤ commands.length
  illegal : settings.Illegal (commands.take count)
  first : ∀ earlier < count, ¬ settings.Illegal (commands.take earlier)

theorem legal_or_exists_firstIllegal {bound : Nat} (within : bound ≤ commands.length) :
    (∀ count ≤ bound, ¬ settings.Illegal (commands.take count)) ∨
      ∃ count, settings.FirstIllegal commands count := by
  induction bound with
  | zero =>
      refine Or.inl ?_
      intro count early
      rw [Nat.le_zero.mp early]
      exact settings.lawful_nil.legal
  | succ bound ih =>
      rcases ih (Nat.le_of_succ_le within) with legal | found
      · by_cases illegal : settings.Illegal (commands.take (bound + 1))
        · refine Or.inr ⟨bound + 1, { inside := within, illegal := illegal, first := ?_ }⟩
          intro earlier early
          exact legal earlier (Nat.le_of_lt_succ early)
        · refine Or.inl ?_
          intro count early
          rcases Nat.le_succ_iff.mp early with before | same
          · exact legal count before
          · rw [same]
            exact illegal
      · exact Or.inr found

end Settings

namespace Machine

variable {settings : Settings} {program : Program} {machine : Machine} {console : Console}

theorem finish_of_flush (flushed : machine.state.console.flush = .done console) :
    machine.finish = (.stopped, { machine with state := { machine.state with console } }) := by
  unfold finish
  rw [onConsole_of_done flushed]

theorem report_of_flush (level : machine.state.console.midLine = false)
    (flushed : machine.state.console.flush = .done console) {error : ExecutionError}
    {diagnostic : Diagnostic} (placed : machine.diagnostic? program error = some diagnostic) :
    machine.report program error =
      (.reported diagnostic,
        { machine with state := { machine.state with console }, running := false }) := by
  have acted : ({ machine with running := false } : Machine).onConsole
      (fun console => console.breakLine.bind Console.flush) =
        .done { machine with state := { machine.state with console }, running := false } := by
    apply onConsole_of_done
    unfold Console.breakLine
    rw [if_neg (by rw [level]; exact Bool.false_ne_true)]
    exact flushed
  have same : ({ machine with
        state := { machine.state with console }
        running := false } : Machine).diagnostic? program error =
      machine.diagnostic? program error := rfl
  unfold report
  simp only [acted, same, placed]

/-- A run of moves and changes goes to its end or up to the first illegal prefix, and leaves the
tape that the commands carried out compute. -/
structure RunsStraight (settings : Settings) (program : Program) (commands : List Command)
    (fresh : Machine) : Prop where
  decided : (∀ count ≤ commands.length, ¬ settings.Illegal (commands.take count)) ∨
    ∃ count, settings.FirstIllegal commands count
  completes : (∀ count ≤ commands.length, ¬ settings.Illegal (commands.take count)) →
    ∃ final, final.state.tape.Computes settings commands ∧
      ∀ fuel, commands.length + 2 < fuel →
        fresh.run settings program fuel = some (.stopped, final)
  reports : ∀ count error, settings.FirstIllegal commands count →
    settings.Breach (commands.take count) error →
      ∃ instruction cut final,
        program.instruction? count = some instruction ∧
        program.text.cut? instruction.span = some cut ∧
        final.state.tape.Computes settings (commands.take (count - 1)) ∧
        ∀ fuel, count < fuel → fresh.run settings program fuel =
          some (.reported
            { lexeme := instruction.lexeme
              excerpt := Excerpt.ofCut cut
              pointer := final.state.tape.pointer
              message := error.message }, final)

variable {text : Text} {instructions : List Instruction} {commands : List Command}
  {source : Source} {sink : Sink} {count : Nat}

theorem exists_stepped?_take (text : Text) (source : Source) (sink : Sink)
    (listed : instructions.map Instruction.command = commands)
    (free : ∀ command ∈ commands, command ∈ Command.tapeActs)
    (legal : ∀ earlier ≤ count, ¬ settings.Illegal (commands.take earlier))
    (within : count ≤ commands.length) :
    ∃ tape, tape.After settings (commands.take count) ∧
      (initial settings source sink).stepped? settings (Program.ofInstructions text instructions)
          (count + 1) =
        some { state := { tape, console := Console.ofStreams source sink }
               cursor := count + 1
               running := true } ∧
      (initial settings source sink).RunningBefore settings
        (Program.ofInstructions text instructions) (count + 1) := by
  obtain ⟨tape, walks, after⟩ := Settings.exists_walks_take free legal
  have begun := step_initial settings (Program.ofInstructions text instructions) source sink
  have parts : instructions.map Instruction.command =
      [] ++ commands.take count ++ commands.drop count := by
    rw [List.nil_append, List.take_append_drop, listed]
  have holds := Program.holdsAt_ofInstructions text parts
  let entered : Machine := { initial settings source sink with cursor := 1 }
  have further : Tape.Walks settings (commands.take count) entered.state.tape tape := walks
  obtain ⟨reached, goesOn⟩ := stepped?_of_walks further holds rfl
  rw [List.length_take, Nat.min_eq_left within] at reached goesOn
  refine ⟨tape, after, ?_, .before rfl begun goesOn⟩
  rw [stepped?_succ_of_done begun, Nat.add_comm count]
  exact reached

theorem exists_run_eq_stopped (text : Text)
    (listed : instructions.map Instruction.command = commands)
    (free : ∀ command ∈ commands, command ∈ Command.tapeActs)
    (flushed : (Console.ofStreams source sink).flush = .done console)
    (legal : ∀ count ≤ commands.length, ¬ settings.Illegal (commands.take count)) :
    ∃ final : Machine, final.state.tape.Computes settings commands ∧
      ∀ fuel, commands.length + 2 < fuel →
        (initial settings source sink).run settings (Program.ofInstructions text instructions)
            fuel = some (.stopped, final) := by
  obtain ⟨tape, after, reached, running⟩ :=
    exists_stepped?_take text source sink listed free legal (Nat.le_refl _)
  rw [List.take_length] at after
  have last := Program.command?_last (Program.ofInstructions text instructions)
  have counted : (Program.ofInstructions text instructions).length = commands.length := by
    rw [← listed, List.length_map]
    rfl
  rw [counted] at last
  let arrived : Machine :=
    { state := { tape, console := Console.ofStreams source sink }
      cursor := commands.length + 1
      running := true }
  have stepped : arrived.step settings (Program.ofInstructions text instructions) =
      .done { arrived with cursor := commands.length + 2, running := false } := step_stop last
  refine ⟨{ state := { tape, console }, cursor := commands.length + 2, running := false },
    after.computes, ?_⟩
  intro fuel enough
  rw [run_eq_finish reached (running.succ reached rfl) stepped rfl enough,
    finish_of_flush flushed]

theorem exists_run_eq_reported (listed : instructions.map Instruction.command = commands)
    (free : ∀ command ∈ commands, command ∈ Command.tapeActs)
    (sliceable : (Program.ofInstructions text instructions).Sliceable)
    (flushed : (Console.ofStreams source sink).flush = .done console)
    (firstIllegal : settings.FirstIllegal commands count) {error : ExecutionError}
    (breach : settings.Breach (commands.take count) error) :
    ∃ instruction cut, ∃ final : Machine,
      (Program.ofInstructions text instructions).instruction? count = some instruction ∧
      text.cut? instruction.span = some cut ∧
      final.state.tape.Computes settings (commands.take (count - 1)) ∧
      ∀ fuel, count < fuel →
        (initial settings source sink).run settings (Program.ofInstructions text instructions)
            fuel =
          some (.reported
            { lexeme := instruction.lexeme
              excerpt := Excerpt.ofCut cut
              pointer := final.state.tape.pointer
              message := error.message }, final) := by
  cases count with
  | zero => exact absurd firstIllegal.illegal settings.lawful_nil.legal
  | succ count =>
      have legal : ∀ earlier ≤ count, ¬ settings.Illegal (commands.take earlier) :=
        fun earlier early => firstIllegal.first earlier (Nat.lt_succ_of_le early)
      have inside : count < commands.length := firstIllegal.inside
      obtain ⟨tape, after, reached, running⟩ :=
        exists_stepped?_take text source sink listed free legal (Nat.le_of_lt inside)
      have found : (Program.ofInstructions text instructions).command? (count + 1) =
          some commands[count] := by
        rw [Program.command?_ofInstructions_succ text listed, List.getElem?_append_left inside,
          List.getElem?_eq_getElem inside]
      have acts := free commands[count] (List.getElem_mem inside)
      have plain := Command.isPlain_of_mem_tapeActs _ acts
      rw [← List.take_append_getElem inside] at breach
      let arrived : Machine :=
        { state := { tape, console := Console.ofStreams source sink }
          cursor := count + 1
          running := true }
      have stepped : arrived.step settings (Program.ofInstructions text instructions) =
          .failed (.execution error) arrived :=
        step_failed_of_plain (Program.effective_eq_ok found plain.2) plain.1
          (after.perform_failed_of_breach (Settings.lawful_take legal) breach _)
      obtain ⟨instruction, cut, placed, sliced, reported⟩ :=
        exists_cut_of_step_execution sliceable stepped
      refine ⟨instruction, cut,
        { state := { tape, console }, cursor := count + 1, running := false },
        placed, sliced, after.computes, ?_⟩
      intro fuel enough
      rw [run_eq_report reached (running.succ reached rfl) stepped enough,
        report_of_flush rfl flushed reported]

theorem runsStraight_of_tapeActs (listed : instructions.map Instruction.command = commands)
    (free : ∀ command ∈ commands, command ∈ Command.tapeActs)
    (sliceable : (Program.ofInstructions text instructions).Sliceable)
    (flushed : (Console.ofStreams source sink).flush = .done console) :
    (initial settings source sink).RunsStraight settings
      (Program.ofInstructions text instructions) commands :=
  { decided := Settings.legal_or_exists_firstIllegal (Nat.le_refl _)
    completes := exists_run_eq_stopped text listed free flushed
    reports := fun _ _ firstIllegal breach =>
      exists_run_eq_reported listed free sliceable flushed firstIllegal breach }

def sevenBytes (looped wrapping : Bool) : Settings :=
  { Settings.standard with
    tapeLength := 7
    looped
    wrapping
    tapeLength_pos := by decide
    tapeLength_lt := by decide }

def leaveByTheStart : List Instruction :=
  [.startingAt 0 .increment ['+'], .startingAt 1 .right ['>'], .startingAt 2 .decrement ['-'],
    .startingAt 3 .left ['<'], .startingAt 4 .left ['<']]

/-- It is the change that fails first, the last move where values wrap, and nothing where the
tape is looped as well. -/
theorem leaveByTheStart_runsStraight :
    (∀ looped, (sevenBytes looped false).FirstIllegal
        (leaveByTheStart.map Instruction.command) 3) ∧
      (sevenBytes false true).FirstIllegal (leaveByTheStart.map Instruction.command) 5 ∧
      (∀ count ≤ 5, ¬ (sevenBytes true true).Illegal
        ((leaveByTheStart.map Instruction.command).take count)) ∧
      ∀ looped wrapping,
        (initial (sevenBytes looped wrapping) (Source.ofBytes [] none)
            (Sink.empty none (some 1))).RunsStraight (sevenBytes looped wrapping)
          (Program.ofInstructions "+>-<<".toList leaveByTheStart)
          (leaveByTheStart.map Instruction.command) := by
  refine ⟨?change, ?move, ?nothing, ?runs⟩
  case change =>
      intro looped
      cases looped <;>
        exact { inside := by decide, illegal := by decide, first := by decide }
  case move => exact { inside := by decide, illegal := by decide, first := by decide }
  case nothing => decide
  case runs =>
      intro looped wrapping
      exact runsStraight_of_tapeActs rfl (by decide) (Program.sliceable_of_body (by decide)) rfl

end Machine
end TapeDialects
