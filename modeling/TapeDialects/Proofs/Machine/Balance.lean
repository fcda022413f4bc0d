/-
Tapes as ledgers of moves and changes.

Moves add up to an offset from where the pointer was, and each change goes to the
cell that the offset of the time leads to.  A tape that is in balance with what has
been carried out on another one has its pointer at the offset, taken round the tape,
and in each cell the representative of what it held with all its changes.
-/

import TapeDialects.Proofs.Machine.Period
import TapeDialects.Proofs.Machine.Walk

namespace TapeDialects

namespace Command

def tapeActs : List Command :=
  [right, left, increment, decrement]

def drift : Command → Int
  | right => 1
  | left => -1
  | _ => 0

def travel : List Command → Int
  | [] => 0
  | command :: rest => command.drift + travel rest

/-- The offsets at which a command is carried out among others that start at an offset. -/
def offsets (command : Command) : Int → List Command → List Int
  | _, [] => []
  | offset, next :: rest =>
      if next = command then
        offset :: offsets command (offset + next.drift) rest
      else
        offsets command (offset + next.drift) rest

theorem offsets_cons (command : Command) (offset : Int) (next : Command)
    (rest : List Command) :
    offsets command offset (next :: rest) =
      offsets command offset [next] ++ offsets command (offset + next.drift) rest := by
  rw [offsets, offsets]
  split <;> rfl

theorem isPlain_of_mem_tapeActs : ∀ command ∈ tapeActs,
    command.IsPlain ∧ command ≠ again := by
  decide

theorem travel_eq (commands : List Command) :
    travel commands = (commands.count right : Int) - commands.count left := by
  induction commands with
  | nil => rfl
  | cons command rest ih =>
      rw [travel, ih, List.count_cons, List.count_cons]
      cases command <;> simp [drift] <;> omega

end Command

namespace Tape

/-- Counted from the pointer round the tape, the offset leads to the cell with the index. -/
def landsOn (settings : Settings) (start : Tape) (index : Nat) (offset : Int) : Bool :=
  (start.pointer + offset) % settings.tapeLength = index

/-- What a tape owes to moves and changes since it was another tape: the offset that the
moves add up to, and the offsets at which cells were raised and lowered. -/
structure Balance (settings : Settings) (start : Tape) (offset : Int)
    (raised lowered : List Int) (tape : Tape) : Prop where
  sound : tape.Sound settings
  pointer : (tape.pointer : Int) = (start.pointer + offset) % settings.tapeLength
  cells : ∀ index < settings.tapeLength, settings.Represents
    (start.cells.getD index 0 + raised.countP (start.landsOn settings index) -
      lowered.countP (start.landsOn settings index))
    (tape.cells.getD index 0)

/-- The settings allow a command on a tape: a move goes round the tape or stays on it, and a
change wraps or stays in the range of the cell. -/
structure Allows (settings : Settings) (tape : Tape) (command : Command) : Prop where
  right : command = .right →
    settings.looped = true ∨ tape.pointer + 1 < settings.tapeLength
  left : command = .left → settings.looped = true ∨ 0 < tape.pointer
  increment : command = .increment →
    settings.wrapping = true ∨ tape.current + 1 ≤ settings.maximum
  decrement : command = .decrement →
    settings.wrapping = true ∨ settings.minimum ≤ tape.current - 1

variable {settings : Settings} {start tape : Tape} {offset : Int} {raised lowered : List Int}

theorem Sound.admits_getD (sound : tape.Sound settings) {index : Nat}
    (inside : index < settings.tapeLength) : settings.Admits (tape.cells.getD index 0) := by
  rw [← sound.length] at inside
  rw [Array.getD_eq_getD_getElem?, Array.getElem?_eq_getElem inside]
  exact sound.admitted _ (Array.getElem_mem inside)

theorem Sound.balance_self (sound : tape.Sound settings) :
    Balance settings tape 0 [] [] tape := by
  refine { sound, pointer := ?pointer, cells := ?cells }
  case pointer =>
      have inside := sound.pointer_lt
      rw [Int.add_zero, Int.emod_eq_of_lt (by omega) (by omega)]
  case cells =>
      intro index inside
      have same := (sound.admits_getD inside).represents
      simpa using same

namespace Balance

theorem landsOn_iff (balance : Balance settings start offset raised lowered tape)
    (index : Nat) : start.landsOn settings index offset = true ↔ index = tape.pointer := by
  unfold landsOn
  rw [decide_eq_true_iff, ← balance.pointer, Int.ofNat_inj]
  exact eq_comm

theorem move (balance : Balance settings start offset raised lowered tape) {pointer : Nat}
    {amount : Int} (moved : (pointer : Int) = (tape.pointer + amount) % settings.tapeLength) :
    Balance settings start (offset + amount) raised lowered { tape with pointer } := by
  have positive := settings.tapeLength_pos
  have inside : (pointer : Int) < settings.tapeLength := by
    rw [moved]
    exact Int.emod_lt_of_pos _ (by omega)
  refine
    { sound := balance.sound.moved (by omega)
      pointer := ?pointer
      cells := balance.cells }
  case pointer =>
      rw [moved, balance.pointer, Int.emod_add_emod, Int.add_assoc]

theorem write (balance : Balance settings start offset raised lowered tape)
    {amount value : Int} {raisedBehind loweredBehind : List Int}
    (represents : settings.Represents (tape.current + amount) value)
    (counted : ∀ index, (raisedBehind.countP (start.landsOn settings index) : Int) -
        loweredBehind.countP (start.landsOn settings index) =
      raised.countP (start.landsOn settings index) -
        lowered.countP (start.landsOn settings index) +
        if start.landsOn settings index offset then amount else 0) :
    Balance settings start offset raisedBehind loweredBehind (tape.write value) := by
  refine
    { sound := balance.sound.write represents.admitted
      pointer := balance.pointer
      cells := ?cells }
  case cells =>
      intro index inside
      have before := balance.cells index inside
      have sum := counted index
      have lands := balance.landsOn_iff index
      unfold Tape.write
      simp only [Array.getD_eq_getD_getElem?]
      by_cases here : index = tape.pointer
      · rw [if_pos (lands.mpr here)] at sum
        rw [here, Array.getElem?_setIfInBounds_self, if_pos balance.sound.inside,
          Option.getD_some, ← here]
        apply represents.congr
        have current : tape.current = tape.cells.getD index 0 := by rw [here]; rfl
        rw [current, before.add amount, ← Array.getD_eq_getD_getElem?]
        congr 1
        omega
      · have away : ¬ start.landsOn settings index offset = true :=
          fun on => here (lands.mp on)
        rw [if_neg away] at sum
        rw [Array.getElem?_setIfInBounds_ne (Ne.symm here), ← Array.getD_eq_getD_getElem?,
          ← Array.getD_eq_getD_getElem?]
        apply before.congr
        congr 1
        omega

theorem right (balance : Balance settings start offset raised lowered tape)
    (stays : settings.looped = true ∨ tape.pointer + 1 < settings.tapeLength) :
    ∃ next, tape.moveRight settings = .done next ∧
      Balance settings start (offset + 1) raised lowered next :=
  ⟨_, moveRight_eq stays balance.sound.pointer_lt,
    balance.move (Int.natCast_emod _ _)⟩

theorem left (balance : Balance settings start offset raised lowered tape)
    (stays : settings.looped = true ∨ 0 < tape.pointer) :
    ∃ next, tape.moveLeft settings = .done next ∧
      Balance settings start (offset + -1) raised lowered next := by
  have positive := settings.tapeLength_pos
  have round : ((tape.pointer + (settings.tapeLength - 1) : Nat) : Int) =
      tape.pointer + -1 + settings.tapeLength := by omega
  refine ⟨_, moveLeft_eq stays balance.sound.pointer_lt, balance.move ?_⟩
  rw [Int.natCast_emod, round, Int.add_emod_right]

theorem increment (balance : Balance settings start offset raised lowered tape)
    (stays : settings.wrapping = true ∨ tape.current + 1 ≤ settings.maximum) :
    ∃ next, tape.increment settings = .done next ∧
      Balance settings start offset (raised ++ [offset]) lowered next := by
  have low : settings.minimum ≤ tape.current + 1 := by
    have admitted := balance.sound.current_admitted.1
    omega
  obtain ⟨value, clamped, represents⟩ := Settings.exists_clampHigh_eq stays low
  refine ⟨tape.write value, ?_, balance.write represents ?_⟩
  · unfold Tape.increment
    rw [clamped]
    rfl
  · intro index
    rw [List.countP_append, List.countP_singleton]
    split <;> omega

theorem decrement (balance : Balance settings start offset raised lowered tape)
    (stays : settings.wrapping = true ∨ settings.minimum ≤ tape.current - 1) :
    ∃ next, tape.decrement settings = .done next ∧
      Balance settings start offset raised (lowered ++ [offset]) next := by
  have high : tape.current - 1 ≤ settings.maximum := by
    have admitted := balance.sound.current_admitted.2
    omega
  obtain ⟨value, clamped, represents⟩ := Settings.exists_clampLow_eq stays high
  refine ⟨tape.write value, ?_, balance.write represents ?_⟩
  · unfold Tape.decrement
    rw [clamped]
    rfl
  · intro index
    rw [List.countP_append, List.countP_singleton]
    split <;> omega

theorem exists_act (balance : Balance settings start offset raised lowered tape)
    {command : Command} (allows : tape.Allows settings command)
    (acts : command ∈ Command.tapeActs) :
    ∃ next,
      (∀ console, State.perform settings command { tape, console } =
        .done { tape := next, console }) ∧
      Balance settings start (offset + command.drift)
        (raised ++ Command.offsets .increment offset [command])
        (lowered ++ Command.offsets .decrement offset [command]) next := by
  cases command with
  | right =>
      obtain ⟨next, acted, behind⟩ := balance.right (allows.right rfl)
      refine ⟨next, State.onTape_of_done acted, ?_⟩
      simpa only [Command.offsets, Command.drift, reduceCtorEq, if_false, List.append_nil]
        using behind
  | left =>
      obtain ⟨next, acted, behind⟩ := balance.left (allows.left rfl)
      refine ⟨next, State.onTape_of_done acted, ?_⟩
      simpa only [Command.offsets, Command.drift, reduceCtorEq, if_false, List.append_nil]
        using behind
  | increment =>
      obtain ⟨next, acted, behind⟩ := balance.increment (allows.increment rfl)
      refine ⟨next, State.onTape_of_done acted, ?_⟩
      simpa only [Command.offsets, Command.drift, Int.add_zero, reduceCtorEq, if_false,
        if_true, List.append_nil] using behind
  | decrement =>
      obtain ⟨next, acted, behind⟩ := balance.decrement (allows.decrement rfl)
      refine ⟨next, State.onTape_of_done acted, ?_⟩
      simpa only [Command.offsets, Command.drift, Int.add_zero, reduceCtorEq, if_false,
        if_true, List.append_nil] using behind
  | _ => exact absurd acts (by decide)

def Behind (settings : Settings) (start : Tape) (offset : Int) (raised lowered : List Int)
    (commands : List Command) (tape : Tape) : Prop :=
  Balance settings start (offset + Command.travel commands)
    (raised ++ Command.offsets .increment offset commands)
    (lowered ++ Command.offsets .decrement offset commands) tape

theorem behind_nil_iff :
    Behind settings start offset raised lowered [] tape ↔
      Balance settings start offset raised lowered tape := by
  unfold Behind
  rw [Command.travel, Int.add_zero, Command.offsets, Command.offsets, List.append_nil,
    List.append_nil]

theorem behind_cons_iff {command : Command} {rest : List Command} :
    Behind settings start offset raised lowered (command :: rest) tape ↔
      Behind settings start (offset + command.drift)
        (raised ++ Command.offsets .increment offset [command])
        (lowered ++ Command.offsets .decrement offset [command]) rest tape := by
  unfold Behind
  rw [Command.travel, ← Int.add_assoc, Command.offsets_cons, Command.offsets_cons .decrement,
    ← List.append_assoc, ← List.append_assoc]

theorem exists_walks (balance : Balance settings start offset raised lowered tape)
    {commands : List Command} (free : ∀ command ∈ commands, command ∈ Command.tapeActs)
    (allowed : ∀ front command back, commands = front ++ command :: back → ∀ between,
      Behind settings start offset raised lowered front between →
        between.Allows settings command) :
    ∃ later, Walks settings commands tape later ∧
      Behind settings start offset raised lowered commands later := by
  induction commands generalizing tape offset raised lowered with
  | nil => exact ⟨tape, .done, behind_nil_iff.mpr balance⟩
  | cons command rest ih =>
      obtain ⟨first, others⟩ := List.forall_mem_cons.mp free
      have now := allowed [] command rest rfl tape (behind_nil_iff.mpr balance)
      obtain ⟨next, acts, balanced⟩ := balance.exists_act now first
      have plain := Command.isPlain_of_mem_tapeActs command first
      obtain ⟨later, walks, settled⟩ := ih balanced others (by
        intro front other back parts between reached
        apply allowed (command :: front) other back (by rw [parts, List.cons_append])
        exact behind_cons_iff.mpr reached)
      exact ⟨later, .act plain.1 plain.2 acts walks, behind_cons_iff.mpr settled⟩

end Balance
end Tape
end TapeDialects
