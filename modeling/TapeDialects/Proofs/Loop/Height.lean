/-
The height of a program before each of its instructions: the loops that have
been opened on the way there, less those that have been closed.

A stretch of a program is balanced if it opens as many loops as it closes, that
is, if it starts and ends at one height.  An opening and a closing instruction
are partners if the program returns to the height before the first of them just
behind the second, and stays above it in between.  The first place where the
program comes back to a height is one step down from above it, so partners can
be found from either side.

Nothing here looks at how a machine searches for a partner.
-/

import Mathlib.Data.Nat.Find
import Mathlib.Order.Bounds.Defs
import TapeDialects.Proofs.Program

namespace TapeDialects

namespace Command

def rise : Command → Int
  | loopOpen => 1
  | loopClose => -1
  | _ => 0

theorem rise_le_one (command : Command) : command.rise ≤ 1 := by
  cases command <;> decide

theorem neg_one_le_rise (command : Command) : -1 ≤ command.rise := by
  cases command <;> decide

theorem eq_loopOpen_of_rise_pos {command : Command} (rises : 0 < command.rise) :
    command = loopOpen := by
  cases command <;> simp [rise] at rises ⊢

theorem eq_loopClose_of_rise_neg {command : Command} (falls : command.rise < 0) :
    command = loopClose := by
  cases command <;> simp [rise] at falls ⊢

def totalRise : List Command → Int
  | [] => 0
  | command :: rest => command.rise + totalRise rest

theorem totalRise_append (front back : List Command) :
    totalRise (front ++ back) = totalRise front + totalRise back := by
  induction front with
  | nil => simp [totalRise]
  | cons command front ih =>
      simp only [List.cons_append, totalRise, ih]
      omega

theorem totalRise_eq_count (commands : List Command) :
    totalRise commands = commands.count loopOpen - commands.count loopClose := by
  induction commands with
  | nil => rfl
  | cons command rest ih =>
      rw [totalRise, ih]
      cases command <;> simp [rise] <;> omega

end Command

namespace Program

variable {program : Program}

/-- The height before the instruction at an index. -/
def height (program : Program) (index : Nat) : Int :=
  Command.totalRise (program.commands.take index)

theorem height_succ {index : Nat} {command : Command}
    (found : program.command? index = some command) :
    program.height (index + 1) = program.height index + command.rise := by
  rw [command?_eq_getElem?] at found
  rw [height, height, List.take_add_one, found, Command.totalRise_append]
  simp [Command.totalRise]

theorem height_succ_le (program : Program) {index : Nat} (inside : index < program.size) :
    program.height (index + 1) ≤ program.height index + 1 := by
  obtain ⟨command, found⟩ := exists_command?_of_lt program inside
  have rise := command.rise_le_one
  rw [height_succ found]
  omega

theorem height_le_succ (program : Program) {index : Nat} (inside : index < program.size) :
    program.height index ≤ program.height (index + 1) + 1 := by
  obtain ⟨command, found⟩ := exists_command?_of_lt program inside
  have rise := command.neg_one_le_rise
  rw [height_succ found]
  omega

/-- The instructions from a first to a last one, both included, open as many
loops as they close. -/
def Balanced (program : Program) (first last : Nat) : Prop :=
  ((program.commands.drop first).take (last + 1 - first)).count .loopOpen =
    ((program.commands.drop first).take (last + 1 - first)).count .loopClose

theorem balanced_iff_height_eq {first last : Nat} (ordered : first ≤ last) :
    program.Balanced first last ↔ program.height (last + 1) = program.height first := by
  have split : program.commands.take (last + 1) =
      program.commands.take first ++
        (program.commands.drop first).take (last + 1 - first) := by
    rw [← List.take_add]
    congr 1
    omega
  rw [Balanced, height, height, split, Command.totalRise_append,
    Command.totalRise_eq_count ((program.commands.drop first).take _)]
  omega

/-! ### Partners -/

structure Partners (program : Program) (opening closing : Nat) : Prop where
  ordered : opening < closing
  inside : closing < program.size
  level : program.height (closing + 1) = program.height opening
  above : ∀ index, opening < index → index ≤ closing →
    program.height opening < program.height index

namespace Partners

variable {opening closing other another : Nat}

theorem command?_opening (partners : program.Partners opening closing) :
    program.command? opening = some .loopOpen := by
  have ordered := partners.ordered
  have inside := partners.inside
  have within : opening < program.size := by omega
  obtain ⟨command, found⟩ := exists_command?_of_lt program within
  have climbs := partners.above (opening + 1) (by omega) (by omega)
  rw [height_succ found] at climbs
  have rises : 0 < command.rise := by omega
  rw [found, Command.eq_loopOpen_of_rise_pos rises]

theorem command?_closing (partners : program.Partners opening closing) :
    program.command? closing = some .loopClose := by
  obtain ⟨command, found⟩ := exists_command?_of_lt program partners.inside
  have high := partners.above closing partners.ordered (Nat.le_refl closing)
  have level := partners.level
  rw [height_succ found] at level
  have falls : command.rise < 0 := by omega
  rw [found, Command.eq_loopClose_of_rise_neg falls]

theorem balanced (partners : program.Partners opening closing) :
    program.Balanced opening closing :=
  (balanced_iff_height_eq (Nat.le_of_lt partners.ordered)).mpr partners.level

theorem closing_unique (partners : program.Partners opening closing)
    (others : program.Partners opening other) : closing = other := by
  rcases Nat.lt_trichotomy closing other with less | same | greater
  · have high := others.above (closing + 1) (by have := partners.ordered; omega) (by omega)
    rw [partners.level] at high
    exact absurd high (Int.lt_irrefl _)
  · exact same
  · have high := partners.above (other + 1) (by have := others.ordered; omega) (by omega)
    rw [others.level] at high
    exact absurd high (Int.lt_irrefl _)

/-- What opens inside a pair closes inside it: the program would have to come
down through the height of the outer pair otherwise. -/
theorem closing_lt (partners : program.Partners opening closing)
    (others : program.Partners other another) (starts : opening < other)
    (early : other ≤ closing) : another < closing := by
  by_contra late
  have outer := partners.above other starts early
  have inner := others.above (closing + 1) (by omega) (by
    rcases Nat.lt_or_eq_of_le (Nat.le_of_not_lt late) with less | same
    · omega
    · have high := partners.above other starts early
      have level := others.level
      rw [← same, partners.level] at level
      omega)
  rw [partners.level] at inner
  omega

theorem nested_or_disjoint (partners : program.Partners opening closing)
    (others : program.Partners other another) :
    (opening = other ∧ closing = another) ∨ closing < other ∨ another < opening ∨
      (opening < other ∧ another < closing) ∨ (other < opening ∧ closing < another) := by
  rcases Nat.lt_trichotomy opening other with less | same | greater
  · by_cases early : other ≤ closing
    · exact .inr (.inr (.inr (.inl ⟨less, partners.closing_lt others less early⟩)))
    · exact .inr (.inl (Nat.lt_of_not_le early))
  · subst same
    exact .inl ⟨rfl, partners.closing_unique others⟩
  · by_cases early : opening ≤ another
    · exact .inr (.inr (.inr (.inr ⟨greater, others.closing_lt partners greater early⟩)))
    · exact .inr (.inr (.inl (Nat.lt_of_not_le early)))

end Partners

theorem exists_closing_or_above {opening : Nat}
    (opens : program.command? opening = some .loopOpen) :
    (∃ closing, program.Partners opening closing) ∨
      ∀ index, opening < index → index ≤ program.size →
        program.height opening < program.height index := by
  classical
  by_cases returns : ∃ index, opening < index ∧ index ≤ program.size ∧
      program.height index ≤ program.height opening
  · -- The first index at which the height is reached again is behind the partner.
    left
    obtain ⟨later, inside, low⟩ := Nat.find_spec returns
    obtain ⟨closing, closing_def⟩ : ∃ closing, Nat.find returns = closing + 1 :=
      ⟨Nat.find returns - 1, by omega⟩
    rw [closing_def] at later inside low
    have above : ∀ index, opening < index → index ≤ closing →
        program.height opening < program.height index := by
      intro index after early
      have sooner : index < Nat.find returns := by omega
      have high := Nat.find_min returns sooner
      by_contra below
      exact high ⟨after, by omega, Int.not_lt.mp below⟩
    have climbs := height_succ opens
    simp only [Command.rise] at climbs
    have proper : closing ≠ opening := by
      rintro rfl
      omega
    have last := above closing (by omega) (Nat.le_refl closing)
    have within : closing < program.size := by omega
    have falls := height_le_succ program within
    exact ⟨closing, by omega, by omega, by omega, above⟩
  · right
    intro index later inside
    by_contra low
    exact returns ⟨index, later, inside, by omega⟩

theorem exists_opening_or_above {closing : Nat}
    (closes : program.command? closing = some .loopClose) :
    (∃ opening, program.Partners opening closing) ∨
      ∀ index, index ≤ closing → program.height (closing + 1) < program.height index := by
  have inside : closing < program.size :=
    (command?_isSome_iff program closing).mp (by rw [closes]; rfl)
  have falls := height_succ closes
  simp only [Command.rise] at falls
  classical
  let Low : Nat → Prop := fun index => program.height index ≤ program.height (closing + 1)
  by_cases starts : ∃ index, index ≤ closing ∧ Low index
  · -- The last index so low is the partner: behind it the program is higher.
    left
    obtain ⟨start, early, low⟩ := starts
    have lowest : Low (Nat.findGreatest Low closing) := Nat.findGreatest_spec early low
    have bounded : Nat.findGreatest Low closing ≤ closing := Nat.findGreatest_le closing
    have last : ∀ index, Nat.findGreatest Low closing < index → index ≤ closing →
        ¬ Low index := fun _ => Nat.findGreatest_is_greatest
    generalize Nat.findGreatest Low closing = opening at lowest bounded last
    change program.height opening ≤ program.height (closing + 1) at lowest
    have above : ∀ index, opening < index → index ≤ closing →
        program.height (closing + 1) < program.height index := by
      intro index later early
      exact Int.lt_of_not_ge (last index later early)
    have proper : opening ≠ closing := by
      intro same
      rw [same] at lowest
      omega
    have first := above (opening + 1) (by omega) (by omega)
    have within : opening < program.size := by omega
    have climbs := height_succ_le program within
    have level : program.height (closing + 1) = program.height opening := by omega
    exact ⟨opening, by omega, inside, level, by rwa [level] at above⟩
  · right
    intro index early
    by_contra low
    exact starts ⟨index, early, Int.not_lt.mp low⟩

/-- The first index behind an opening up to which the program is balanced. -/
def ClosesAt (program : Program) (opening closing : Nat) : Prop :=
  program.command? opening = some .loopOpen ∧
    IsLeast {index | opening < index ∧ index < program.size ∧
      program.Balanced opening index} closing

/-- The last index before a closing from which on the program is balanced. -/
def OpensAt (program : Program) (closing opening : Nat) : Prop :=
  program.command? closing = some .loopClose ∧
    IsGreatest {index | index < closing ∧ program.Balanced index closing} opening

theorem Partners.closesAt {opening closing : Nat}
    (partners : program.Partners opening closing) : program.ClosesAt opening closing := by
  refine ⟨partners.command?_opening,
    ⟨partners.ordered, partners.inside, partners.balanced⟩, ?_⟩
  rintro index ⟨later, inside, balanced⟩
  rw [balanced_iff_height_eq (Nat.le_of_lt later)] at balanced
  by_contra early
  have high := partners.above (index + 1) (by omega) (by omega)
  omega

theorem Partners.opensAt {opening closing : Nat}
    (partners : program.Partners opening closing) : program.OpensAt closing opening := by
  refine ⟨partners.command?_closing, ⟨partners.ordered, partners.balanced⟩, ?_⟩
  rintro index ⟨early, balanced⟩
  rw [balanced_iff_height_eq (Nat.le_of_lt early)] at balanced
  have level := partners.level
  by_contra later
  have high := partners.above index (by omega) (by omega)
  omega

theorem closesAt_iff_partners {opening closing : Nat} :
    program.ClosesAt opening closing ↔ program.Partners opening closing := by
  constructor
  · rintro ⟨opens, ⟨later, inside, balanced⟩, least⟩
    rcases exists_closing_or_above opens with ⟨other, partners⟩ | above
    · have found : closing = other :=
        Nat.le_antisymm
          (least ⟨partners.ordered, partners.inside, partners.balanced⟩)
          (partners.closesAt.2.2 ⟨later, inside, balanced⟩)
      rwa [found]
    · have high := above (closing + 1) (by omega) (by omega)
      rw [balanced_iff_height_eq (Nat.le_of_lt later)] at balanced
      omega
  · exact Partners.closesAt

theorem opensAt_iff_partners {opening closing : Nat} :
    program.OpensAt closing opening ↔ program.Partners opening closing := by
  constructor
  · rintro ⟨closes, ⟨early, balanced⟩, greatest⟩
    rcases exists_opening_or_above closes with ⟨other, partners⟩ | above
    · have found : opening = other :=
        Nat.le_antisymm (partners.opensAt.2.2 ⟨early, balanced⟩)
          (greatest ⟨partners.ordered, partners.balanced⟩)
      rwa [found]
    · have high := above opening (Nat.le_of_lt early)
      rw [balanced_iff_height_eq (Nat.le_of_lt early)] at balanced
      omega
  · exact Partners.opensAt

end Program
end TapeDialects
