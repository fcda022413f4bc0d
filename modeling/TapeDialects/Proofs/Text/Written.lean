/-
Texts written word by word.

A text is written from some commands if it holds one word for each of them, in
their order, with white space between the words and perhaps around them all.
Which words stand for a command is left open here.  A reader that passes over
white space and takes one word at a time, whatever comes behind it, reads the
commands back.
-/

import TapeDialects.Instruction
import TapeDialects.Text.Space

namespace TapeDialects

namespace Text

def Blank (text : Text) : Prop :=
  ∀ character ∈ text, isSpace character = true

/-- The text is at its end or goes on with white space. -/
def Apart (text : Text) : Prop :=
  ∀ character ∈ text.head?, isSpace character = true

theorem blank_nil : Blank [] := by
  intro character member
  cases member

theorem apart_nil : Apart [] := by
  intro character member
  cases member

theorem apart_cons {character : Char} {rest : Text} :
    Apart (character :: rest) ↔ isSpace character = true := by
  unfold Apart
  rw [List.head?_cons]
  constructor
  · intro apart
    exact apart character rfl
  · intro space other same
    rw [← Option.some.inj same]
    exact space

end Text

inductive Written (spells : Command → Text → Prop) : List Command → Text → Prop where
  | nil {gap : Text} (blank : gap.Blank) : Written spells [] gap
  | cons {command : Command} {commands : List Command} {gap word rest : Text}
      (blank : gap.Blank) (spelled : spells command word) (apart : rest.Apart)
      (written : Written spells commands rest) :
      Written spells (command :: commands) (gap ++ (word ++ rest))

/-- A reader whose states are the places and contexts it may stand in; a state is
ready for a text if the reader may meet that text there. -/
structure ReadsWords {State : Type} (spells : Command → Text → Prop)
    (ready : State → Text → Prop) (read : State → Text → List Instruction) : Prop where
  ends : ∀ state, read state [] = []
  passes : ∀ state character rest,
    ready state (character :: rest) → Text.isSpace character = true →
      ∃ later, ready later rest ∧ read state (character :: rest) = read later rest
  takes : ∀ state command word rest,
    ready state (word ++ rest) → spells command word → rest.Apart →
      ∃ instruction later,
        instruction.command = command ∧ ready later rest ∧
          read state (word ++ rest) = instruction :: read later rest

namespace Written

variable {spells : Command → Text → Prop}

theorem exists_text {commands : List Command}
    (spellable : ∀ command ∈ commands, ∃ word, spells command word) :
    ∃ text, Written spells commands text := by
  have blank : Text.Blank [' '] := by
    intro character member
    rw [List.mem_singleton.mp member]
    rfl
  have separated : ∃ text, Text.Apart text ∧ Written spells commands text := by
    induction commands with
    | nil => exact ⟨[' '], Text.apart_cons.mpr rfl, .nil blank⟩
    | cons command commands ih =>
        rcases spellable command List.mem_cons_self with ⟨word, spelled⟩
        rcases ih fun other member => spellable other (List.mem_cons_of_mem command member)
          with ⟨rest, apart, written⟩
        exact ⟨[' '] ++ (word ++ rest), Text.apart_cons.mpr rfl,
          .cons blank spelled apart written⟩
  rcases separated with ⟨text, -, written⟩
  exact ⟨text, written⟩

theorem mono {other : Command → Text → Prop}
    (imply : ∀ command word, spells command word → other command word)
    {commands : List Command} {text : Text} (written : Written spells commands text) :
    Written other commands text := by
  induction written with
  | nil blank => exact .nil blank
  | cons blank spelled apart _ ih => exact .cons blank (imply _ _ spelled) apart ih

theorem notMem {commands : List Command} {text : Text}
    (written : Written spells commands text) {character : Char}
    (solid : Text.isSpace character = false)
    (absent : ∀ command word, spells command word → character ∉ word) :
    character ∉ text := by
  have outside : ∀ gap : Text, gap.Blank → character ∉ gap := by
    intro gap blank member
    rw [blank character member] at solid
    cases solid
  induction written with
  | nil blank => exact outside _ blank
  | cons blank spelled _ _ ih =>
      rw [List.mem_append, List.mem_append, not_or, not_or]
      exact ⟨outside _ blank, absent _ _ spelled, ih⟩

variable {State : Type} {ready : State → Text → Prop}
  {read : State → Text → List Instruction}

theorem read_gap (reader : ReadsWords spells ready read) {state : State} {gap rest : Text}
    (isReady : ready state (gap ++ rest)) (blank : gap.Blank) :
    ∃ later, ready later rest ∧ read state (gap ++ rest) = read later rest := by
  induction gap generalizing state with
  | nil => exact ⟨state, isReady, rfl⟩
  | cons character gap ih =>
      rcases reader.passes state character (gap ++ rest) isReady
          (blank character List.mem_cons_self) with ⟨next, nextReady, passed⟩
      rcases ih nextReady fun other member => blank other (List.mem_cons_of_mem _ member)
        with ⟨later, laterReady, same⟩
      refine ⟨later, laterReady, ?_⟩
      rw [List.cons_append, passed, same]

theorem map_command_read (reader : ReadsWords spells ready read) (state : State)
    {commands : List Command} {text : Text} (written : Written spells commands text)
    (isReady : ready state text) :
    (read state text).map Instruction.command = commands := by
  induction written generalizing state with
  | @nil gap blank =>
      rw [← List.append_nil gap] at isReady ⊢
      rcases read_gap reader isReady blank with ⟨later, -, same⟩
      rw [same, reader.ends, List.map_nil]
  | @cons command commands gap word rest blank spelled apart _ ih =>
      rcases read_gap reader isReady blank with ⟨next, nextReady, same⟩
      rcases reader.takes next command word rest nextReady spelled apart with
        ⟨instruction, later, named, laterReady, taken⟩
      rw [same, taken, List.map_cons, named, ih later laterReady]

end Written
end TapeDialects
