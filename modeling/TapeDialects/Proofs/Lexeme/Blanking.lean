/-
Comments can be left out before a text is read as well as after.

Let the comments of a text be written over with spaces.  Lexemes with none of the
delimiters of comments and no space in them open the new text where they open the
old one outside of comments, and nowhere else.  In the old text such a lexeme does not
go on from a comment into what stands behind it, nor from what stands in front into a
comment.  So the instructions that stand in no comment are all that can be found in
the new text, each where it was.
-/

import TapeDialects.Dialect.Registry
import TapeDialects.Proofs.Lexeme.Nesting
import TapeDialects.Proofs.Lexeme.PrefixFree
import TapeDialects.Proofs.Lexeme.Stripping
import TapeDialects.Proofs.Text.Line
import TapeDialects.Text.Utf8

namespace TapeDialects

namespace Comment

def Held (comments : List Span) (place : Nat) : Prop :=
  ∃ comment ∈ comments, comment.start ≤ place ∧ place < comment.stop

instance (comments : List Span) (place : Nat) : Decidable (Held comments place) :=
  inferInstanceAs (Decidable (∃ comment ∈ comments, comment.start ≤ place ∧ place < comment.stop))

/-- A space for each byte of a character that starts inside a comment, or else the character. -/
def blankCharacter (comments : List Span) (position : Nat) (character : Char) : Text :=
  if Held comments position then List.replicate character.utf8Size ' ' else [character]

def blankFrom (comments : List Span) (position : Nat) : Text → Text
  | [] => []
  | character :: rest =>
      blankCharacter comments position character ++
        blankFrom comments (position + character.utf8Size) rest

/-- The text with its comments written over. -/
def blank (comments : List Span) (text : Text) : Text :=
  blankFrom comments 0 text

variable {comments : List Span} {opener closer : Char} {text before rest front back : Text}
  {position place : Nat}

theorem size_spaces (count : Nat) : Text.size (List.replicate count ' ') = count := by
  induction count with
  | zero => rfl
  | succ count ih =>
      rw [List.replicate_succ, Text.size_cons, ih]
      exact Nat.add_comm 1 count

theorem size_blankCharacter (comments : List Span) (position : Nat) (character : Char) :
    (blankCharacter comments position character).size = character.utf8Size := by
  unfold blankCharacter
  split
  · exact size_spaces _
  · rfl

theorem size_blankFrom (comments : List Span) (position : Nat) (text : Text) :
    (blankFrom comments position text).size = text.size := by
  induction text generalizing position with
  | nil => rfl
  | cons character rest ih =>
      rw [blankFrom, Text.size_append, size_blankCharacter, ih, Text.size_cons]

theorem blankFrom_append (comments : List Span) (position : Nat) (front back : Text) :
    blankFrom comments position (front ++ back) =
      blankFrom comments position front ++ blankFrom comments (position + front.size) back := by
  induction front generalizing position with
  | nil => rfl
  | cons character front ih =>
      rw [List.cons_append, blankFrom, blankFrom, ih, List.append_assoc, Text.size_cons,
        Nat.add_assoc]

/-! ### What a blanked text begins with -/

theorem blankFrom_cons_of_not_held (free : ¬ Held comments position) (character : Char)
    (rest : Text) :
    blankFrom comments position (character :: rest) =
      character :: blankFrom comments (position + character.utf8Size) rest := by
  rw [blankFrom, blankCharacter, if_neg free]
  rfl

theorem exists_blankFrom_of_held (held : Held comments position) (character : Char)
    (rest : Text) : ∃ more, blankFrom comments position (character :: rest) = ' ' :: more := by
  rw [blankFrom, blankCharacter, if_pos held]
  cases count : character.utf8Size with
  | zero => exact absurd count (Nat.ne_of_gt character.utf8Size_pos)
  | succ count => exact ⟨_, rfl⟩

theorem not_held_of_blankFrom_eq {character : Char}
    (kept : blankFrom comments position (character :: rest) = character :: back)
    (solid : character ≠ ' ') : ¬ Held comments position := by
  intro held
  obtain ⟨more, blanked⟩ := exists_blankFrom_of_held held character rest
  rw [blanked, List.cons.injEq] at kept
  exact solid kept.1.symm

theorem prefix_blankFrom_iff {word : Text} (solid : ' ' ∉ word) :
    word <+: blankFrom comments position rest ↔
      word <+: rest ∧ blankFrom comments position word = word := by
  induction word generalizing position rest with
  | nil => exact iff_of_true List.nil_prefix ⟨List.nil_prefix, rfl⟩
  | cons letter word ih =>
      rw [List.mem_cons, not_or] at solid
      cases rest with
      | nil => simp [blankFrom]
      | cons character rest =>
          by_cases held : Held comments position
          · obtain ⟨more, blanked⟩ := exists_blankFrom_of_held held character rest
            obtain ⟨_, blankedWord⟩ := exists_blankFrom_of_held held letter word
            rw [blanked, blankedWord, List.cons_prefix_cons, List.cons.injEq]
            exact iff_of_false (fun both => solid.1 both.1.symm) (fun both => solid.1 both.2.1)
          · rw [blankFrom_cons_of_not_held held, blankFrom_cons_of_not_held held,
              List.cons_prefix_cons, List.cons_prefix_cons, List.cons.injEq]
            constructor
            · rintro ⟨rfl, begins⟩
              obtain ⟨kept, same⟩ := (ih solid.2).mp begins
              exact ⟨⟨rfl, kept⟩, rfl, same⟩
            · rintro ⟨⟨rfl, begins⟩, -, same⟩
              exact ⟨rfl, (ih solid.2).mpr ⟨begins, same⟩⟩

theorem exists_parts_of_blankFrom {character : Char}
    (parts : blankFrom comments position text = front ++ character :: back)
    (solid : character ≠ ' ') :
    ∃ before rest, text = before ++ rest ∧ before.size = front.size ∧
      character :: back = blankFrom comments (position + before.size) rest := by
  induction text generalizing position front with
  | nil =>
      rw [blankFrom] at parts
      exact absurd parts.symm (List.append_ne_nil_of_right_ne_nil _ (List.cons_ne_nil _ _))
  | cons first text ih =>
      have further : ∀ more,
          front = blankCharacter comments position first ++ more →
          blankFrom comments (position + first.utf8Size) text = more ++ character :: back →
          ∃ before rest : Text, first :: text = before ++ rest ∧ before.size = front.size ∧
            character :: back = blankFrom comments (position + before.size) rest := by
        intro more longer later
        obtain ⟨before, rest, split, sized, same⟩ := ih later
        refine ⟨first :: before, rest, ?_, ?_, ?_⟩
        · rw [split]
          rfl
        · rw [longer, Text.size_append, size_blankCharacter, Text.size_cons, sized]
        · rw [same, Text.size_cons, Nat.add_assoc]
      have whole := parts
      rw [blankFrom] at parts
      rcases List.append_eq_append_iff.mp parts with ⟨more, longer, later⟩ | ⟨more, shorter, left⟩
      · exact further more longer later
      · cases more with
        | nil => exact further [] (by rw [shorter, List.append_nil, List.append_nil]) left.symm
        | cons next more =>
            rw [List.cons_append, List.cons.injEq] at left
            unfold blankCharacter at shorter
            split at shorter
            · have member : next ∈ List.replicate first.utf8Size ' ' := by
                rw [shorter]
                exact List.mem_append_right _ List.mem_cons_self
              exact absurd (left.1.trans (List.eq_of_mem_replicate member)) solid
            · have none : front = [] := by
                cases front with
                | nil => rfl
                | cons _ _ => simp at shorter
              refine ⟨[], first :: text, rfl, ?_, ?_⟩
              · rw [none]
              · rw [Text.size_nil, Nat.add_zero, whole, none]
                rfl

/-! ### Lexemes and comments -/

theorem Encloses.word_inside {cut : Text.Cut} {range : Span} {word : Text}
    (encloses : Encloses opener closer cut) (found : text.cut? range = some cut)
    (absent : closer ∉ word) (parts : text = before ++ rest) (begins : word <+: rest)
    (begun : range.start ≤ before.size) (unended : before.size < range.stop) :
    before.size + word.size ≤ range.stop := by
  obtain ⟨-, -, stopped⟩ := Text.cut?_eq_some_iff.mp found
  obtain ⟨part, more, front, inside, filled, left⟩ :=
    Text.exists_parts_of_cut? found parts begun unended
  have short : word <+: more := by
    rw [left] at begins
    rcases List.prefix_or_prefix_of_prefix begins (List.prefix_append more cut.after) with
      short | long
    · exact short
    · rcases encloses.ended with ⟨-, closed⟩ | ⟨-, none⟩
      · rw [inside, List.getLast?_append_of_ne_nil _ filled] at closed
        exact absurd (long.subset (List.mem_of_getLast? closed)) absent
      · rw [none, List.append_nil] at begins
        exact begins
  obtain ⟨remains, same⟩ := short
  rw [stopped, inside, Text.size_append, ← same, front, Text.size_append, Text.size_append]
  omega

theorem Encloses.word_before {cut : Text.Cut} {range : Span} {word : Text}
    (encloses : Encloses opener closer cut) (found : text.cut? range = some cut)
    (absent : opener ∉ word) (parts : text = before ++ rest) (begins : word <+: rest)
    (ahead : before.size ≤ range.start) : before.size + word.size ≤ range.start := by
  obtain ⟨whole, started, -⟩ := Text.cut?_eq_some_iff.mp found
  rw [started] at ahead ⊢
  obtain ⟨gap, longer, left⟩ :=
    Text.exists_part_of_size_le parts (whole.trans (List.append_assoc _ _ _)) ahead
  have short : word <+: gap := by
    rw [left] at begins
    rcases List.prefix_or_prefix_of_prefix begins (List.prefix_append gap _) with short | long
    · exact short
    · obtain ⟨more, same⟩ := long
      rw [← same, List.prefix_append_right_inj] at begins
      cases more with
      | nil =>
          rw [List.append_nil] at same
          exact same ▸ List.prefix_rfl
      | cons next more =>
          obtain ⟨_, joined⟩ := begins
          have first := congrArg List.head? joined
          rw [List.cons_append, List.head?_cons, List.head?_append, encloses.opened,
            Option.some_or, Option.some.injEq] at first
          rw [← same, first] at absent
          exact absurd (List.mem_append_right _ List.mem_cons_self) absent
  obtain ⟨remains, same⟩ := short
  rw [longer, ← same, Text.size_append, Text.size_append]
  omega

theorem blankFrom_eq_self {word : Text}
    (apart : ∀ comment ∈ comments,
      comment.stop ≤ position ∨ position + word.size ≤ comment.start) :
    blankFrom comments position word = word := by
  induction word generalizing position with
  | nil => rfl
  | cons letter word ih =>
      have wide := letter.utf8Size_pos
      have free : ¬ Held comments position := by
        rintro ⟨comment, member, begun, unended⟩
        rcases apart comment member with ended | ahead
        · omega
        · rw [Text.size_cons] at ahead
          omega
      rw [blankFrom_cons_of_not_held free, ih]
      intro comment member
      rcases apart comment member with ended | ahead
      · exact Or.inl (by omega)
      · rw [Text.size_cons] at ahead
        exact Or.inr (by omega)

end Comment

/-- The lexeme has none of the delimiters of comments in it, and no space. -/
def Entry.Foreign (opener closer : Char) (entry : Entry) : Prop :=
  opener ∉ entry.lexeme ∧ closer ∉ entry.lexeme ∧ ' ' ∉ entry.lexeme

instance (opener closer : Char) (entry : Entry) : Decidable (entry.Foreign opener closer) :=
  inferInstanceAs (Decidable (_ ∧ _ ∧ _))

namespace Entry.Foreign

open Comment

variable {opener closer : Char} {entry : Entry} {text : Text} {place : Nat} {ranges : List Span}

theorem stop_le (foreign : entry.Foreign opener closer) {range : Span}
    (marks : Marks opener closer text 0 ranges) (member : range ∈ ranges)
    (opens : entry.OpensAt text place) (begun : range.start ≤ place)
    (unended : place < range.stop) : place + entry.lexeme.size ≤ range.stop := by
  obtain ⟨before, rest, parts, reached, -, begins⟩ := opens
  obtain ⟨cut, found, encloses⟩ := marks.comments range member
  rw [reached] at begun unended ⊢
  exact encloses.word_inside found foreign.2.1 parts begins begun unended

theorem opensAt_blank_iff (foreign : entry.Foreign opener closer)
    (marks : Marks opener closer text 0 ranges) :
    entry.OpensAt (blank ranges text) place ↔
      entry.OpensAt text place ∧ ¬ Held ranges place := by
  obtain ⟨unopened, -, solid⟩ := foreign
  constructor
  · rintro ⟨front, back, parts, reached, spelled, begins⟩
    cases lexeme : entry.lexeme with
    | nil => exact absurd lexeme spelled
    | cons letter word =>
        rw [lexeme] at begins solid
        obtain ⟨more, same⟩ := begins
        rw [← same, List.cons_append] at parts
        have letterSolid : letter ≠ ' ' := fun space => solid (space ▸ List.mem_cons_self)
        obtain ⟨before, rest, split, sized, blanked⟩ :=
          exists_parts_of_blankFrom parts letterSolid
        have opens : letter :: word <+: blankFrom ranges (0 + before.size) rest := by
          rw [← blanked]
          exact ⟨more, rfl⟩
        obtain ⟨kept, unblanked⟩ := (prefix_blankFrom_iff solid).mp opens
        rw [Nat.zero_add, sized, ← reached] at unblanked
        refine ⟨⟨before, rest, split, reached.trans sized.symm, spelled, ?_⟩, ?_⟩
        · rw [lexeme]
          exact kept
        · exact not_held_of_blankFrom_eq unblanked letterSolid
  · rintro ⟨⟨before, rest, parts, reached, spelled, begins⟩, free⟩
    refine ⟨blankFrom ranges 0 before, blankFrom ranges (0 + before.size) rest, ?_, ?_, spelled,
      ?_⟩
    · rw [blank, parts, blankFrom_append]
    · rw [size_blankFrom, reached]
    · apply (prefix_blankFrom_iff solid).mpr
      refine ⟨begins, ?_⟩
      apply blankFrom_eq_self
      intro range member
      by_cases ended : range.stop ≤ before.size
      · rw [Nat.zero_add]
        exact Or.inl ended
      · have ahead : before.size ≤ range.start := by
          by_contra begun
          rw [reached] at free
          exact free ⟨range, member, by omega, by omega⟩
        obtain ⟨cut, found, encloses⟩ := marks.comments range member
        rw [Nat.zero_add]
        exact Or.inr (encloses.word_before found unopened parts begins ahead)

end Entry.Foreign

namespace Comment

variable {opener closer : Char} {table : List Entry} {text : Text} {place : Nat}
  {ranges : List Span} {instruction : Instruction}

theorem Marks.inOrder (marks : Marks opener closer text place ranges) : InOrder ranges := by
  refine { forward := ?forward, apart := marks.apart }
  case forward =>
      intro range member
      obtain ⟨cut, found, encloses⟩ := marks.comments range member
      exact Nat.le_of_lt (encloses.start_lt_stop found)

theorem Outside.not_held (outside : Outside ranges instruction)
    (marks : Marks opener closer text 0 ranges)
    (foreign : ∀ entry ∈ table, entry.Foreign opener closer)
    (first : instruction.FirstIn table text) : ¬ Held ranges instruction.span.start := by
  rintro ⟨range, member, begun, unended⟩
  obtain ⟨start, entry, found, rfl⟩ := first
  have inside := (foreign entry found.mem).stop_le marks member found.1 begun unended
  exact outside range member ⟨begun, inside⟩

theorem firstIn_blank (marks : Marks opener closer text 0 ranges)
    (foreign : ∀ entry ∈ table, entry.Foreign opener closer)
    (first : instruction.FirstIn table text) (outside : Outside ranges instruction) :
    instruction.FirstIn table (blank ranges text) := by
  have free := outside.not_held marks foreign first
  obtain ⟨start, entry, found, rfl⟩ := first
  have same : ∀ other ∈ table,
      other.OpensAt (blank ranges text) start ↔ other.OpensAt text start := by
    intro other listed
    rw [(foreign other listed).opensAt_blank_iff marks]
    exact and_iff_left free
  have listed := found.mem
  obtain ⟨opens, earlier, later, split, missed⟩ := found
  refine ⟨start, entry, ⟨(same entry listed).mpr opens, earlier, later, split, ?_⟩, rfl⟩
  intro other before
  have known : other ∈ table := by
    rw [split]
    exact List.mem_append_left _ before
  rw [same other known]
  exact missed other before

theorem exhausts_blank (marks : Marks opener closer text 0 ranges)
    (foreign : ∀ entry ∈ table, entry.Foreign opener closer) :
    Lexer.Exhausts table (blank ranges text) 0 (strip ranges (text.tokenize table)) := by
  have exhausts := Lexer.exhausts_tokenize table text
  have filtered : strip ranges (text.tokenize table) =
      (text.tokenize table).filter fun instruction => decide (Outside ranges instruction) := by
    apply strip_eq_filter marks.inOrder
    · intro instruction member
      exact (exhausts.first instruction member).start_lt_stop
    · apply exhausts.apart.imp_of_mem
      intro first second member _ apart
      have long := (exhausts.first first member).start_lt_stop
      omega
  have mem_iff : ∀ instruction, instruction ∈ strip ranges (text.tokenize table) ↔
      instruction ∈ text.tokenize table ∧ Outside ranges instruction := by
    intro instruction
    rw [filtered, List.mem_filter, decide_eq_true_iff]
  refine { behind := fun _ _ => Nat.zero_le _, apart := ?apart, first := ?first,
           covers := ?covers }
  case apart => exact exhausts.apart.sublist (strip_sublist _ _)
  case first =>
      intro instruction member
      obtain ⟨read, outside⟩ := (mem_iff instruction).mp member
      exact firstIn_blank marks foreign (exhausts.first instruction read) outside
  case covers =>
      rintro start - ⟨entry, listed, opens⟩
      obtain ⟨opened, free⟩ := ((foreign entry listed).opensAt_blank_iff marks).mp opens
      obtain ⟨instruction, read, starts, stops⟩ :=
        exhausts.covers start (Nat.zero_le start) ⟨entry, listed, opened⟩
      refine ⟨instruction, (mem_iff instruction).mpr ⟨read, ?_⟩, starts, stops⟩
      rintro range member ⟨begun, unended⟩
      exact free ⟨range, member, Nat.le_trans begun starts, Nat.lt_of_lt_of_le stops unended⟩

/-! ### The bytes of a blanked text -/

def blankBytes (comments : List Span) (bytes : List UInt8) : List UInt8 :=
  bytes.mapIdx fun index byte => if Held comments index then 32 else byte

theorem encode_spaces (count : Nat) :
    Text.encode (List.replicate count ' ') = List.replicate count 32 := by
  induction count with
  | zero => rfl
  | succ count ih =>
      rw [List.replicate_succ, List.replicate_succ, Text.encode_cons, ih]
      rfl

end Comment

theorem Text.size_le_add_iff {text before rest front back : Text} {character : Char} {index : Nat}
    (parts : text = before ++ character :: rest) (otherParts : text = front ++ back)
    (inside : index < character.utf8Size) :
    front.size ≤ before.size + index ↔ front.size ≤ before.size := by
  constructor
  · intro reached
    rcases Nat.le_total front.size before.size with earlier | later
    · exact earlier
    · rcases size_eq_or_le parts otherParts later with same | beyond
      · exact Nat.le_of_eq same
      · omega
  · intro earlier
    exact Nat.le_add_right_of_le earlier

namespace Comment

variable {opener closer : Char} {text before rest : Text} {character : Char} {index : Nat}
  {ranges : List Span}

theorem held_add_iff (marks : Marks opener closer text 0 ranges)
    (parts : text = before ++ character :: rest) (inside : index < character.utf8Size) :
    Held ranges (before.size + index) ↔ Held ranges before.size := by
  unfold Held
  apply exists_congr
  intro range
  apply and_congr_right
  intro member
  obtain ⟨cut, found, -⟩ := marks.comments range member
  obtain ⟨whole, started, stopped⟩ := Text.cut?_eq_some_iff.mp found
  rw [← Text.size_append] at stopped
  rw [started, stopped, ← Nat.not_le, ← Nat.not_le, Text.size_le_add_iff parts whole inside,
    Text.size_le_add_iff parts (whole.trans (List.append_assoc _ _ _)) inside]

theorem encode_blankCharacter (marks : Marks opener closer text 0 ranges)
    (parts : text = before ++ character :: rest) :
    Text.encode (blankCharacter ranges before.size character) =
      (String.utf8EncodeChar character).mapIdx fun index byte =>
        if Held ranges (before.size + index) then 32 else byte := by
  have same : ∀ index, index < (String.utf8EncodeChar character).length →
      (Held ranges (before.size + index) ↔ Held ranges before.size) := by
    intro index inside
    rw [String.length_utf8EncodeChar] at inside
    exact held_add_iff marks parts inside
  unfold blankCharacter
  by_cases held : Held ranges before.size
  · rw [if_pos held, encode_spaces, ← String.length_utf8EncodeChar, eq_comm,
      List.mapIdx_eq_replicate_iff]
    intro index inside
    exact if_pos ((same index inside).mpr held)
  · rw [if_neg held, Text.encode_singleton, eq_comm, List.mapIdx_eq_iff]
    intro index
    by_cases inside : index < (String.utf8EncodeChar character).length
    · have free := fun other => held ((same index inside).mp other)
      rw [List.getElem?_eq_getElem inside, Option.map_some, if_neg free]
    · rw [List.getElem?_eq_none (Nat.le_of_not_lt inside)]
      rfl

theorem encode_blankFrom (marks : Marks opener closer text 0 ranges)
    (parts : text = before ++ rest) :
    Text.encode (blankFrom ranges before.size rest) =
      (Text.encode rest).mapIdx fun index byte =>
        if Held ranges (before.size + index) then 32 else byte := by
  induction rest generalizing before with
  | nil => rfl
  | cons character rest ih =>
      have laterParts : text = (before ++ [character]) ++ rest :=
        parts.trans (List.append_cons before character rest)
      have laterSize : before.size + character.utf8Size = (before ++ [character]).size :=
        (Text.size_append_singleton before character).symm
      rw [blankFrom, Text.encode_append, encode_blankCharacter marks parts, laterSize,
        ih laterParts, Text.encode_cons, List.mapIdx_append, String.length_utf8EncodeChar]
      simp only [← laterSize, Nat.add_assoc, Nat.add_comm character.utf8Size]

theorem encode_blank (marks : Marks opener closer text 0 ranges) :
    Text.encode (blank ranges text) = blankBytes ranges (Text.encode text) := by
  have encoded := encode_blankFrom marks (List.nil_append text).symm
  simp only [Text.size_nil, Nat.zero_add] at encoded
  exact encoded

end Comment

/-! ### Two ways to leave out comments -/

namespace Comment

/-- Leaving out the instructions in the comments of a text is reading the text with its comments
written over. -/
structure ReadsBlanked (table : List Entry) (opener closer : Char) (text : Text) : Prop where
  bytes : Text.encode (blank (ranges opener closer text) text) =
    blankBytes (ranges opener closer text) (Text.encode text)
  same : strip (ranges opener closer text) (text.tokenize table) =
    (blank (ranges opener closer text) text).tokenize table

theorem lookup_scream :
    Dialect.lookup "Scream" =
      .ok { name := "Scream", reading := .commented Tables.scream '(' ')' } :=
  rfl

theorem foreign_of_mem_scream : ∀ entry ∈ Tables.scream, entry.Foreign '(' ')' := by
  decide +kernel

theorem readsBlanked :
    (∀ table opener closer, (∀ entry ∈ table, entry.Foreign opener closer) →
        ∀ text, ReadsBlanked table opener closer text) ∧
      ∃ dialect, Dialect.lookup "Scream" = .ok dialect ∧ ∀ text,
        dialect.tokenize text =
          (blank (ranges '(' ')' text) text).tokenize Tables.scream := by
  have general : ∀ table opener closer, (∀ entry ∈ table, entry.Foreign opener closer) →
      ∀ text, ReadsBlanked table opener closer text := by
    intro table opener closer foreign text
    have marks := ranges_marks opener closer text
    exact
      { bytes := encode_blank marks
        same := (exhausts_blank marks foreign).unique (Lexer.exhausts_tokenize table _) }
  refine ⟨general, _, lookup_scream, ?_⟩
  intro text
  exact (general Tables.scream '(' ')' foreign_of_mem_scream text).same

/-- A closing character without an opening one, a comment in a comment with a character of two
bytes, and a comment without an end. -/
def nested : Text :=
  [')', 'a', 'b', '(', 'é', '(', 'b', 'a', ')', ')', 'b', 'a', '(', 'a']

theorem nested_readsBlanked :
    (∀ entry ∈ Tables.mirrored, entry.Foreign '(' ')') ∧
      blank (ranges '(' ')' nested) nested =
        [')', 'a', 'b', ' ', ' ', ' ', ' ', ' ', ' ', ' ', ' ', 'b', 'a', ' ', ' '] ∧
      strip (ranges '(' ')' nested) (nested.tokenize Tables.mirrored) =
        [.startingAt 1 .right ['a', 'b'], .startingAt 11 .left ['b', 'a']] := by
  have foreign : ∀ entry ∈ Tables.mirrored, entry.Foreign '(' ')' := by decide
  have blanked : blank (ranges '(' ')' nested) nested =
      [')', 'a', 'b', ' ', ' ', ' ', ' ', ' ', ' ', ' ', ' ', 'b', 'a', ' ', ' '] := by
    decide
  have reads := readsBlanked.1 Tables.mirrored '(' ')' foreign nested
  refine ⟨foreign, blanked, ?_⟩
  rw [reads.same, blanked]
  decide +kernel

end Comment
end TapeDialects
