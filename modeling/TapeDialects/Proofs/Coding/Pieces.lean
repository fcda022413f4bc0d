/-
Counted runs, piece by piece.

Terminators cut a text into pieces, each with the terminator that ends it; what stands
behind the last terminator belongs to no piece.  The reader goes over the text once, with
a run that is open or not.  At the front of a piece no run is open: a piece before has
closed its run, if it had one.  So what is read from a piece depends on this piece only,
and its commands on nothing but the number of its markers.
-/

import TapeDialects.Proofs.Coding.Counting
import TapeDialects.Proofs.Coding.Moved

namespace TapeDialects

namespace Text

def pieces (terminator : Char) : Text → List Text
  | [] => []
  | character :: rest =>
      if character = terminator then
        [character] :: pieces terminator rest
      else
        match pieces terminator rest with
        | [] => []
        | piece :: others => (character :: piece) :: others

variable {terminator : Char} {body rest tail : Text}

theorem pieces_of_notMem (unended : terminator ∉ tail) : pieces terminator tail = [] := by
  induction tail with
  | nil => rfl
  | cons character tail ih =>
      rw [List.mem_cons, not_or] at unended
      rw [pieces, if_neg (Ne.symm unended.1), ih unended.2]

theorem pieces_append_cons (unended : terminator ∉ body) (rest : Text) :
    pieces terminator (body ++ terminator :: rest) =
      (body ++ [terminator]) :: pieces terminator rest := by
  induction body with
  | nil => rw [List.nil_append, pieces, if_pos rfl, List.nil_append]
  | cons character body ih =>
      rw [List.mem_cons, not_or] at unended
      rw [List.cons_append, pieces, if_neg (Ne.symm unended.1), ih unended.2]
      rfl

theorem induction_on_pieces (terminator : Char) {motive : Text → Prop}
    (last : ∀ tail, terminator ∉ tail → motive tail)
    (piece : ∀ body rest, terminator ∉ body → motive rest → motive (body ++ terminator :: rest))
    (text : Text) : motive text := by
  generalize bound : text.length = length
  induction length using Nat.strongRecOn generalizing text with
  | ind length ih =>
      by_cases ended : terminator ∈ text
      · obtain ⟨body, rest, parts, unended⟩ := List.eq_append_cons_of_mem ended
        have shorter : rest.length < length := by
          rw [← bound, parts, List.length_append, List.length_cons]
          omega
        rw [parts]
        exact piece body rest unended (ih _ shorter rest rfl)
      · exact last text ended

theorem pieces_append (terminator : Char) (front back : Text) :
    pieces terminator (front ++ terminator :: back) =
      pieces terminator (front ++ [terminator]) ++ pieces terminator back := by
  induction front using induction_on_pieces terminator with
  | last tail unended =>
      rw [pieces_append_cons unended, pieces_append_cons unended]
      rfl
  | piece body rest unended ih =>
      rw [List.append_assoc, List.cons_append, pieces_append_cons unended, ih, List.append_assoc,
        List.cons_append, pieces_append_cons unended, List.cons_append]

theorem flatten_pieces (terminator : Char) (front : Text) :
    (pieces terminator (front ++ [terminator])).flatten = front ++ [terminator] := by
  induction front using induction_on_pieces terminator with
  | last tail unended =>
      rw [pieces_append_cons unended, pieces, List.flatten_singleton]
  | piece body rest unended ih =>
      rw [List.append_assoc, List.cons_append, pieces_append_cons unended, List.flatten_cons, ih,
        ← List.append_cons]

/-- A piece has a terminator at its end and nowhere else. -/
def IsPiece (terminator : Char) (piece : Text) : Prop :=
  ∃ body, terminator ∉ body ∧ piece = body ++ [terminator]

theorem isPiece_of_mem_pieces {text piece : Text} (member : piece ∈ pieces terminator text) :
    IsPiece terminator piece := by
  induction text using induction_on_pieces terminator with
  | last tail unended =>
      rw [pieces_of_notMem unended] at member
      cases member
  | piece body rest unended ih =>
      rw [pieces_append_cons unended] at member
      rcases List.mem_cons.mp member with same | behind
      · exact ⟨body, unended, same⟩
      · exact ih behind

theorem exists_eq_flatten_pieces_append (terminator : Char) (text : Text) :
    ∃ tail, terminator ∉ tail ∧ text = (pieces terminator text).flatten ++ tail := by
  induction text using induction_on_pieces terminator with
  | last tail unended =>
      refine ⟨tail, unended, ?_⟩
      rw [pieces_of_notMem unended]
      rfl
  | piece body rest unended ih =>
      obtain ⟨tail, tailUnended, parts⟩ := ih
      refine ⟨tail, tailUnended, ?_⟩
      rw [pieces_append_cons unended, List.flatten_cons, List.append_assoc, ← parts,
        ← List.append_cons]

theorem pieces_filter {keep : Char → Bool} (kept : keep terminator = true) (text : Text) :
    pieces terminator (text.filter keep) = (pieces terminator text).map (List.filter keep) := by
  induction text using induction_on_pieces terminator with
  | last tail unended =>
      have filtered : terminator ∉ tail.filter keep :=
        fun member => unended (List.mem_filter.mp member).1
      rw [pieces_of_notMem unended, pieces_of_notMem filtered]
      rfl
  | piece body rest unended ih =>
      have filtered : terminator ∉ body.filter keep :=
        fun member => unended (List.mem_filter.mp member).1
      rw [List.filter_append, List.filter_cons_of_pos kept, pieces_append_cons filtered, ih,
        pieces_append_cons unended, List.map_cons, List.filter_append, List.filter_cons_of_pos kept]
      rfl

end Text

/-! ### What a piece is read as -/

namespace RunFormat

def commandsFor (format : RunFormat) (markers : Nat) : List Command :=
  if markers = 0 then
    []
  else
    List.replicate (if format.cycles then (markers - 1) / 8 + 1 else 1) (Command.ofCode markers)

/-- The instructions of a piece, all from its first marker to its end. -/
def readPiece (format : RunFormat) (position : Nat) (piece : Text) : List Instruction :=
  (format.commandsFor (piece.count format.marker)).map fun command =>
    { command
      lexeme := piece.dropWhile (· != format.marker)
      span :=
        { start := position + Text.size (piece.takeWhile (· != format.marker))
          stop := position + piece.size } }

def readPieces (format : RunFormat) (position : Nat) : List Text → List Instruction
  | [] => []
  | piece :: others =>
      format.readPiece position piece ++ readPieces format (position + piece.size) others

variable {format : RunFormat} {position : Nat} {body noise inner rest : Text}

theorem tokenizeFrom_unended (unended : format.terminator ∉ rest) (run : Option OpenRun) :
    format.tokenizeFrom position run rest = [] := by
  induction rest generalizing position run with
  | nil => rfl
  | cons character rest ih =>
      rw [List.mem_cons, not_or] at unended
      rw [tokenizeFrom, if_neg (Ne.symm unended.1), ih unended.2, ih unended.2, ite_self]

theorem tokenizeFrom_noise (unmarked : format.marker ∉ noise) (unended : format.terminator ∉ noise)
    (rest : Text) :
    format.tokenizeFrom position none (noise ++ rest) =
      format.tokenizeFrom (position + noise.size) none rest := by
  induction noise generalizing position with
  | nil => rfl
  | cons character noise ih =>
      rw [List.mem_cons, not_or] at unmarked unended
      rw [List.cons_append, tokenizeFrom, if_neg (Ne.symm unmarked.1), if_neg (Ne.symm unended.1),
        Option.map_none, ih unmarked.2 unended.2, Text.size_cons, Nat.add_assoc]

theorem tokenizeFrom_run (distinct : format.terminator ≠ format.marker)
    (unended : format.terminator ∉ inner) (run : OpenRun) (rest : Text) :
    format.tokenizeFrom position (some run) (inner ++ format.terminator :: rest) =
      OpenRun.close format
          { start := run.start
            markers := run.markers + inner.count format.marker
            reversed := inner.reverse ++ run.reversed } ++
        format.tokenizeFrom (position + inner.size + format.terminator.utf8Size) none rest := by
  induction inner generalizing position run with
  | nil =>
      rw [List.nil_append, tokenizeFrom, if_neg distinct, if_pos rfl]
      rfl
  | cons character inner ih =>
      rw [List.mem_cons, not_or] at unended
      rw [List.cons_append, tokenizeFrom, if_neg (Ne.symm unended.1), Text.size_cons,
        List.reverse_cons, List.append_assoc, ← Nat.add_assoc]
      by_cases marks : character = format.marker
      · have counted : run.markers + 1 + inner.count format.marker =
            run.markers + (inner.count format.marker + 1) := by omega
        rw [if_pos marks, ih unended.2, marks, List.count_cons_self, ← counted]
        rfl
      · rw [if_neg marks, Option.map_some, ih unended.2, List.count_cons_of_ne marks]
        rfl

theorem readPiece_of_unmarked (unmarked : format.marker ∉ body) :
    format.readPiece position body = [] := by
  unfold readPiece commandsFor
  rw [List.count_eq_zero_of_not_mem unmarked, if_pos rfl, List.map_nil]

theorem readPiece_of_marked (distinct : format.terminator ≠ format.marker)
    (unmarked : format.marker ∉ noise) :
    format.readPiece position (noise ++ format.marker :: inner ++ [format.terminator]) =
      OpenRun.close format
        { start := position + noise.size
          markers := 1 + inner.count format.marker
          reversed := inner.reverse ++ [format.marker] } := by
  have passed : ∀ character ∈ noise, (character != format.marker) = true := by
    intro character member
    exact bne_iff_ne.mpr fun same => unmarked (same ▸ member)
  have counted : (noise ++ format.marker :: (inner ++ [format.terminator])).count format.marker =
      1 + inner.count format.marker := by
    rw [List.count_append, List.count_eq_zero_of_not_mem unmarked, List.count_cons_self,
      List.count_append, List.count_cons_of_ne distinct, List.count_nil, Nat.zero_add, Nat.add_comm]
    rfl
  have before : (noise ++ format.marker :: (inner ++ [format.terminator])).takeWhile
      (· != format.marker) = noise := by
    rw [List.takeWhile_append_of_pos passed, List.takeWhile_cons_of_neg (by simp), List.append_nil]
  have kept : (noise ++ format.marker :: (inner ++ [format.terminator])).dropWhile
      (· != format.marker) = format.marker :: (inner ++ [format.terminator]) := by
    rw [List.dropWhile_append_of_pos passed, List.dropWhile_cons_of_neg (by simp)]
  have inOrder : format.marker :: (inner ++ [format.terminator]) =
      (inner.reverse ++ [format.marker]).reverse ++ [format.terminator] := by
    rw [List.reverse_append, List.reverse_reverse]
    rfl
  unfold readPiece commandsFor
  rw [List.append_assoc, List.cons_append, counted, before, kept, if_neg (by omega),
    List.map_replicate, Text.size_append, ← Nat.add_assoc, inOrder]
  rfl

theorem tokenizeFrom_piece (distinct : format.terminator ≠ format.marker)
    (unended : format.terminator ∉ body) (rest : Text) :
    format.tokenizeFrom position none (body ++ format.terminator :: rest) =
      format.readPiece position (body ++ [format.terminator]) ++
        format.tokenizeFrom (position + (body ++ [format.terminator]).size) none rest := by
  rw [Text.size_append_singleton, ← Nat.add_assoc]
  by_cases marked : format.marker ∈ body
  · obtain ⟨noise, inner, parts, unmarked⟩ := List.eq_append_cons_of_mem marked
    rw [parts, List.mem_append, List.mem_cons, not_or, not_or] at unended
    rw [parts, readPiece_of_marked distinct unmarked, List.append_assoc, List.cons_append,
      tokenizeFrom_noise unmarked unended.1, tokenizeFrom, if_pos rfl,
      tokenizeFrom_run distinct unended.2.2, Text.size_append, Text.size_cons, ← Nat.add_assoc,
      ← Nat.add_assoc]
    rfl
  · have unmarked : format.marker ∉ body ++ [format.terminator] := by
      rw [List.mem_append, List.mem_singleton, not_or]
      exact ⟨marked, distinct.symm⟩
    rw [readPiece_of_unmarked unmarked, tokenizeFrom_noise marked unended, tokenizeFrom,
      if_neg distinct, if_pos rfl]
    rfl

theorem tokenizeFrom_eq_readPieces (distinct : format.terminator ≠ format.marker) (text : Text) :
    format.tokenizeFrom position none text =
      format.readPieces position (text.pieces format.terminator) := by
  induction text using Text.induction_on_pieces format.terminator generalizing position with
  | last tail unended =>
      rw [tokenizeFrom_unended unended, Text.pieces_of_notMem unended, readPieces]
  | piece body rest unended ih =>
      rw [tokenizeFrom_piece distinct unended, ih, Text.pieces_append_cons unended, readPieces]

/-! ### Noise, joined texts and rounds -/

theorem map_command_readPieces (format : RunFormat) (position : Nat) (cut : List Text) :
    (format.readPieces position cut).map Instruction.command =
      cut.flatMap fun piece => format.commandsFor (piece.count format.marker) := by
  induction cut generalizing position with
  | nil => rfl
  | cons piece others ih =>
      rw [readPieces, List.map_append, ih, List.flatMap_cons, readPiece, List.map_map]
      exact congrArg (· ++ _) (List.map_id _)

theorem map_command_tokenize_eq (distinct : format.terminator ≠ format.marker) (text : Text) :
    (format.tokenize text).map Instruction.command =
      (text.pieces format.terminator).flatMap fun piece =>
        format.commandsFor (piece.count format.marker) := by
  rw [tokenize, tokenizeFrom_eq_readPieces distinct, map_command_readPieces]

def counts (format : RunFormat) (character : Char) : Bool :=
  character == format.marker || character == format.terminator

theorem map_command_tokenize_filter (distinct : format.terminator ≠ format.marker) (text : Text) :
    (format.tokenize (text.filter format.counts)).map Instruction.command =
      (format.tokenize text).map Instruction.command := by
  have marks : format.counts format.marker = true := by simp [counts]
  have ends : format.counts format.terminator = true := by simp [counts]
  rw [map_command_tokenize_eq distinct, map_command_tokenize_eq distinct, Text.pieces_filter ends,
    List.flatMap_map]
  simp only [List.count_filter marks]

theorem readPieces_append (format : RunFormat) (position : Nat) (front back : List Text) :
    format.readPieces position (front ++ back) =
      format.readPieces position front ++
        format.readPieces (position + Text.size front.flatten) back := by
  induction front generalizing position with
  | nil => rfl
  | cons piece front ih =>
      rw [List.cons_append, readPieces, readPieces, ih, List.append_assoc, List.flatten_cons,
        Text.size_append, Nat.add_assoc]

theorem readPieces_add (format : RunFormat) (offset position : Nat) (cut : List Text) :
    format.readPieces (offset + position) cut =
      (format.readPieces position cut).map (Instruction.movedBy offset) := by
  induction cut generalizing position with
  | nil => rfl
  | cons piece others ih =>
      rw [readPieces, readPieces, List.map_append, Nat.add_assoc, ih, readPiece, readPiece,
        List.map_map]
      simp only [Nat.add_assoc]
      rfl

theorem tokenize_append_terminator (distinct : format.terminator ≠ format.marker)
    (front back : Text) :
    format.tokenize (front ++ format.terminator :: back) =
      format.tokenize (front ++ [format.terminator]) ++
        (format.tokenize back).map
          (Instruction.movedBy (front ++ [format.terminator]).size) := by
  unfold tokenize
  rw [tokenizeFrom_eq_readPieces distinct, tokenizeFrom_eq_readPieces distinct,
    tokenizeFrom_eq_readPieces distinct, Text.pieces_append, readPieces_append,
    Text.flatten_pieces, ← readPieces_add, Nat.zero_add, Nat.add_zero]

end RunFormat

/-- A command that is given so many times by one run. -/
structure CodedRun where
  command : Command
  code : Nat
  rounds : Nat
  coded : command.HasCode code
  started : 0 < rounds

namespace CodedRun

/-- A round of all basic commands for each time but the last, and then the code. -/
def markers (run : CodedRun) : Nat :=
  8 * (run.rounds - 1) + run.code

def text (format : RunFormat) (run : CodedRun) : Text :=
  List.replicate run.markers format.marker ++ [format.terminator]

def commands (run : CodedRun) : List Command :=
  List.replicate run.rounds run.command

theorem ofCode_markers (run : CodedRun) : Command.ofCode run.markers = run.command := by
  have positive := run.coded.1
  have shifted : run.markers - 1 = Command.basic.length * (run.rounds - 1) + (run.code - 1) := by
    show 8 * (run.rounds - 1) + run.code - 1 = 8 * (run.rounds - 1) + (run.code - 1)
    omega
  rw [← run.coded.ofCode_eq, Command.ofCode, Command.ofCode, shifted, Nat.mul_add_mod]

theorem commandsFor_markers {format : RunFormat} (cycles : format.cycles = true)
    (run : CodedRun) : format.commandsFor run.markers = run.commands := by
  have positive := run.coded.1
  have bounded : run.code ≤ 8 := run.coded.le_length
  have started := run.started
  have marked : run.markers ≠ 0 := by
    unfold markers
    omega
  have rounds : (run.markers - 1) / 8 + 1 = run.rounds := by
    unfold markers
    omega
  unfold RunFormat.commandsFor commands
  rw [if_neg marked, if_pos cycles, rounds, ofCode_markers]

theorem flatMap_pieces {format : RunFormat} (distinct : format.terminator ≠ format.marker)
    (cycles : format.cycles = true) (runs : List CodedRun) :
    (Text.pieces format.terminator (runs.flatMap (text format))).flatMap
        (fun piece => format.commandsFor (piece.count format.marker)) =
      runs.flatMap commands := by
  induction runs with
  | nil => rfl
  | cons run runs ih =>
      have unended : format.terminator ∉ List.replicate run.markers format.marker := by
        intro member
        exact distinct (List.eq_of_mem_replicate member)
      have counted : (text format run).count format.marker = run.markers := by
        rw [text, List.count_append, List.count_replicate_self, List.count_cons_of_ne distinct]
        rfl
      rw [List.flatMap_cons, text, List.append_assoc, List.singleton_append,
        Text.pieces_append_cons unended, ← text, List.flatMap_cons, counted, ih,
        commandsFor_markers cycles, List.flatMap_cons]

end CodedRun

namespace RunFormat

structure ReadsByPieces (format : RunFormat) : Prop where
  cut : ∀ text : Text,
    (∀ piece ∈ text.pieces format.terminator, Text.IsPiece format.terminator piece) ∧
      ∃ tail, format.terminator ∉ tail ∧ text = (text.pieces format.terminator).flatten ++ tail
  pieces : ∀ text : Text,
    format.tokenize text = format.readPieces 0 (text.pieces format.terminator)
  /-- Only the markers and terminators count for the commands. -/
  noise : ∀ text other : Text, text.filter format.counts = other.filter format.counts →
    (format.tokenize text).map Instruction.command =
      (format.tokenize other).map Instruction.command
  joins : ∀ front back : Text,
    format.tokenize (front ++ format.terminator :: back) =
      format.tokenize (front ++ [format.terminator]) ++
        (format.tokenize back).map (Instruction.movedBy (front ++ [format.terminator]).size)
  rounds : format.cycles = true → ∀ runs : List CodedRun,
    (format.tokenize (runs.flatMap (CodedRun.text format))).map Instruction.command =
      runs.flatMap CodedRun.commands

theorem readsByPieces_of_distinct {format : RunFormat}
    (distinct : format.terminator ≠ format.marker) : format.ReadsByPieces := by
  refine { cut := ?cut, pieces := fun _ => tokenizeFrom_eq_readPieces distinct _, noise := ?noise,
           joins := tokenize_append_terminator distinct, rounds := ?rounds }
  case cut =>
      intro text
      exact ⟨fun _ => Text.isPiece_of_mem_pieces, Text.exists_eq_flatten_pieces_append _ text⟩
  case noise =>
      intro text other same
      rw [← map_command_tokenize_filter distinct text, same, map_command_tokenize_filter distinct]
  case rounds =>
      intro cycles runs
      rw [map_command_tokenize_eq distinct, CodedRun.flatMap_pieces distinct cycles]

def umlauts : RunFormat :=
  { marker := 'ö', terminator := '–', cycles := true }

/-- Two markers with noise around them, an empty piece, nine markers, and a run that is
not closed. -/
theorem umlauts_readByPieces :
    umlauts.terminator ≠ umlauts.marker ∧
      umlauts.tokenize
          (['é', '.', 'ö', '.', 'ö', '–', '–'] ++ (List.replicate 9 'ö' ++ ['–', 'ö'])) =
        .startingAt 3 .left ['ö', '.', 'ö', '–'] ::
          List.replicate 2 (.startingAt 14 .right (List.replicate 9 'ö' ++ ['–'])) := by
  have distinct : umlauts.terminator ≠ umlauts.marker := by decide
  refine ⟨distinct, ?_⟩
  rw [(readsByPieces_of_distinct distinct).pieces]
  decide +kernel

end RunFormat
end TapeDialects
