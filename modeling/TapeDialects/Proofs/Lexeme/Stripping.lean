/-
Leaving out the instructions inside comments.

Comments that stand in the order of the text and do not overlap are gone through
once, beside instructions in the order of their starts.  A comment that ends where
an instruction starts, or before, holds neither it nor any later one.  Of the other
comments only the first can hold it, because the rest of them start behind that.  So
the pass keeps those instructions that none of all the comments holds.
-/

import Mathlib.Data.List.Chain
import TapeDialects.Proofs.Lexeme.Separable

namespace TapeDialects.Comment

/-- No comment holds the instruction. -/
def Outside (comments : List Span) (instruction : Instruction) : Prop :=
  ∀ comment ∈ comments, ¬ instruction.span.Within comment

instance (comments : List Span) (instruction : Instruction) :
    Decidable (Outside comments instruction) :=
  inferInstanceAs (Decidable (∀ comment ∈ comments, ¬ instruction.span.Within comment))

structure InOrder (comments : List Span) : Prop where
  forward : ∀ comment ∈ comments, comment.start ≤ comment.stop
  apart : comments.Pairwise fun first second => first.stop ≤ second.start

variable {comments others : List Span} {nearest : Span} {instruction : Instruction}
  {instructions : List Instruction} {place : Nat}

theorem InOrder.sublist (inOrder : InOrder comments) (part : others.Sublist comments) :
    InOrder others :=
  { forward := fun comment member => inOrder.forward comment (part.mem member)
    apart := inOrder.apart.sublist part }

theorem InOrder.of_isChain (forward : ∀ comment ∈ comments, comment.start ≤ comment.stop)
    (apart : comments.IsChain fun first second => first.stop ≤ second.start) :
    InOrder comments := by
  refine { forward, apart := ?apart }
  induction comments with
  | nil => exact .nil
  | cons first others ih =>
      obtain ⟨-, laterForward⟩ := List.forall_mem_cons.mp forward
      have later := ih laterForward apart.tail
      apply List.pairwise_cons.mpr
      refine ⟨?_, later⟩
      cases others with
      | nil => exact List.forall_mem_nil _
      | cons second others =>
          have next : first.stop ≤ second.start := (List.isChain_cons_cons.mp apart).1
          have long := laterForward second List.mem_cons_self
          obtain ⟨ahead, -⟩ := List.pairwise_cons.mp later
          intro other member
          rcases List.mem_cons.mp member with rfl | behind
          · exact next
          · exact Nat.le_trans next (Nat.le_trans long (ahead other behind))

def ahead (place : Nat) (comments : List Span) : List Span :=
  comments.dropWhile fun comment => decide (comment.stop ≤ place)

theorem InOrder.ahead (inOrder : InOrder comments) (place : Nat) :
    InOrder (ahead place comments) :=
  inOrder.sublist (List.dropWhile_sublist _)

theorem lt_stop_of_ahead_eq_cons (found : ahead place comments = nearest :: others) :
    place < nearest.stop := by
  have kept := List.head?_dropWhile_not (fun comment : Span => decide (comment.stop ≤ place))
    comments
  rw [← ahead, found, List.head?_cons] at kept
  exact Nat.lt_of_not_le (of_decide_eq_false kept)

theorem outside_nil (instruction : Instruction) : Outside [] instruction :=
  List.forall_mem_nil _

theorem outside_ahead_iff (filled : instruction.span.start < instruction.span.stop)
    (later : place ≤ instruction.span.start) :
    Outside (ahead place comments) instruction ↔ Outside comments instruction := by
  induction comments with
  | nil => exact Iff.rfl
  | cons comment others ih =>
      rw [ahead, List.dropWhile_cons]
      split
      · next passed =>
          have ended : comment.stop ≤ place := of_decide_eq_true passed
          have free : ¬ instruction.span.Within comment := by
            rintro ⟨-, inside⟩
            omega
          rw [← ahead, ih, Outside, Outside, List.forall_mem_cons, and_iff_right free]
      · exact Iff.rfl

/-- Only the first of the comments that end behind its start can hold an instruction. -/
theorem outside_cons_iff (inOrder : InOrder (nearest :: others))
    (unended : instruction.span.start < nearest.stop) :
    Outside (nearest :: others) instruction ↔ ¬ instruction.span.Within nearest := by
  rw [Outside, List.forall_mem_cons, and_iff_left_iff_imp]
  rintro - other member ⟨begins, -⟩
  have onward := (List.pairwise_cons.mp inOrder.apart).1 other member
  omega

theorem strip_cons_of_outside (inOrder : InOrder comments)
    (filled : instruction.span.start < instruction.span.stop)
    (outside : Outside comments instruction) (instructions : List Instruction) :
    strip comments (instruction :: instructions) =
      instruction :: strip (ahead instruction.span.start comments) instructions := by
  have kept := (outside_ahead_iff filled (Nat.le_refl _)).mpr outside
  rw [strip, ← ahead]
  cases found : ahead instruction.span.start comments with
  | nil => rfl
  | cons nearest others =>
      have ordered := inOrder.ahead instruction.span.start
      rw [found] at kept ordered
      exact if_neg ((outside_cons_iff ordered (lt_stop_of_ahead_eq_cons found)).mp kept)

theorem strip_cons_of_not_outside (inOrder : InOrder comments)
    (filled : instruction.span.start < instruction.span.stop)
    (held : ¬ Outside comments instruction) (instructions : List Instruction) :
    strip comments (instruction :: instructions) =
      strip (ahead instruction.span.start comments) instructions := by
  rw [← outside_ahead_iff filled (Nat.le_refl _)] at held
  rw [strip, ← ahead]
  cases found : ahead instruction.span.start comments with
  | nil =>
      rw [found] at held
      exact absurd (outside_nil instruction) held
  | cons nearest others =>
      have ordered := inOrder.ahead instruction.span.start
      rw [found] at held ordered
      rw [outside_cons_iff ordered (lt_stop_of_ahead_eq_cons found), not_not] at held
      exact if_pos held

theorem strip_eq_filter (inOrder : InOrder comments)
    (filled : ∀ instruction ∈ instructions, instruction.span.start < instruction.span.stop)
    (rising : instructions.Pairwise fun first second => first.span.start ≤ second.span.start) :
    strip comments instructions =
      instructions.filter fun instruction => decide (Outside comments instruction) := by
  induction instructions generalizing comments with
  | nil => rw [strip, List.filter_nil]
  | cons instruction instructions ih =>
      obtain ⟨long, laterFilled⟩ := List.forall_mem_cons.mp filled
      obtain ⟨onward, laterRising⟩ := List.pairwise_cons.mp rising
      have later : strip (ahead instruction.span.start comments) instructions =
          instructions.filter fun other => decide (Outside comments other) := by
        rw [ih (inOrder.ahead _) laterFilled laterRising]
        apply List.filter_congr
        intro other member
        rw [decide_eq_decide]
        exact outside_ahead_iff (laterFilled other member) (onward other member)
      by_cases outside : Outside comments instruction
      · rw [strip_cons_of_outside inOrder long outside, later,
          List.filter_cons_of_pos (by simpa using outside)]
      · rw [strip_cons_of_not_outside inOrder long outside, later,
          List.filter_cons_of_neg (by simpa using outside)]

theorem strip_keepsOutside {comments : List Span} {instructions : List Instruction}
    (filled : ∀ instruction ∈ instructions, instruction.span.start < instruction.span.stop)
    (rising : instructions.Pairwise fun first second => first.span.start ≤ second.span.start)
    (forward : ∀ comment ∈ comments, comment.start ≤ comment.stop)
    (apart : comments.IsChain fun first second => first.stop ≤ second.start) :
    strip comments instructions =
      instructions.filter fun instruction =>
        decide (∀ comment ∈ comments, ¬ instruction.span.Within comment) :=
  strip_eq_filter (.of_isChain forward apart) filled rising

/-- Instructions that reach into comments, fill them, touch them and lie across two of them. -/
theorem eightAcrossComments_stripped :
    strip
        [{ start := 2, stop := 5 }, { start := 5, stop := 5 }, { start := 5, stop := 9 },
          { start := 12, stop := 14 }]
        ([(1, 3), (2, 5), (4, 6), (5, 6), (5, 9), (8, 10), (9, 12), (12, 13)].map fun place =>
          { command := .right, lexeme := [], span := { start := place.1, stop := place.2 } }) =
      [(1, 3), (4, 6), (8, 10), (9, 12)].map fun place =>
        { command := .right, lexeme := [], span := { start := place.1, stop := place.2 } } := by
  rw [strip_keepsOutside (by decide) (by decide) (by decide) (by simp)]
  decide

end TapeDialects.Comment
