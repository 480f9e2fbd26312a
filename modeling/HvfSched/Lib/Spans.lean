import Mathlib.Algebra.Order.Group.Defs
import Mathlib.Algebra.Order.Group.Unbundled.Basic
import Mathlib.Tactic.Abel

/-!
# Spans of time

A list of spans, newest first, that follow one another without overlap
between a lower and an upper end. Spans may be empty and may touch. The sum
of their lengths is then at least zero and at most the distance of the ends,
whatever the number of spans.

Time is any preorder, and an ordered additive group where lengths are summed.
-/

namespace HvfSched.Lib

variable {T : Type}

/-! ## Spans in order -/

section Order

/-- The spans lie between `lo` and `hi`, one after the other. -/
def SpanChain [LE T] (lo : T) : List (T × T) → T → Prop
  | [], hi => lo ≤ hi
  | x :: l, hi => SpanChain lo l x.1 ∧ x.1 ≤ x.2 ∧ x.2 ≤ hi

variable [Preorder T] {lo hi hi' : T} {l : List (T × T)}

theorem SpanChain.mono (h : SpanChain lo l hi) (hle : hi ≤ hi') : SpanChain lo l hi' := by
  cases l with
  | nil => exact le_trans h hle
  | cons x l => exact ⟨h.1, h.2.1, le_trans h.2.2 hle⟩

/-- One more span, from the old upper end on. -/
theorem SpanChain.close (h : SpanChain lo l hi) (hle : hi ≤ hi') :
    SpanChain lo ((hi, hi') :: l) hi' :=
  ⟨h, hle, le_refl hi'⟩

theorem SpanChain.ends_le (h : SpanChain lo l hi) : lo ≤ hi := by
  induction l generalizing hi with
  | nil => exact h
  | cons x l ih => exact le_trans (ih h.1) (le_trans h.2.1 h.2.2)

theorem SpanChain.span_le (h : SpanChain lo l hi) : ∀ x ∈ l, x.1 ≤ x.2 ∧ x.2 ≤ hi := by
  induction l generalizing hi with
  | nil => simp
  | cons x l ih =>
    obtain ⟨hrest, hle, hend⟩ := h
    intro y hy
    rcases List.mem_cons.mp hy with rfl | hy
    · exact ⟨hle, hend⟩
    · obtain ⟨hy₁, hy₂⟩ := ih hrest y hy
      exact ⟨hy₁, le_trans hy₂ (le_trans hle hend)⟩

/-- An older span ends before a newer one starts. -/
theorem SpanChain.pairwise (h : SpanChain lo l hi) : l.Pairwise (fun x y => y.2 ≤ x.1) := by
  induction l generalizing hi with
  | nil => exact .nil
  | cons x l ih =>
    refine .cons ?_ (ih h.1)
    intro y hy
    exact (h.1.span_le y hy).2

end Order

/-! ## Lengths -/

section Length

variable [AddCommGroup T] [PartialOrder T] [IsOrderedAddMonoid T] {lo hi : T} {l : List (T × T)}

/-- The sum of the lengths. -/
def totalLength : List (T × T) → T
  | [] => 0
  | x :: l => x.2 - x.1 + totalLength l

theorem SpanChain.totalLength_nonneg (h : SpanChain lo l hi) : 0 ≤ totalLength l := by
  induction l generalizing hi with
  | nil => exact le_refl 0
  | cons x l ih => exact add_nonneg (sub_nonneg.mpr h.2.1) (ih h.1)

theorem SpanChain.totalLength_le (h : SpanChain lo l hi) : totalLength l ≤ hi - lo := by
  induction l generalizing hi with
  | nil => exact sub_nonneg.mpr h
  | cons x l ih =>
    obtain ⟨hrest, -, hend⟩ := h
    calc x.2 - x.1 + totalLength l ≤ x.2 - x.1 + (x.1 - lo) := add_le_add (le_refl _) (ih hrest)
      _ = x.2 - lo := by abel
      _ ≤ hi - lo := sub_le_sub_right hend lo

end Length

end HvfSched.Lib
