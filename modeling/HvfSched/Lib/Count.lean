import Mathlib.Data.Nat.Count

/-!
# Counts below a bound

How `Nat.count` changes when a predicate changes at a single point, and how it
splits along a second predicate. A counter that is kept up to date by
increments and decrements is compared with the count it stands for by
`count_change`: the difference is the difference at the point that changed.
-/

namespace HvfSched.Lib

variable {P Q : Nat → Prop} [DecidablePred P] [DecidablePred Q] {n k : Nat}

/-- One if the predicate holds, zero otherwise. -/
def indicator (p : Prop) [Decidable p] : Int := if p then 1 else 0

theorem indicator_pos {p : Prop} [Decidable p] (h : p) : indicator p = 1 := if_pos h

theorem indicator_neg {p : Prop} [Decidable p] (h : ¬ p) : indicator p = 0 := if_neg h

theorem indicator_congr {p q : Prop} [Decidable p] [Decidable q] (h : p ↔ q) :
    indicator p = indicator q := by
  by_cases hp : p
  · rw [indicator_pos hp, indicator_pos (h.mp hp)]
  · rw [indicator_neg hp, indicator_neg (fun hq => hp (h.mpr hq))]

theorem count_succ_indicator (n : Nat) :
    (Nat.count P (n + 1) : Int) = Nat.count P n + indicator (P n) := by
  rw [Nat.count_succ, indicator]
  split
  next => omega
  next => omega

/-- The same predicate below the bound gives the same count. -/
theorem count_congr (h : ∀ j, j < n → (P j ↔ Q j)) : Nat.count P n = Nat.count Q n := by
  rw [Nat.count_eq_card_filter_range, Nat.count_eq_card_filter_range]
  refine congrArg Finset.card (Finset.filter_congr ?_)
  intro j hj
  exact h j (Finset.mem_range.mp hj)

/-- A predicate changed at one point below the bound. -/
theorem count_change (hk : k < n) (h : ∀ j, j ≠ k → (P j ↔ Q j)) :
    (Nat.count Q n : Int) - indicator (Q k) = Nat.count P n - indicator (P k) := by
  induction n with
  | zero => exact absurd hk (Nat.not_lt_zero k)
  | succ n ih =>
    rw [count_succ_indicator, count_succ_indicator]
    by_cases hn : k = n
    · -- the changed point is the last one: the rest is the same
      subst hn
      have hrest : Nat.count P k = Nat.count Q k :=
        count_congr fun j hj => h j (Nat.ne_of_lt hj)
      rw [hrest]
      omega
    · have hrec := ih (by omega)
      have hlast := indicator_congr (h n (fun e => hn e.symm))
      omega

/-- The count splits along a second predicate. -/
theorem count_split (n : Nat) :
    Nat.count P n = Nat.count (fun j => P j ∧ Q j) n + Nat.count (fun j => P j ∧ ¬ Q j) n := by
  induction n with
  | zero => simp
  | succ n ih =>
    rw [Nat.count_succ, Nat.count_succ, Nat.count_succ, ih]
    by_cases hP : P n
    · by_cases hQ : Q n
      · simp only [hP, hQ, and_self, not_true, and_false, if_true, if_false]
        omega
      · simp only [hP, hQ, and_false, not_false_iff, and_self, if_true, if_false]
        omega
    · simp only [hP, false_and, if_false]
      omega

end HvfSched.Lib
