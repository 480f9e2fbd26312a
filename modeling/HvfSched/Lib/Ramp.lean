import Mathlib.Tactic.Ring

/-!
# Descending ramps

A ramp is at its top up to a point `a`, falls to zero on the way from `a` to
`b`, and stays there. On the way down it is a quotient rounded towards zero,
so two ramps cannot be compared by comparing numerators and denominators. The
rounding disappears if one asks where a ramp reaches a given level
(`le_ramp_iff`): the set of these points is an interval whose end is an exact
number. The shape of a ramp and its monotonicity in all three points are read
off its levels. Rounding commutes with a change of the unit (`ramp_scale`).
-/

namespace HvfSched.Lib

/-- At `top` before `a`, at zero after `b`, and in between the line from one
to the other, rounded down. -/
def ramp (top a b x : Int) : Int :=
  if x < a then top else if b < x then 0 else (b - x) * top / (b - a)

variable {top a b x k : Int}

theorem ramp_nonneg (htop : 0 ≤ top) (hab : a < b) : 0 ≤ ramp top a b x := by
  unfold ramp
  split
  next => exact htop
  next =>
    split
    next => exact Int.le_refl 0
    next hxb =>
      apply Int.ediv_nonneg
      · exact Int.mul_nonneg (by omega) htop
      · omega

theorem ramp_le (htop : 1 ≤ top) (hab : a < b) : ramp top a b x ≤ top := by
  unfold ramp
  split
  next => exact Int.le_refl top
  next hax =>
    split
    next => omega
    next =>
      apply Int.ediv_le_of_le_mul (by omega)
      rw [Int.mul_comm]
      exact Int.mul_le_mul_of_nonneg_left (by omega) (by omega)

/-- Where the ramp reaches the level `k`. -/
theorem le_ramp_iff (hab : a < b) (hk : 1 ≤ k) (htop : k ≤ top) :
    k ≤ ramp top a b x ↔ k * (b - a) ≤ (b - x) * top := by
  have hspan : 0 < b - a := by omega
  unfold ramp
  split
  next hxa =>
    -- the top is above every level
    refine iff_of_true htop ?_
    calc k * (b - a) ≤ top * (b - a) := Int.mul_le_mul_of_nonneg_right htop (by omega)
      _ ≤ top * (b - x) := Int.mul_le_mul_of_nonneg_left (by omega) (by omega)
      _ = (b - x) * top := Int.mul_comm ..
  next =>
    split
    next hbx =>
      -- zero is below every level
      refine iff_of_false (by omega) ?_
      have hneg : (b - x) * top < 0 := Int.mul_neg_of_neg_of_pos (by omega) (by omega)
      have hpos : 0 < k * (b - a) := Int.mul_pos (by omega) hspan
      omega
    next => exact Int.le_ediv_iff_mul_le hspan

/-- The ramp is at its top up to `a` and nowhere else. -/
theorem ramp_eq_top_iff (htop : 1 ≤ top) (hab : a < b) : ramp top a b x = top ↔ x ≤ a := by
  have hlevel := le_ramp_iff (x := x) hab htop (Int.le_refl top)
  constructor
  · intro h
    have hle := hlevel.mp (by omega)
    rw [Int.mul_comm] at hle
    have hle : b - a ≤ b - x := Int.le_of_mul_le_mul_right hle (by omega)
    omega
  · intro hxa
    have hge : top ≤ ramp top a b x := by
      rw [hlevel, Int.mul_comm]
      exact Int.mul_le_mul_of_nonneg_right (by omega) (by omega)
    have hle : ramp top a b x ≤ top := ramp_le htop hab
    omega

/-- From `b` on the ramp is at zero. -/
theorem ramp_eq_zero (htop : 1 ≤ top) (hab : a < b) (hbx : b ≤ x) : ramp top a b x = 0 := by
  have hlow : ¬ 1 ≤ ramp top a b x := by
    rw [le_ramp_iff hab (Int.le_refl 1) htop]
    have hneg : (b - x) * top ≤ 0 := Int.mul_nonpos_of_nonpos_of_nonneg (by omega) (by omega)
    omega
  have hnonneg : 0 ≤ ramp top a b x := ramp_nonneg (by omega) hab
  omega

/-- A ramp whose ends lie further right is nowhere lower, and it is lower
further right. -/
theorem ramp_mono {a' b' x' : Int} (htop : 1 ≤ top) (hab : a < b) (hab' : a' < b') (ha : a ≤ a')
    (hb : b ≤ b') (hx : x' ≤ x) : ramp top a b x ≤ ramp top a' b' x' := by
  -- it is enough to look at the level the lower one has reached
  generalize hk : ramp top a b x = k
  by_cases hlow : k < 1
  · have hnonneg : 0 ≤ ramp top a' b' x' := ramp_nonneg (by omega) hab'
    omega
  · have hk₁ : 1 ≤ k := by omega
    have hktop : k ≤ top := by
      rw [← hk]
      exact ramp_le htop hab
    have hlevel : k * (b - a) ≤ (b - x) * top := by
      rw [← le_ramp_iff hab hk₁ hktop]
      omega
    rw [le_ramp_iff hab' hk₁ hktop]
    calc k * (b' - a') ≤ k * (b' - a) := Int.mul_le_mul_of_nonneg_left (by omega) (by omega)
      _ = k * (b - a) + k * (b' - b) := by ring
      _ ≤ (b - x) * top + top * (b' - b) := by
        have hstep : k * (b' - b) ≤ top * (b' - b) :=
          Int.mul_le_mul_of_nonneg_right hktop (by omega)
        omega
      _ = (b' - x) * top := by ring
      _ ≤ (b' - x') * top := Int.mul_le_mul_of_nonneg_right (by omega) (by omega)

/-- A ramp does not depend on the unit its points are measured in. -/
theorem ramp_scale (hk : 0 < k) : ramp top (a * k) (b * k) (x * k) = ramp top a b x := by
  have hbefore : x * k < a * k ↔ x < a := Int.mul_lt_mul_right hk
  have hafter : b * k < x * k ↔ b < x := Int.mul_lt_mul_right hk
  have hquot : (b * k - x * k) * top / (b * k - a * k) = (b - x) * top / (b - a) := by
    have hnum : (b * k - x * k) * top = (b - x) * top * k := by ring
    have hden : b * k - a * k = (b - a) * k := by ring
    rw [hnum, hden, Int.mul_ediv_mul_of_pos_left _ _ hk]
  unfold ramp
  simp only [hbefore, hafter, hquot]

end HvfSched.Lib
