import HvfSched.Values.Params

/-!
# Taking a share away from a value

`reduce_sched_value` and `penalty_hvf_entity` are one function of the old value
and an amount: the time used, or the square of the overrun. They subtract
`amount * value / 100`, and settle what is left. `lessShare` is that function
in exact numbers, and `settle_toInt` says that the machine computes it as long
as the product fits.

On the scale it falls when the amount grows, and stays below the old value
except at zero: an entity whose value is zero is lifted to ten, whatever the
amount. `lessShare_eq_zero_iff` says when a first update leads there, and so
when a second one lifts the value again.
-/

namespace HvfSched

open Lib

/-- The old value less the share of an amount. -/
def lessShare (old amount : Int) : Int :=
  let rest := old - amount * old / 100
  if 0 < rest then rest else if old = 0 then 10 else 0

variable {old amount amount' : Int}

theorem lessShare_zero (amount : Int) : lessShare 0 amount = 10 := by
  simp [lessShare]

theorem lessShare_nonneg (old amount : Int) : 0 ≤ lessShare old amount := by
  unfold lessShare
  dsimp only
  split
  next hrest => exact Int.le_of_lt hrest
  next => split <;> omega

/-- The share is not negative. -/
theorem share_nonneg (hold : 0 ≤ old) (hpos : 0 ≤ amount) : 0 ≤ amount * old / 100 :=
  Int.ediv_nonneg (Int.mul_nonneg hpos hold) (by omega)

theorem lessShare_le_of_pos (hold : 0 < old) (hpos : 0 ≤ amount) : lessShare old amount ≤ old := by
  have hshare := share_nonneg (Int.le_of_lt hold) hpos
  unfold lessShare
  dsimp only
  split
  next => omega
  next => split <;> omega

theorem lessShare_le (hold : 0 ≤ old) (htop : old ≤ 100) (hpos : 0 ≤ amount) :
    lessShare old amount ≤ 100 := by
  by_cases hzero : old = 0
  · rw [hzero, lessShare_zero]
    omega
  · have hsome : 0 < old := by omega
    have hle := lessShare_le_of_pos hsome hpos
    omega

/-- A larger amount leaves less. -/
theorem lessShare_antitone (hold : 0 ≤ old) (hle : amount ≤ amount') :
    lessShare old amount' ≤ lessShare old amount := by
  have hprod : amount * old ≤ amount' * old := Int.mul_le_mul_of_nonneg_right hle hold
  have hshare : amount * old / 100 ≤ amount' * old / 100 := Int.ediv_le_ediv (by omega) hprod
  unfold lessShare
  dsimp only
  split
  next => rw [if_pos (by omega)]; omega
  next =>
    split
    next hzero =>
      -- both are lifted
      subst hzero
      simp
    next => split <;> omega

/-- The value is used up by an amount of at least one hundred, and only if there
was a value to use up. -/
theorem lessShare_eq_zero_iff (hold : 0 ≤ old) (amount : Int) :
    lessShare old amount = 0 ↔ 0 < old ∧ 100 ≤ amount := by
  by_cases hzero : old = 0
  · subst hzero
    simp [lessShare_zero]
  · have hpos : 0 < old := by omega
    have hall : old ≤ amount * old / 100 ↔ 100 ≤ amount := by
      rw [Int.le_ediv_iff_mul_le (by omega), Int.mul_comm old 100]
      exact ⟨fun h => Int.le_of_mul_le_mul_right h hpos,
        fun h => Int.mul_le_mul_of_nonneg_right h hold⟩
    unfold lessShare
    dsimp only
    rw [if_neg hzero]
    split <;> omega

/-! ## The machine -/

/-- Both updates compute it. -/
theorem settle_toInt {old amount : Long} (hold : OnScale old) (hpos : 0 ≤ amount.toInt)
    (hfit : Fits (amount.toInt * old.toInt)) :
    (settleValue old (old - amount * old / 100)).toInt = lessShare old.toInt amount.toInt := by
  obtain ⟨hlo, hhi⟩ := hold
  have h100 : (100 : Long).toInt = 100 := H_toInt
  have hmul : (amount * old).toInt = amount.toInt * old.toInt := toInt_mul_of_fits hfit
  have hprod : 0 ≤ amount.toInt * old.toInt := Int.mul_nonneg hpos hlo
  have htop := hfit.2
  have hdiv : (amount * old / 100).toInt = amount.toInt * old.toInt / 100 := by
    rw [toInt_div_of_nonneg (by omega) (by omega), hmul, h100]
  have hsub : (old - amount * old / 100).toInt = old.toInt - amount.toInt * old.toInt / 100 := by
    rw [toInt_sub_of_fits, hdiv]
    rw [hdiv]
    exact ⟨by omega, by omega⟩
  have hrest : old - amount * old / 100 > 0 ↔ 0 < old.toInt - amount.toInt * old.toInt / 100 := by
    rw [← hsub]
    exact Int64.lt_iff_toInt_lt
  have hzero : old = 0 ↔ old.toInt = 0 := Int64.toInt_inj.symm
  unfold settleValue lessShare
  simp only [hrest, hzero]
  split
  next => exact hsub
  next => split <;> rfl

/-- The square of an overrun, if it fits; the overrun itself then does. -/
theorem overrun_square_toInt {used ct : Long} (hover : ct.toInt < used.toInt)
    (hfit : Fits ((used.toInt - ct.toInt) * (used.toInt - ct.toInt))) :
    ((used - ct) * (used - ct)).toInt = (used.toInt - ct.toInt) * (used.toInt - ct.toInt) := by
  have htop := hfit.2
  have hself : (used.toInt - ct.toInt) * 1
      ≤ (used.toInt - ct.toInt) * (used.toInt - ct.toInt) :=
    Int.mul_le_mul_of_nonneg_left (by omega) (by omega)
  have hdiff : (used - ct).toInt = used.toInt - ct.toInt :=
    toInt_sub_of_fits ⟨by omega, by omega⟩
  rw [toInt_mul_of_fits, hdiff]
  rw [hdiff]
  exact hfit

end HvfSched
