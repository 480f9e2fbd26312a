import HvfSched.Values.Shape

/-!
# The score a task is shown

`get_scheduling_score` draws the curve of `compute_init_sched_value` a second
time: in whole seconds, from the deadlines as they were set, with comparisons
and a division of its own. Both are ramps, the one in seconds and the other in
milliseconds, and a ramp does not depend on the unit. So the two agree at
every full second, and between two seconds the value lies between the scores
before and after.

Only the products of the value are asked to fit. The score of the next second
may divide a product that has wrapped, but only where the value is at its top:
what wraps gets smaller, and no score is above 100.
-/

namespace HvfSched

open Lib

variable {now : Timespec64} {t : TaskStruct}

/-- The machine computes the ramp between the deadlines, in seconds. -/
theorem getSchedulingScore_eq_ramp (now : Timespec64) (h1 : 0 < t.deadline1.toInt)
    (h2 : t.deadline1.toInt < t.deadline2.toInt)
    (hfit : now.tvSec.toInt < t.deadline1.toInt ∨
      Fits ((t.deadline2.toInt - now.tvSec.toInt) * 100)) :
    ∃ r, getSchedulingScore wrapv now t = .ok r ∧
      r.toInt = ramp 100 t.deadline1.toInt t.deadline2.toInt now.tvSec.toInt := by
  unfold ramp
  by_cases hlt : now.tvSec.toInt < t.deadline1.toInt
  · rw [if_pos hlt]
    exact ⟨H, getSchedulingScore_before hlt, H_toInt⟩
  · rw [if_neg hlt]
    by_cases hgt : t.deadline2.toInt < now.tvSec.toInt
    · rw [if_pos hgt]
      exact ⟨0, getSchedulingScore_after hlt hgt, rfl⟩
    · obtain ⟨r, hr, hquot⟩ := getSchedulingScore_between h1 h2 hlt hgt
      refine ⟨r, hr, ?_⟩
      rw [if_neg hgt, hquot, bmod_of_fits (hfit.resolve_left hlt), Int.tdiv_eq_ediv_of_nonneg]
      omega

theorem getSchedulingScore_le (h1 : 0 < t.deadline1.toInt)
    (h2 : t.deadline1.toInt < t.deadline2.toInt) :
    ∃ r, getSchedulingScore wrapv now t = .ok r ∧ r.toInt ≤ 100 := by
  by_cases hlt : now.tvSec.toInt < t.deadline1.toInt
  · exact ⟨H, getSchedulingScore_before hlt, Int.le_of_eq H_toInt⟩
  · by_cases hgt : t.deadline2.toInt < now.tvSec.toInt
    · exact ⟨0, getSchedulingScore_after hlt hgt, by decide⟩
    · obtain ⟨r, hr, hquot⟩ := getSchedulingScore_between h1 h2 hlt hgt
      refine ⟨r, hr, ?_⟩
      rw [hquot]
      exact score_quotient_le h2 hlt hgt

/-! ## The seconds around a point in milliseconds -/

theorem second_toInt {x : Long} (hx : 0 ≤ x.toInt) : (x / 1000).toInt = x.toInt / 1000 := by
  have h1000 : (1000 : Long).toInt = 1000 := K_toInt
  rw [toInt_div_of_nonneg hx (by rw [h1000]; omega), h1000]

theorem next_second_toInt {x : Long} (hx : 0 ≤ x.toInt) :
    (x / 1000 + 1).toInt = x.toInt / 1000 + 1 := by
  have hone : (1 : Long).toInt = 1 := by decide
  have hmax := x.toInt_lt
  rw [toInt_add_of_fits, second_toInt hx, hone]
  rw [second_toInt hx, hone]
  exact ⟨by omega, by omega⟩

/-- Near `X` the product of the score fits if the second deadline does, in
milliseconds. -/
theorem score_product_fits {d2 n : Int} (hd : 0 < d2) (hfit : Fits (d2 * 1000)) (hn : 0 ≤ n)
    (hmax : n * 1000 < 9223372036854777000) : Fits ((d2 - n) * 100) := by
  obtain ⟨hlo, hhi⟩ := hfit
  exact ⟨by omega, by omega⟩

/-- The score of the second of `X` is the ramp of the value, read at the start
of that second. -/
theorem Valued.score_of_second (h : Valued t) (h1 : 0 < t.deadline1.toInt)
    (hx : 0 ≤ t.dueAt.toInt) (nsec : Long) :
    ∃ r, getSchedulingScore wrapv ⟨t.dueAt / 1000, nsec⟩ t = .ok r ∧
      r.toInt = ramp 100 (t.deadline1.toInt * 1000) (t.deadline2.toInt * 1000)
        (t.dueAt.toInt / 1000 * 1000) := by
  have h2 := Int64.lt_iff_toInt_lt.mp h.inOrder
  have hmax := t.dueAt.toInt_lt
  rw [ramp_scale (by omega), ← second_toInt hx]
  refine getSchedulingScore_eq_ramp ⟨t.dueAt / 1000, nsec⟩ h1 h2 ?_
  rw [second_toInt hx]
  rcases h.fit.2 with hbefore | ⟨hfit, -⟩
  · left
    omega
  · right
    exact score_product_fits (by omega) hfit (by omega) (by omega)

/-- The score of the next second is not above the value. -/
theorem Valued.score_of_next (h : Valued t) (h1 : 0 < t.deadline1.toInt)
    (hx : 0 ≤ t.dueAt.toInt) (nsec : Long) :
    ∃ r, getSchedulingScore wrapv ⟨t.dueAt / 1000 + 1, nsec⟩ t = .ok r ∧
      r.toInt ≤ ramp 100 (t.deadline1.toInt * 1000) (t.deadline2.toInt * 1000) t.dueAt.toInt := by
  have h2 := Int64.lt_iff_toInt_lt.mp h.inOrder
  have hmax := t.dueAt.toInt_lt
  have hspan : t.deadline1.toInt * 1000 < t.deadline2.toInt * 1000 := by omega
  rcases h.fit.2 with hbefore | ⟨hfit, -⟩
  · -- the value is at its top, and so high is no score; the product may have wrapped
    rw [(ramp_eq_top_iff (by omega) hspan).mpr (by omega)]
    exact getSchedulingScore_le h1 h2
  · obtain ⟨r, hr, hramp⟩ := getSchedulingScore_eq_ramp ⟨t.dueAt / 1000 + 1, nsec⟩ h1 h2
      (by
        right
        rw [next_second_toInt hx]
        exact score_product_fits (by omega) hfit (by omega) (by omega))
    refine ⟨r, hr, ?_⟩
    rw [hramp, next_second_toInt hx, ← ramp_scale (k := 1000) (by omega)]
    exact ramp_mono (by omega) hspan hspan (by omega) (by omega) (by omega)

/-- The value computed for `X` lies between the scores of the two seconds
around `X`, and it is the score where `X` is a full second. -/
theorem score_brackets_value (t : TaskStruct) (h : Valued t) (hd : 0 < t.deadline1)
    (hx : 0 ≤ t.dueAt) (nsec nsec' : Long) :
    ∃ v low high, valueReturned t v ∧
      getSchedulingScore wrapv ⟨t.dueAt / 1000 + 1, nsec⟩ t = .ok low ∧
      getSchedulingScore wrapv ⟨t.dueAt / 1000, nsec'⟩ t = .ok high ∧
      low ≤ v ∧ v ≤ high ∧ (t.dueAt % 1000 = 0 → v = high) := by
  have h1 : 0 < t.deadline1.toInt := Int64.lt_iff_toInt_lt.mp hd
  have h2 := Int64.lt_iff_toInt_lt.mp h.inOrder
  have hx₀ : 0 ≤ t.dueAt.toInt := Int64.le_iff_toInt_le.mp hx
  have hspan : t.deadline1.toInt * 1000 < t.deadline2.toInt * 1000 := by omega
  obtain ⟨v, hv, hvalue⟩ := h.returns
  obtain ⟨low, hlow, hle⟩ := h.score_of_next h1 hx₀ nsec
  obtain ⟨high, hhigh, hscore⟩ := h.score_of_second h1 hx₀ nsec'
  refine ⟨v, low, high, hv, hlow, hhigh, ?_, ?_, ?_⟩
  · rw [Int64.le_iff_toInt_le, hvalue]
    exact hle
  · rw [Int64.le_iff_toInt_le, hvalue, hscore]
    exact ramp_mono (by omega) hspan hspan (by omega) (by omega) (by omega)
  · intro hfull
    have hmod : t.dueAt.toInt % 1000 = 0 := by
      have hm := congrArg Int64.toInt hfull
      rw [Int64.toInt_mod, Int.tmod_eq_emod_of_nonneg hx₀] at hm
      exact hm
    have hn : t.dueAt.toInt / 1000 * 1000 = t.dueAt.toInt := by omega
    rw [hn] at hscore
    rw [← Int64.toInt_inj, hvalue, hscore]

/-- A task that is due in the middle of a second: it is shown 83, then 66. -/
theorem dueBetween_between_scores :
    (Valued dueBetween ∧ 0 < dueBetween.deadline1 ∧ 0 ≤ dueBetween.dueAt) ∧
      ∃ v, valueReturned dueBetween v ∧
        getSchedulingScore wrapv ⟨dueBetween.dueAt / 1000 + 1, 0⟩ dueBetween = .ok 66 ∧
        getSchedulingScore wrapv ⟨dueBetween.dueAt / 1000, 0⟩ dueBetween = .ok 83 ∧
        66 ≤ v ∧ v ≤ 83 := by
  have h : Valued dueBetween := ⟨by decide, by decide⟩
  refine ⟨⟨h, by decide, by decide⟩, ?_⟩
  obtain ⟨v, low, high, hv, hlow, hhigh, hle, hge, -⟩ :=
    score_brackets_value dueBetween h (by decide) (by decide) 0 0
  have hlow' : getSchedulingScore wrapv ⟨dueBetween.dueAt / 1000 + 1, 0⟩ dueBetween = .ok 66 := by
    decide
  have hhigh' : getSchedulingScore wrapv ⟨dueBetween.dueAt / 1000, 0⟩ dueBetween = .ok 83 := by
    decide
  rw [Except.ok.inj (hlow.symm.trans hlow')] at hle
  rw [Except.ok.inj (hhigh.symm.trans hhigh')] at hge
  exact ⟨v, hv, hlow', hhigh', hle, hge⟩

end HvfSched
