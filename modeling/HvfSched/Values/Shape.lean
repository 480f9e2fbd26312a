import HvfSched.Lib.Ramp
import HvfSched.Values.Params

/-!
# The shape of the value function

`compute_init_sched_value` compares `X = first_time + computation_time` with
the two deadlines, in milliseconds, and interpolates between them. As long as
the products it evaluates fit into a `long` it computes a descending ramp from
100 at the first deadline to 0 at the second one
(`computeInitValue_eq_ramp`), and everything about its shape is a fact about
ramps. The sum `X` is the machine's: nothing is asked of it.
-/

namespace HvfSched

open Lib

variable {ft ct d1 d2 : Long}

/-- The machine's reading of `compute_init_sched_value`, in one expression. -/
theorem computeInitValue_wrapv_eq (ft ct d1 d2 : Long) :
    computeInitValue wrapv ft ct d1 d2 = if ft + ct < d1 * K then .ok H
      else if d2 * K < ft + ct then .ok 0
      else machineDiv ((d2 * K - (ft + ct)) * H) ((d2 - d1) * K) := by
  rfl

/-- The products evaluated for `X = x` fit: which ones are depends on the
branch that is taken. -/
def ProductsFit (x d1 d2 : Int) : Prop :=
  Fits (d1 * 1000) ∧ (x < d1 * 1000 ∨ (Fits (d2 * 1000) ∧ (d2 * 1000 < x ∨
    (Fits ((d2 * 1000 - x) * 100) ∧ Fits ((d2 - d1) * 1000)))))

instance (x d1 d2 : Int) : Decidable (ProductsFit x d1 d2) :=
  inferInstanceAs (Decidable (_ ∧ (_ ∨ (_ ∧ (_ ∨ (_ ∧ _))))))

/-- Between the deadlines no difference wraps if the products fit. -/
theorem interpolation_toInt (hd : d1.toInt < d2.toInt) {x : Long} (hfa : Fits (d1.toInt * 1000))
    (hfb : Fits (d2.toInt * 1000)) (hax : ¬ x.toInt < d1.toInt * 1000)
    (hxb : ¬ d2.toInt * 1000 < x.toInt) (hfnum : Fits ((d2.toInt * 1000 - x.toInt) * 100))
    (hfden : Fits ((d2.toInt - d1.toInt) * 1000)) :
    ((d2 * K - x) * H).toInt = (d2.toInt * 1000 - x.toInt) * 100 ∧
      ((d2 - d1) * K).toInt = d2.toInt * 1000 - d1.toInt * 1000 := by
  obtain ⟨hlo, hhi⟩ := hfden
  obtain ⟨halo, hahi⟩ := hfa
  have hb : (d2 * K).toInt = d2.toInt * 1000 := by
    rw [toInt_mul_of_fits, K_toInt]
    rw [K_toInt]
    exact hfb
  have hdiff : (d2 * K - x).toInt = d2.toInt * 1000 - x.toInt := by
    rw [toInt_sub_of_fits, hb]
    rw [hb]
    exact ⟨by omega, by omega⟩
  have hspan : (d2 - d1).toInt = d2.toInt - d1.toInt := by
    rw [toInt_sub_of_fits]
    exact ⟨by omega, by omega⟩
  constructor
  · rw [toInt_mul_of_fits, hdiff, H_toInt]
    rw [hdiff, H_toInt]
    exact hfnum
  · rw [toInt_mul_of_fits, hspan, K_toInt]
    · omega
    · rw [hspan, K_toInt]
      exact ⟨hlo, hhi⟩

/-- The machine computes the ramp between the deadlines. -/
theorem computeInitValue_eq_ramp (hd : d1.toInt < d2.toInt)
    (hp : ProductsFit (ft + ct).toInt d1.toInt d2.toInt) :
    ∃ v, computeInitValue wrapv ft ct d1 d2 = .ok v ∧
      v.toInt = ramp 100 (d1.toInt * 1000) (d2.toInt * 1000) (ft + ct).toInt := by
  obtain ⟨hfa, hrest⟩ := hp
  rw [computeInitValue_wrapv_eq]
  generalize ft + ct = x at *
  have ha : (d1 * K).toInt = d1.toInt * 1000 := by
    rw [toInt_mul_of_fits, K_toInt]
    rw [K_toInt]
    exact hfa
  unfold ramp
  by_cases hlt : x.toInt < d1.toInt * 1000
  · rw [if_pos hlt, if_pos (by rw [Int64.lt_iff_toInt_lt, ha]; exact hlt)]
    exact ⟨H, rfl, H_toInt⟩
  · obtain ⟨hfb, hlast⟩ := hrest.resolve_left hlt
    have hb : (d2 * K).toInt = d2.toInt * 1000 := by
      rw [toInt_mul_of_fits, K_toInt]
      rw [K_toInt]
      exact hfb
    rw [if_neg hlt, if_neg (by rw [Int64.lt_iff_toInt_lt, ha]; exact hlt)]
    by_cases hgt : d2.toInt * 1000 < x.toInt
    · rw [if_pos hgt, if_pos (by rw [Int64.lt_iff_toInt_lt, hb]; exact hgt)]
      exact ⟨0, rfl, rfl⟩
    · obtain ⟨hfnum, hfden⟩ := hlast.resolve_left hgt
      obtain ⟨hnum, hden⟩ := interpolation_toInt hd hfa hfb hlt hgt hfnum hfden
      have hpos : 0 < ((d2 - d1) * K).toInt := by
        rw [hden]
        omega
      rw [if_neg hgt, if_neg (by rw [Int64.lt_iff_toInt_lt, hb]; exact hgt), machineDiv_of_pos hpos]
      refine ⟨_, rfl, ?_⟩
      rw [toInt_div_of_nonneg _ hpos, hnum, hden]
      rw [hnum]
      omega

/-- `X` of `compute_init_sched_value`. -/
def TaskStruct.dueAt (t : TaskStruct) : Long := t.hvf.firstTime + t.computationTime

/-- Deadlines in order, for which no product leaves the range. -/
structure Valued (t : TaskStruct) : Prop where
  inOrder : t.deadline1 < t.deadline2
  fit : ProductsFit t.dueAt.toInt t.deadline1.toInt t.deadline2.toInt

/-- `compute_init_sched_value` has returned `v` and written it to `t`. -/
def valueReturned (t : TaskStruct) (v : Long) : Prop :=
  computeInitSchedValue wrapv t
    = .ok { t with hvf := { t.hvf with initSchedValue := v, currSchedValue := v } }

theorem valueReturned_iff {t : TaskStruct} {v : Long} :
    valueReturned t v ↔
      computeInitValue wrapv t.hvf.firstTime t.computationTime t.deadline1 t.deadline2 = .ok v := by
  unfold valueReturned computeInitSchedValue
  constructor
  · intro h
    obtain ⟨w, hw, hvw⟩ := bind_ok.mp h
    have hvw := congrArg (fun u : TaskStruct => u.hvf.currSchedValue) (Except.ok.inj hvw)
    have hvw : w = v := hvw
    rw [← hvw]
    exact hw
  · intro h
    exact bind_ok.mpr ⟨v, h, rfl⟩

/-- A value is returned, and it is the height of the ramp. -/
theorem Valued.returns {t : TaskStruct} (h : Valued t) :
    ∃ v, valueReturned t v ∧ v.toInt
      = ramp 100 (t.deadline1.toInt * 1000) (t.deadline2.toInt * 1000) t.dueAt.toInt := by
  obtain ⟨v, hv, hramp⟩ := computeInitValue_eq_ramp (Int64.lt_iff_toInt_lt.mp h.inOrder) h.fit
  exact ⟨v, valueReturned_iff.mpr hv, hramp⟩

theorem Valued.toInt_eq {t : TaskStruct} (h : Valued t) {v : Long} (hv : valueReturned t v) :
    v.toInt = ramp 100 (t.deadline1.toInt * 1000) (t.deadline2.toInt * 1000) t.dueAt.toInt := by
  obtain ⟨w, hw, hramp⟩ := h.returns
  rw [valueReturned_iff] at hv hw
  have hvw : v = w := Except.ok.inj (hv.symm.trans hw)
  rw [hvw]
  exact hramp

/-- The value lies between 0 and 100. It is 100 up to the first deadline and
nowhere else, 0 from the second one on, and it does not fall when `X` falls or
a deadline rises. -/
theorem value_function_shape (t : TaskStruct) (h : Valued t) :
    ∃ v, valueReturned t v ∧ (0 ≤ v ∧ v ≤ 100) ∧
      (v = 100 ↔ t.dueAt.toInt ≤ 1000 * t.deadline1.toInt) ∧
      (1000 * t.deadline2.toInt ≤ t.dueAt.toInt → v = 0) ∧
      ∀ t' v', Valued t' → valueReturned t' v' → t'.dueAt ≤ t.dueAt →
        t.deadline1 ≤ t'.deadline1 → t.deadline2 ≤ t'.deadline2 → v ≤ v' := by
  obtain ⟨v, hv, hramp⟩ := h.returns
  have hd := Int64.lt_iff_toInt_lt.mp h.inOrder
  have hspan : t.deadline1.toInt * 1000 < t.deadline2.toInt * 1000 := by omega
  have h100 : (100 : Long).toInt = 100 := H_toInt
  refine ⟨v, hv, ⟨?_, ?_⟩, ?_, ?_, ?_⟩
  · rw [Int64.le_iff_toInt_le, hramp]
    exact ramp_nonneg (by decide) hspan
  · rw [Int64.le_iff_toInt_le, hramp]
    exact ramp_le (by decide) hspan
  · rw [← Int64.toInt_inj, hramp, h100, ramp_eq_top_iff (by decide) hspan, Int.mul_comm]
  · intro hlate
    rw [← Int64.toInt_inj, hramp]
    exact ramp_eq_zero (by decide) hspan (by omega)
  · intro t' v' h' hv' hx h₁ h₂
    have hd' := Int64.lt_iff_toInt_lt.mp h'.inOrder
    rw [Int64.le_iff_toInt_le] at hx h₁ h₂ ⊢
    rw [hramp, h'.toInt_eq hv']
    apply ramp_mono (by decide) hspan
    · omega
    · omega
    · omega
    · exact hx

/-- A task that is due 1.5 seconds after its first deadline, a quarter of the
way to the second one. -/
def dueBetween : TaskStruct :=
  { firstTask with
    deadline1 := 100
    deadline2 := 106
    computationTime := 1500
    hvf := { firstTask.hvf with firstTime := 100000 } }

theorem dueBetween_value_shape :
    Valued dueBetween ∧ ∃ v, valueReturned dueBetween v ∧ (0 ≤ v ∧ v ≤ 100) ∧
      (v = 100 ↔ dueBetween.dueAt.toInt ≤ 1000 * dueBetween.deadline1.toInt) ∧
      (1000 * dueBetween.deadline2.toInt ≤ dueBetween.dueAt.toInt → v = 0) ∧
      ∀ t' v', Valued t' → valueReturned t' v' → t'.dueAt ≤ dueBetween.dueAt →
        dueBetween.deadline1 ≤ t'.deadline1 → dueBetween.deadline2 ≤ t'.deadline2 → v ≤ v' := by
  have h : Valued dueBetween := ⟨by decide, by decide⟩
  exact ⟨h, value_function_shape dueBetween h⟩

end HvfSched
