import HvfSched.Model.System

/-!
# Parameters that were accepted

`set_scheduling_params` compares `deadline_2 * 1000` with the time of the
call, and multiplies without looking at the range: a deadline so large that
the product wraps around is accepted whenever the wrapped product is large
enough. `compute_init_sched_value` multiplies again, by 1000 and by 100, and
divides by the product of a difference, which can wrap to zero.

The safe region is made explicit here, per input: `NoWrap` for the initial
value and `ScoreExact` for the score. Inside it the strict reading of the
computation succeeds, which is the reading that reports an overflow, and the
machine computes the same value (`computeInitValue_wrapv`).
-/

namespace HvfSched

open Lib

/-- A value on the scale from 0 to 100. -/
def OnScale (v : Long) : Prop := 0 ≤ v.toInt ∧ v.toInt ≤ 100

instance (v : Long) : Decidable (OnScale v) := inferInstanceAs (Decidable (_ ∧ _))

theorem K_toInt : K.toInt = 1000 := by decide

theorem H_toInt : H.toInt = 100 := by decide

theorem H_onScale : OnScale H := by decide

theorem zero_onScale : OnScale 0 := by decide

/-- The first time, computation time and deadlines for which the value is
computed without a wrap: what has to fit depends on which branch is taken. -/
def NoWrap (ft ct d1 d2 : Int) : Prop :=
  Fits (ft + ct) ∧ Fits (d1 * 1000) ∧
  (ft + ct < d1 * 1000 ∨
    (Fits (d2 * 1000) ∧ (d2 * 1000 < ft + ct ∨ Fits ((d2 * 1000 - (ft + ct)) * 100))))

instance (ft ct d1 d2 : Int) : Decidable (NoWrap ft ct d1 d2) :=
  inferInstanceAs (Decidable (_ ∧ _ ∧ _))

/-! ## The initial value -/

/-- What the strict reading reports is what the machine computes. -/
theorem strict_wrapv_add {a b c : Long} (h : strict.add a b = .ok c) : wrapv.add a b = .ok c :=
  congrArg Except.ok (checked_eq_ok.mp h).2

theorem strict_wrapv_sub {a b c : Long} (h : strict.sub a b = .ok c) : wrapv.sub a b = .ok c :=
  congrArg Except.ok (checked_eq_ok.mp h).2

theorem strict_wrapv_mul {a b c : Long} (h : strict.mul a b = .ok c) : wrapv.mul a b = .ok c :=
  congrArg Except.ok (checked_eq_ok.mp h).2

section Value

variable {ft ct d1 d2 v : Long}

/-- The interpolation between the two deadlines, in exact numbers. -/
theorem interpolation_onScale {a b x : Int} (hab : a < b) (hax : a * 1000 ≤ x) (hxb : x ≤ b * 1000) :
    0 ≤ (b * 1000 - x) * 100 / ((b - a) * 1000) ∧
      (b * 1000 - x) * 100 / ((b - a) * 1000) ≤ 100 := by
  have hpos : 0 < (b - a) * 1000 := by omega
  constructor
  · exact Int.ediv_nonneg (by omega) (Int.le_of_lt hpos)
  · apply Int.ediv_le_of_le_mul hpos
    omega

/-- A strict computation of the value stays inside the safe region, and ends
on the scale. -/
theorem noWrap_of_computeInitValue (h2 : d1.toInt < d2.toInt)
    (h : computeInitValue strict ft ct d1 d2 = .ok v) :
    NoWrap ft.toInt ct.toInt d1.toInt d2.toInt ∧ OnScale v := by
  unfold computeInitValue at h
  obtain ⟨x, hx, h⟩ := bind_ok.mp h
  obtain ⟨a, ha, h⟩ := bind_ok.mp h
  obtain ⟨hfx, rfl⟩ := checked_eq_ok.mp hx
  obtain ⟨hfa, rfl⟩ := checked_eq_ok.mp ha
  have hx' := toInt_add_of_fits hfx
  have ha' := toInt_mul_of_fits hfa
  rw [K_toInt] at hfa ha'
  split at h
  next hlt =>
    -- before the first deadline
    injection h with h
    subst h
    rw [Int64.lt_iff_toInt_lt, hx', ha'] at hlt
    exact ⟨⟨hfx, hfa, Or.inl hlt⟩, H_onScale⟩
  next hge =>
    rw [Int64.lt_iff_toInt_lt, hx', ha'] at hge
    obtain ⟨b, hb, h⟩ := bind_ok.mp h
    obtain ⟨hfb, rfl⟩ := checked_eq_ok.mp hb
    have hb' := toInt_mul_of_fits hfb
    rw [K_toInt] at hfb hb'
    split at h
    next hgt =>
      -- after the second one
      injection h with h
      subst h
      rw [Int64.lt_iff_toInt_lt, hx', hb'] at hgt
      exact ⟨⟨hfx, hfa, Or.inr ⟨hfb, Or.inl hgt⟩⟩, zero_onScale⟩
    next hle =>
      rw [Int64.lt_iff_toInt_lt, hx', hb'] at hle
      obtain ⟨b₂, hb₂, h⟩ := bind_ok.mp h
      obtain ⟨diff, hdiff, h⟩ := bind_ok.mp h
      obtain ⟨num, hnum, h⟩ := bind_ok.mp h
      obtain ⟨span, hspan, h⟩ := bind_ok.mp h
      obtain ⟨den, hden, h⟩ := bind_ok.mp h
      obtain ⟨-, rfl⟩ := checked_eq_ok.mp hb₂
      obtain ⟨hfdiff, rfl⟩ := checked_eq_ok.mp hdiff
      obtain ⟨hfnum, rfl⟩ := checked_eq_ok.mp hnum
      obtain ⟨hfspan, rfl⟩ := checked_eq_ok.mp hspan
      obtain ⟨hfden, rfl⟩ := checked_eq_ok.mp hden
      have hdiff' := toInt_sub_of_fits hfdiff
      have hnum' := toInt_mul_of_fits hfnum
      have hspan' := toInt_sub_of_fits hfspan
      have hden' := toInt_mul_of_fits hfden
      rw [hdiff', hb', hx', H_toInt] at hfnum hnum'
      rw [hspan', K_toInt] at hden'
      refine ⟨⟨hfx, hfa, Or.inr ⟨hfb, Or.inr hfnum⟩⟩, ?_⟩
      obtain ⟨-, rfl⟩ := machineDiv_eq_ok h
      have hscale := interpolation_onScale h2 (Int.not_lt.mp hge) (Int.not_lt.mp hle)
      rw [OnScale, toInt_div_of_nonneg, hnum', hden']
      · exact hscale
      · rw [hnum']
        omega
      · rw [hden']
        omega

/-- Inside the safe region the strict computation succeeds. -/
theorem computeInitValue_of_noWrap (h1 : 0 < d1.toInt) (h2 : d1.toInt < d2.toInt)
    (h : NoWrap ft.toInt ct.toInt d1.toInt d2.toInt) :
    ∃ v, computeInitValue strict ft ct d1 d2 = .ok v := by
  obtain ⟨hfx, hfa, hrest⟩ := h
  rw [← K_toInt] at hfa
  have hx : strict.add ft ct = .ok (ft + ct) := checked_eq_ok.mpr ⟨hfx, rfl⟩
  have ha : strict.mul d1 K = .ok (d1 * K) := checked_eq_ok.mpr ⟨hfa, rfl⟩
  have hx' := toInt_add_of_fits hfx
  have ha' := toInt_mul_of_fits hfa
  rw [K_toInt] at ha'
  unfold computeInitValue
  by_cases hlt : ft + ct < d1 * K
  · exact ⟨H, bind_ok.mpr ⟨_, hx, bind_ok.mpr ⟨_, ha, if_pos hlt⟩⟩⟩
  · have hge := hlt
    rw [Int64.lt_iff_toInt_lt, hx', ha', ← K_toInt] at hge
    obtain ⟨hfb, hlast⟩ := hrest.resolve_left (by rw [← K_toInt]; exact hge)
    rw [K_toInt] at hge
    rw [← K_toInt] at hfb
    have hb : strict.mul d2 K = .ok (d2 * K) := checked_eq_ok.mpr ⟨hfb, rfl⟩
    have hb' := toInt_mul_of_fits hfb
    rw [K_toInt] at hb' hfb
    by_cases hgt : d2 * K < ft + ct
    · refine ⟨0, bind_ok.mpr ⟨_, hx, bind_ok.mpr ⟨_, ha, ?_⟩⟩⟩
      rw [if_neg hlt]
      exact bind_ok.mpr ⟨_, hb, if_pos hgt⟩
    · have hle := hgt
      rw [Int64.lt_iff_toInt_lt, hx', hb'] at hle
      have hfnum := hlast.resolve_left hle
      -- between the deadlines every remaining result is bounded by these
      obtain ⟨hlo, hhi⟩ := hfb
      have hfdiff : Fits ((d2 * K).toInt - (ft + ct).toInt) := by
        rw [hb', hx']
        exact ⟨by omega, by omega⟩
      have hfspan : Fits (d2.toInt - d1.toInt) := ⟨by omega, by omega⟩
      have hdiff' := toInt_sub_of_fits hfdiff
      have hspan' := toInt_sub_of_fits hfspan
      have hfnum' : Fits ((d2 * K - (ft + ct)).toInt * H.toInt) := by
        rw [hdiff', hb', hx', H_toInt]
        exact hfnum
      have hfden : Fits ((d2 - d1).toInt * K.toInt) := by
        rw [hspan', K_toInt]
        exact ⟨by omega, by omega⟩
      have hden' := toInt_mul_of_fits hfden
      have hpos : 0 < ((d2 - d1) * K).toInt := by
        rw [hden', hspan', K_toInt]
        omega
      refine ⟨(d2 * K - (ft + ct)) * H / ((d2 - d1) * K),
        bind_ok.mpr ⟨_, hx, bind_ok.mpr ⟨_, ha, ?_⟩⟩⟩
      rw [if_neg hlt]
      refine bind_ok.mpr ⟨_, hb, ?_⟩
      rw [if_neg hgt]
      refine bind_ok.mpr ⟨_, hb, bind_ok.mpr ⟨_, checked_eq_ok.mpr ⟨hfdiff, rfl⟩, ?_⟩⟩
      refine bind_ok.mpr ⟨_, checked_eq_ok.mpr ⟨hfnum', rfl⟩, ?_⟩
      refine bind_ok.mpr ⟨_, checked_eq_ok.mpr ⟨hfspan, rfl⟩, ?_⟩
      exact bind_ok.mpr ⟨_, checked_eq_ok.mpr ⟨hfden, rfl⟩, machineDiv_of_pos hpos⟩

/-- The machine computes what the strict reading computes. -/
theorem computeInitValue_wrapv (h : computeInitValue strict ft ct d1 d2 = .ok v) :
    computeInitValue wrapv ft ct d1 d2 = .ok v := by
  unfold computeInitValue at h ⊢
  obtain ⟨x, hx, h⟩ := bind_ok.mp h
  obtain ⟨a, ha, h⟩ := bind_ok.mp h
  refine bind_ok.mpr ⟨x, strict_wrapv_add hx, bind_ok.mpr ⟨a, strict_wrapv_mul ha, ?_⟩⟩
  split at h
  next hlt =>
    rw [if_pos hlt]
    exact h
  next hge =>
    rw [if_neg hge]
    obtain ⟨b, hb, h⟩ := bind_ok.mp h
    refine bind_ok.mpr ⟨b, strict_wrapv_mul hb, ?_⟩
    split at h
    next hgt =>
      rw [if_pos hgt]
      exact h
    next hle =>
      rw [if_neg hle]
      obtain ⟨b₂, hb₂, h⟩ := bind_ok.mp h
      obtain ⟨diff, hdiff, h⟩ := bind_ok.mp h
      obtain ⟨num, hnum, h⟩ := bind_ok.mp h
      obtain ⟨span, hspan, h⟩ := bind_ok.mp h
      obtain ⟨den, hden, h⟩ := bind_ok.mp h
      exact bind_ok.mpr ⟨b₂, strict_wrapv_mul hb₂, bind_ok.mpr ⟨diff, strict_wrapv_sub hdiff,
        bind_ok.mpr ⟨num, strict_wrapv_mul hnum, bind_ok.mpr ⟨span, strict_wrapv_sub hspan,
          bind_ok.mpr ⟨den, strict_wrapv_mul hden, h⟩⟩⟩⟩⟩

end Value

/-! ## The score -/

/-- The residue modulo `2^64` of a nonnegative number is not above it. -/
theorem bmod_le_self {x : Int} (hx : 0 ≤ x) : x.bmod 18446744073709551616 ≤ x := by
  have hle : x % 18446744073709551616 ≤ x := by omega
  unfold Int.bmod
  dsimp only
  split
  next => exact hle
  next => omega

theorem tdiv_of_neg {r : Int} (hr : r < 0) (d : Int) : r.tdiv d = -((-r) / d) := by
  rw [← Int.tdiv_eq_ediv_of_nonneg (by omega), Int.neg_tdiv, Int.neg_neg]

/-- A truncated quotient by a positive number is not negative exactly when the
dividend is above minus the divisor. -/
theorem tdiv_nonneg_iff {r d : Int} (hd : 0 < d) : 0 ≤ r.tdiv d ↔ -d < r := by
  by_cases hr : r < 0
  · rw [tdiv_of_neg hr]
    constructor
    · intro h
      by_contra hle
      have hone : 1 ≤ (-r) / d := Int.le_ediv_of_mul_le hd (by omega)
      omega
    · intro h
      rw [Int.ediv_eq_zero_of_lt (by omega) (by omega)]
      omega
  · refine ⟨fun _ => by omega, fun _ => ?_⟩
    exact Int.tdiv_nonneg (Int.not_lt.mp hr) (Int.le_of_lt hd)

theorem tdiv_le_of_le_mul {r d n : Int} (hd : 0 < d) (hn : 0 ≤ n) (h : r ≤ n * d) :
    r.tdiv d ≤ n := by
  by_cases hr : r < 0
  · have hquot : 0 ≤ (-r) / d := Int.ediv_nonneg (by omega) (Int.le_of_lt hd)
    rw [tdiv_of_neg hr]
    omega
  · rw [Int.tdiv_eq_ediv_of_nonneg (Int.not_lt.mp hr)]
    exact Int.ediv_le_of_le_mul hd h

/-- The times at which the score is on the scale: outside the two deadlines,
or where the product that is divided does not wrap below the divisor. -/
def ScoreExact (d1 d2 sec : Int) : Prop :=
  sec < d1 ∨ d2 < sec ∨ -(d2 - d1) < ((d2 - sec) * 100).bmod 18446744073709551616

instance (d1 d2 sec : Int) : Decidable (ScoreExact d1 d2 sec) :=
  inferInstanceAs (Decidable (_ ∨ _ ∨ _))

theorem getSchedulingScore_before {now : Timespec64} {t : TaskStruct}
    (h : now.tvSec.toInt < t.deadline1.toInt) : getSchedulingScore wrapv now t = .ok H :=
  if_pos (Int64.lt_iff_toInt_lt.mpr h)

theorem getSchedulingScore_after {now : Timespec64} {t : TaskStruct}
    (hlo : ¬ now.tvSec.toInt < t.deadline1.toInt) (h : t.deadline2.toInt < now.tvSec.toInt) :
    getSchedulingScore wrapv now t = .ok 0 := by
  rw [← Int64.lt_iff_toInt_lt] at hlo h
  unfold getSchedulingScore
  dsimp only
  rw [if_neg hlo, if_pos h]
  rfl

/-- Between the deadlines the machine always divides. -/
theorem getSchedulingScore_between {now : Timespec64} {t : TaskStruct}
    (h1 : 0 < t.deadline1.toInt) (h2 : t.deadline1.toInt < t.deadline2.toInt)
    (hlo : ¬ now.tvSec.toInt < t.deadline1.toInt) (hhi : ¬ t.deadline2.toInt < now.tvSec.toInt) :
    ∃ r, getSchedulingScore wrapv now t = .ok r ∧
      r.toInt = (((t.deadline2.toInt - now.tvSec.toInt) * 100).bmod 18446744073709551616).tdiv
        (t.deadline2.toInt - t.deadline1.toInt) := by
  have hd2 := t.deadline2.toInt_lt
  have hdiff : (t.deadline2 - now.tvSec).toInt = t.deadline2.toInt - now.tvSec.toInt :=
    toInt_sub_of_fits ⟨by omega, by omega⟩
  have hden : (t.deadline2 - t.deadline1).toInt = t.deadline2.toInt - t.deadline1.toInt :=
    toInt_sub_of_fits ⟨by omega, by omega⟩
  have hnum : ((t.deadline2 - now.tvSec) * 100).toInt
      = ((t.deadline2.toInt - now.tvSec.toInt) * 100).bmod 18446744073709551616 := by
    rw [Int64.toInt_mul, hdiff]
    rfl
  have hpos : 0 < (t.deadline2 - t.deadline1).toInt := by omega
  refine ⟨(t.deadline2 - now.tvSec) * 100 / (t.deadline2 - t.deadline1), ?_, ?_⟩
  · rw [← Int64.lt_iff_toInt_lt] at hlo hhi
    unfold getSchedulingScore
    dsimp only
    rw [if_neg hlo, if_neg hhi]
    exact machineDiv_of_pos hpos
  · rw [toInt_div_of_pos hpos, hnum, hden]

/-- No score is above 100: a product that wraps gets smaller. -/
theorem score_quotient_le {d1 d2 sec : Int} (h2 : d1 < d2) (hlo : ¬ sec < d1) (hhi : ¬ d2 < sec) :
    (((d2 - sec) * 100).bmod 18446744073709551616).tdiv (d2 - d1) ≤ 100 := by
  have hle := bmod_le_self (x := (d2 - sec) * 100) (by omega)
  exact tdiv_le_of_le_mul (by omega) (by omega) (by omega)

theorem getSchedulingScore_onScale {now : Timespec64} {t : TaskStruct}
    (h1 : 0 < t.deadline1.toInt) (h2 : t.deadline1.toInt < t.deadline2.toInt) :
    (∃ r, getSchedulingScore wrapv now t = .ok r ∧ OnScale r) ↔
      ScoreExact t.deadline1.toInt t.deadline2.toInt now.tvSec.toInt := by
  by_cases hlt : now.tvSec.toInt < t.deadline1.toInt
  · exact ⟨fun _ => Or.inl hlt, fun _ => ⟨H, getSchedulingScore_before hlt, H_onScale⟩⟩
  · by_cases hgt : t.deadline2.toInt < now.tvSec.toInt
    · exact ⟨fun _ => Or.inr (Or.inl hgt),
        fun _ => ⟨0, getSchedulingScore_after hlt hgt, zero_onScale⟩⟩
    · obtain ⟨r, hr, hquot⟩ := getSchedulingScore_between h1 h2 hlt hgt
      have htop := score_quotient_le h2 hlt hgt
      have hbottom := tdiv_nonneg_iff
        (r := ((t.deadline2.toInt - now.tvSec.toInt) * 100).bmod 18446744073709551616)
        (d := t.deadline2.toInt - t.deadline1.toInt) (by omega)
      constructor
      · rintro ⟨r', hr', hscale⟩
        have heq : r = r' := Except.ok.inj (hr.symm.trans hr')
        rw [← heq, OnScale, hquot] at hscale
        exact Or.inr (Or.inr (hbottom.mp hscale.1))
      · intro hexact
        have hres := (hexact.resolve_left hlt).resolve_left hgt
        refine ⟨r, hr, ?_⟩
        rw [OnScale, hquot]
        exact ⟨hbottom.mpr hres, htop⟩

/-! ## Accepted parameters -/

/-- The task with another `first_time`. -/
def TaskStruct.startedAt (t : TaskStruct) (firstTime : Long) : TaskStruct :=
  { t with hvf := { t.hvf with firstTime := firstTime } }

/-- The initial value is computed without an overflow or a divide error, and
is on the scale; the machine computes the same. -/
def ValueSafe (t : TaskStruct) (firstTime : Long) : Prop :=
  ∃ t', computeInitSchedValue strict (t.startedAt firstTime) = .ok t' ∧
    computeInitSchedValue wrapv (t.startedAt firstTime) = .ok t' ∧
    t'.hvf.initSchedValue = t'.hvf.currSchedValue ∧ OnScale t'.hvf.currSchedValue

/-- The score is computed by the machine, and is on the scale. -/
def ScoreSafe (t : TaskStruct) (now : Timespec64) : Prop :=
  ∃ r, getSchedulingScore wrapv now t = .ok r ∧ OnScale r

theorem valueSafe_iff {t : TaskStruct} {firstTime : Long} (h1 : 0 < t.deadline1.toInt)
    (h2 : t.deadline1.toInt < t.deadline2.toInt) :
    ValueSafe t firstTime ↔ NoWrap firstTime.toInt t.computationTime.toInt t.deadline1.toInt
      t.deadline2.toInt := by
  constructor
  · rintro ⟨t', ht, -, -, -⟩
    unfold computeInitSchedValue at ht
    obtain ⟨v, hv, -⟩ := bind_ok.mp ht
    exact (noWrap_of_computeInitValue h2 hv).1
  · intro h
    obtain ⟨v, hv⟩ := computeInitValue_of_noWrap h1 h2 h
    have hscale := (noWrap_of_computeInitValue h2 hv).2
    exact ⟨_, bind_ok.mpr ⟨v, hv, rfl⟩, bind_ok.mpr ⟨v, computeInitValue_wrapv hv, rfl⟩, rfl, hscale⟩

/-- What acceptance says of the deadlines. -/
theorem deadlines_of_accepted {now : Timespec64} {d1 d2 ct : Long}
    (h : paramsAccepted now d1 d2 ct = true) : 0 < d1.toInt ∧ d1.toInt < d2.toInt := by
  unfold paramsAccepted at h
  simp only [Bool.and_eq_true, decide_eq_true_eq, gt_iff_lt, Int64.lt_iff_toInt_lt] at h
  exact ⟨h.1.1.1, h.1.2⟩

/-- What a successful call leaves in the task. -/
theorem setSchedulingParams_ok {now : Timespec64} {d1 d2 ct : Long} {t t' : TaskStruct}
    (h : setSchedulingParams now d1 d2 ct t = (0, t')) :
    paramsAccepted now d1 d2 ct = true ∧ t'.deadline1 = d1 ∧ t'.deadline2 = d2 ∧
      t'.computationTime = ct := by
  unfold setSchedulingParams at h
  split at h
  next hacc =>
    injection h with _ h
    rw [← h]
    exact ⟨hacc, rfl, rfl, rfl⟩
  next =>
    injection h with h _
    cases h

/-- Parameters that `set_scheduling_params` accepted are safe, for a first
time and a time of the score, exactly when the products of the two
computations stay in range. -/
theorem accepted_params_safe_iff (now later : Timespec64) (d1 d2 ct firstTime : Long)
    (t t' : TaskStruct) (hset : setSchedulingParams now d1 d2 ct t = (0, t')) :
    (ValueSafe t' firstTime ∧ ScoreSafe t' later) ↔
      (NoWrap firstTime.toInt ct.toInt d1.toInt d2.toInt ∧
        ScoreExact d1.toInt d2.toInt later.tvSec.toInt) := by
  obtain ⟨hacc, hd1, hd2, hct⟩ := setSchedulingParams_ok hset
  obtain ⟨h1, h2⟩ := deadlines_of_accepted hacc
  rw [← hd1] at h1
  rw [← hd1, ← hd2] at h2
  rw [valueSafe_iff h1 h2, ScoreSafe, getSchedulingScore_onScale h1 h2, hd1, hd2, hct]

/-- Deadlines ten and twenty seconds ahead, half a second of work, and a score
asked for half way between the deadlines. -/
theorem accepted_params_safe_iff_seconds :
    ∃ t', setSchedulingParams ⟨1000, 0⟩ 1010 1020 500 firstTask = (0, t') ∧
      stampMs ⟨1000, 0⟩ ≤ 1000005 ∧ ValueSafe t' 1000005 ∧ ScoreSafe t' ⟨1015, 0⟩ := by
  refine ⟨_, rfl, by decide, ?_⟩
  exact (accepted_params_safe_iff ⟨1000, 0⟩ ⟨1015, 0⟩ 1010 1020 500 1000005 firstTask _ rfl).mpr
    (by decide)

/-- One second after the epoch, a second deadline of `2^61 + 1` seconds is
accepted: 1000 times that is 1000 again. A task that starts one millisecond
later divides by zero, and its score is negative. -/
theorem accepted_params_divide_by_zero :
    ∃ t', setSchedulingParams ⟨1, 0⟩ 1 2305843009213693953 (-1) firstTask = (0, t') ∧
      stampMs ⟨1, 0⟩ ≤ 1001 ∧
      computeInitSchedValue wrapv (t'.startedAt 1001) = .error .divide ∧
      getSchedulingScore wrapv ⟨1, 0⟩ t' = .ok (-4) := by
  exact ⟨_, rfl, by decide, by decide, by decide⟩

end HvfSched
