import HvfSched.Values.Calls
import HvfSched.Values.Share

/-!
# Values on the scale

The value of an entity starts on the scale from 0 to 100 and is written by
three functions. `reduce_sched_value` takes away a share given by the CPU time
used, `penalty_hvf_entity` a share given by the square of the overrun; both
subtract `amount * value / 100` and settle what is left, so one lemma covers
them (`settle_onScale`): the result is on the scale as long as `amount * 100`
fits in a `long`. It need not. The overrun is squared without a look at its
range, and an accepted `computation_time` may be any negative number.

What the functions are called with in a step is the `Budget` of the step. A safe
budget keeps the task on the scale through any sequence of those calls.
-/

namespace HvfSched

open Lib

/-! ## The two updates -/

/-- What the share leaves is on the scale. -/
theorem settle_onScale {old amount : Long} (hold : OnScale old) (hpos : 0 ≤ amount.toInt)
    (hfit : Fits (amount.toInt * 100)) : OnScale (settleValue old (old - amount * old / 100)) := by
  obtain ⟨hlo, hhi⟩ := hold
  have htop := hfit.2
  have hprod₀ : 0 ≤ amount.toInt * old.toInt := Int.mul_nonneg hpos hlo
  have hprod : amount.toInt * old.toInt ≤ amount.toInt * 100 := Int.mul_le_mul_of_nonneg_left hhi hpos
  rw [OnScale, settle_toInt ⟨hlo, hhi⟩ hpos ⟨by omega, by omega⟩]
  exact ⟨lessShare_nonneg _ _, lessShare_le hlo hhi hpos⟩

/-- A time used for which the decay does not wrap. -/
def ReduceOk (used : Long) : Prop := 0 ≤ used.toInt ∧ Fits (used.toInt * 100)

/-- A time used and a computation time for which the penalty does not wrap. -/
def OverrunOk (used computationTime : Long) : Prop :=
  computationTime.toInt < used.toInt →
    Fits ((used.toInt - computationTime.toInt) * (used.toInt - computationTime.toInt) * 100)

instance (used : Long) : Decidable (ReduceOk used) := inferInstanceAs (Decidable (_ ∧ _))

instance (used computationTime : Long) : Decidable (OverrunOk used computationTime) :=
  inferInstanceAs (Decidable (_ → _))

theorem reduce_onScale {se : SchedHvfEntity} (hv : OnScale se.currSchedValue)
    (ht : ReduceOk se.timeUsed) : OnScale (reduceSchedValue se).currSchedValue :=
  settle_onScale hv ht.1 ht.2

theorem penalty_onScale {se : SchedHvfEntity} {ct : Long} (hv : OnScale se.currSchedValue)
    (ht : OverrunOk se.timeUsed ct) (hover : ct < se.timeUsed) :
    OnScale (penaltyHvfEntity se ct).currSchedValue := by
  have hover' := Int64.lt_iff_toInt_lt.mp hover
  have hsq := ht hover'
  have htop := hsq.2
  have hpos : 0 ≤ (se.timeUsed.toInt - ct.toInt) * (se.timeUsed.toInt - ct.toInt) :=
    Int.mul_nonneg (by omega) (by omega)
  have hmul := overrun_square_toInt hover' ⟨by omega, by omega⟩
  refine settle_onScale hv ?_ ?_
  · rw [hmul]
    exact hpos
  · rw [hmul]
    exact hsq

/-- The deadlines are in order, and the initial value does not wrap. -/
def InitOk (firstTime : Long) (x : Params) : Prop :=
  0 < x.deadline1.toInt ∧ x.deadline1.toInt < x.deadline2.toInt ∧
  NoWrap firstTime.toInt x.computationTime.toInt x.deadline1.toInt x.deadline2.toInt

instance (firstTime : Long) (x : Params) : Decidable (InitOk firstTime x) :=
  inferInstanceAs (Decidable (_ ∧ _ ∧ _))

/-- The initial value is on the scale. -/
theorem computeInit_onScale {t t' : TaskStruct} (h : InitOk t.hvf.firstTime t.params)
    (hc : computeInitSchedValue wrapv t = .ok t') : OnScale t'.hvf.currSchedValue := by
  obtain ⟨h1, h2, hn⟩ := h
  obtain ⟨v, hv⟩ := computeInitValue_of_noWrap h1 h2 hn
  have hscale := (noWrap_of_computeInitValue h2 hv).2
  unfold computeInitSchedValue at hc
  obtain ⟨w, hw, hc⟩ := bind_ok.mp hc
  injection hc with hc
  injection (computeInitValue_wrapv hv).symm.trans hw with hvw
  rw [← hc, ← hvw]
  exact hscale

/-! ## The budget of a step -/

/-- No call with these operands wraps. -/
structure Budget.Safe (B : Budget) : Prop where
  reduces : ∀ u ∈ B.reduces, ReduceOk u
  overruns : ∀ x ∈ B.overruns, OverrunOk x.1 x.2
  inits : ∀ x ∈ B.inits, InitOk x.1 x.2

-- through `List.all`: a search over all of `Long` would not end
instance (B : Budget) : Decidable B.Safe :=
  decidable_of_iff ((B.reduces.all fun u => decide (ReduceOk u)) = true ∧
      (B.overruns.all fun x => decide (OverrunOk x.1 x.2)) = true ∧
      (B.inits.all fun x => decide (InitOk x.1 x.2)) = true) (by
    simp only [List.all_eq_true, decide_eq_true_eq]
    exact ⟨fun h => ⟨h.1, h.2.1, h.2.2⟩, fun h => ⟨h.reduces, h.overruns, h.inits⟩⟩)

/-- With a safe budget the value is on the scale after every call. -/
theorem Calls.onScale {E : Env} {B : Budget} {i : Nat} {t₀ t : TaskStruct}
    (hv : OnScale t₀.hvf.currSchedValue) (hB : B.Safe) (h : Calls E B i t₀ t) :
    OnScale t.hvf.currSchedValue := by
  induction h with
  | start => exact hv
  | used => exact hv
  | other _ ha ih =>
    have hsame := congrArg Account.value ha
    exact Eq.subst (motive := OnScale) hsame.symm ih
  | reduce _ hm ih =>
    have hok := hB.reduces _ hm
    have hnew := reduce_onScale ih hok
    exact hnew
  | penalty _ hm hover ih =>
    have hok := hB.overruns _ hm
    have hnew := penalty_onScale ih hok (of_decide_eq_true hover)
    exact hnew
  | init _ hm hc _ =>
    have hok := hB.inits _ hm
    refine computeInit_onScale ?_ hc
    exact hok
  | stamp j _ ih => exact ih
  | defaults j _ hm hg ih =>
    unfold giveDefaultHvfValues at hg
    split at hg
    next =>
      injection hg with hg
      rw [← hg]
      exact ih
    next hunset =>
      have hok := hB.inits _ (hm (Bool.eq_false_iff.mpr hunset))
      refine computeInit_onScale ?_ hg
      exact hok

/-! ## The whole machine -/

def Scaled (s : Sys) : Prop := ∀ p, OnScale (s.value p)

theorem Tracked.scaled {E : Env} {s₀ s : Sys} {p : TaskId} {w : Work} {n : Nat}
    (h : Tracked E s₀ p w n s) (hB : ((s₀.task p).budget E s₀.reads w).Safe) (hs : Scaled s₀) :
    Scaled s := by
  intro q
  by_cases hq : q = p
  · rw [hq]
    exact h.self.onScale (hs p) hB
  · rw [h.others q hq]
    exact hs q

/-- On the scale the difference of two values fits in an `int`. -/
theorem near_of_onScale {v w : Long} (hv : OnScale v) (hw : OnScale w) : Near v w := by
  obtain ⟨hv₀, hv₁⟩ := hv
  obtain ⟨hw₀, hw₁⟩ := hw
  exact ⟨by omega, by omega⟩

/-- The turn of the insertion loop is the comparison of the values. -/
theorem goesLeft_iff {s : Sys} (h : Scaled s) (p q : TaskId) :
    goesLeft s p q = true ↔ s.value p ≤ s.value q := by
  unfold goesLeft
  rw [decide_eq_true_iff]
  exact diffInt_le_zero_iff (near_of_onScale (h p) (h q))

end HvfSched
