import HvfSched.Tasks.OneTask
import HvfSched.Values.Params

/-!
# The parameters of a task over a whole run

Three parameters and the flag `pars_set` are written in five places. Two
things are followed through every order of those writes.

* The parameters are in order (`ParamState`): all zero while the flag is
  clear, and positive and increasing while it is set. Tasks of the class have
  the flag set, so `get_scheduling_score` has something to divide by. The one
  place that could break this is `give_default_hvf_values`: it adds four and six
  seconds to the clock without looking at the range, so a clock within six
  seconds of the end of `long` would give a second deadline that is negative.
  `ktime_get_real_ts64` never reads that late: times are kept in nanoseconds,
  and `settimeofday` refuses what does not fit (`InClockRange`).
* A priority boost takes the task out of the class, and the parameters are
  cleared as in any other class change; when the boost ends the task gets
  defaults. `Boosts` is a run between two looks at the task in which nobody
  sets its parameters or its policy, with the clock reading of its last
  return into the class. What the task had before is what it has afterwards
  exactly when it had the defaults of that reading, or never left.
-/

namespace HvfSched

open Lib Sys

variable {E : Env} {s s' : Sys} {a : Act} {p : TaskId}

/-! ## Parameters in order -/

def Params.InOrder (x : Params) : Prop := 0 < x.deadline1 ∧ x.deadline1 < x.deadline2

instance (x : Params) : Decidable x.InOrder := inferInstanceAs (Decidable (_ ∧ _))

/-- Cleared parameters, or parameters in order, as `pars_set` says. -/
def ParamState (parsSet : Bool) (x : Params) : Prop :=
  (parsSet = false ∧ x = ⟨0, 0, 0⟩) ∨ (parsSet = true ∧ x.InOrder)

instance (b : Bool) (x : Params) : Decidable (ParamState b x) :=
  inferInstanceAs (Decidable (_ ∨ _))

/-- The clock readings at which the default deadlines are inside `long`. -/
def defaultsFit (now : Timespec64) : Prop :=
  0 < now.tvSec.toInt + now.tvNsec.toInt.tdiv 1000000000 + 4 ∧
    now.tvSec.toInt + now.tvNsec.toInt.tdiv 1000000000 + 6 < 9223372036854775808

instance (now : Timespec64) : Decidable (defaultsFit now) := inferInstanceAs (Decidable (_ ∧ _))

theorem defaultParams_inOrder {now : Timespec64} (h : defaultsFit now) :
    (defaultParams now).InOrder := by
  obtain ⟨hlo, hhi⟩ := h
  have hkkk : (K * K * K).toInt = 1000000000 := by decide
  have hquot : (now.tvNsec / (K * K * K)).toInt = now.tvNsec.toInt.tdiv 1000000000 := by
    rw [toInt_div_of_pos (by rw [hkkk]; decide), hkkk]
  have hcur : (now.tvSec + now.tvNsec / (K * K * K)).toInt
      = now.tvSec.toInt + now.tvNsec.toInt.tdiv 1000000000 := by
    rw [toInt_add_of_fits, hquot]
    rw [hquot]
    exact ⟨by omega, by omega⟩
  have hfour : (4 : Long).toInt = 4 := by decide
  have hsix : (6 : Long).toInt = 6 := by decide
  have h₁ : (defaultParams now).deadline1.toInt
      = now.tvSec.toInt + now.tvNsec.toInt.tdiv 1000000000 + 4 := by
    unfold defaultParams
    dsimp only
    rw [toInt_add_of_fits, hcur, hfour]
    rw [hcur, hfour]
    exact ⟨by omega, by omega⟩
  have h₂ : (defaultParams now).deadline2.toInt
      = now.tvSec.toInt + now.tvNsec.toInt.tdiv 1000000000 + 6 := by
    unfold defaultParams
    dsimp only
    rw [toInt_add_of_fits, hcur, hsix]
    rw [hcur, hsix]
    exact ⟨by omega, by omega⟩
  constructor
  · rw [Int64.lt_iff_toInt_lt, h₁]
    exact hlo
  · rw [Int64.lt_iff_toInt_lt, h₁, h₂]
    omega

-- four seconds before the end of `long` the second deadline wraps
example : ¬ (defaultParams ⟨9223372036854775803, 0⟩).InOrder := by decide

theorem paramsAccepted_inOrder {now : Timespec64} {d1 d2 ct : Long}
    (h : paramsAccepted now d1 d2 ct = true) : (Params.mk d1 d2 ct).InOrder := by
  unfold paramsAccepted at h
  simp only [Bool.and_eq_true, decide_eq_true_eq] at h
  obtain ⟨⟨⟨hpos, -⟩, hlt⟩, -⟩ := h
  exact ⟨hpos, hlt⟩

/-- The parameter state of a record. -/
def Record.Kept (r : Record) : Prop := ParamState r.parsSet r.params

/-- Defaults are only given to a task that has no parameters. -/
theorem Clocked.defaults_kept {x : Clocked} (h : x.record.Kept)
    (hfit : x.record.parsSet = false → defaultsFit (E.clock x.reads)) :
    (x.defaults E).record.Kept ∧ (x.defaults E).record.parsSet = true := by
  unfold Clocked.defaults
  split
  next hset => exact ⟨h, hset⟩
  next hclear =>
    have hfit' := hfit (Bool.eq_false_iff.mpr hclear)
    exact ⟨Or.inr ⟨rfl, defaultParams_inOrder hfit'⟩, rfl⟩

/-- A put does not reach the parameters. -/
theorem Clocked.putIf_params (x : Clocked) (current running : Bool) :
    (x.putIf E current running).record.parsSet = x.record.parsSet ∧
      (x.putIf E current running).record.params = x.record.params := by
  unfold Clocked.putIf
  split
  next => exact ⟨rfl, rfl⟩
  next => exact ⟨rfl, rfl⟩

/-- Every task has parameters in order or none, and a task of the class has
some. -/
structure ParamsKept (s : Sys) : Prop where
  state : ∀ p, ParamState (s.task p).parsSet (s.task p).params
  hvf : ∀ p, (s.task p).schedClass = .hvf → (s.task p).parsSet = true

/-- No task enters the class within the last six seconds of `long`. -/
def clockKept (E : Env) (s : Sys) (a : Act) : Prop :=
  ∀ x ∈ classTarget s a, x.2 = .hvf → (s.task x.1).parsSet = false → defaultsFit (s.now E)

instance (E : Env) (s : Sys) (a : Act) : Decidable (clockKept E s a) :=
  inferInstanceAs (Decidable (∀ x ∈ classTarget s a, _))

/-- What a step does to the parameters of one task. -/
theorem step_taskParams (hs : ParamsKept s) (hok : clockKept E s a) (h : step E s a = some s') :
    (s'.clocked p).record.Kept ∧
      ((s'.task p).schedClass = .hvf → (s'.clocked p).record.parsSet = true) := by
  have hkept : (s.clocked p).record.Kept := hs.state p
  have hset : (s.task p).schedClass = .hvf → (s.clocked p).record.parsSet = true := hs.hvf p
  have hgive : ∀ {x : Clocked}, x.record.Kept → x.record.parsSet = true →
      (x.enter E).record.Kept ∧ (x.enter E).record.parsSet = true := by
    intro x hk hflag
    refine Clocked.defaults_kept hk (fun hc => ?_)
    rw [hflag] at hc
    cases hc
  cases step_task h p with
  | same hidle hrec hreads hcls hcpus =>
    show (s'.task p).record.Kept ∧ (_ → (s'.task p).record.parsSet = true)
    rw [hrec, hcls]
    exact ⟨hkept, hset⟩
  | other hidle hrec hreads hcls hcls' =>
    show (s'.task p).record.Kept ∧ (_ → (s'.task p).record.parsSet = true)
    rw [hrec]
    exact ⟨hkept, fun hc => absurd hc hcls'⟩
  | tick c ha hp hcls hrec hstill =>
    rw [hrec]
    exact ⟨hkept, fun _ => hset hcls⟩
  | params c d1 d2 ct ha hp hacc hrec hreads hstill =>
    show (s'.task p).record.Kept ∧ (_ → (s'.task p).record.parsSet = true)
    rw [hrec]
    exact ⟨Or.inr ⟨rfl, paramsAccepted_inOrder hacc⟩, fun _ => rfl⟩
  | put c how hleave hp hcls hrec hreads hcls' hcpus =>
    show (s'.task p).record.Kept ∧ (_ → (s'.task p).record.parsSet = true)
    rw [hrec]
    exact ⟨hkept, fun _ => hset hcls⟩
  | dispatch c how n hleave hne hcls hrec hreads hcls' hcpus =>
    rw [hrec]
    exact ⟨hkept, fun _ => hset hcls⟩
  | enter dest hact hnew hcls hrec hstill =>
    have he := hgive hkept (hset hcls)
    rw [hrec]
    exact ⟨he.1, fun _ => he.2⟩
  | stay htarget hcls hrec hcls' hcpus =>
    -- the flag is set, so an enqueue gives no defaults
    obtain ⟨hflag, hpar⟩ := Clocked.putIf_params (E := E) (s.clocked p) (s.isCurrent p)
      (s.task p).isRunning
    have hput : ((s.clocked p).putIf E (s.isCurrent p) (s.task p).isRunning).record.Kept := by
      unfold Record.Kept
      rw [hflag, hpar]
      exact hkept
    rw [hset hcls] at hflag
    rw [hrec]
    split
    next =>
      have he := hgive hput hflag
      exact ⟨he.1, fun _ => he.2⟩
    next => exact ⟨hput, fun _ => hflag⟩
  | leave cls htarget hne hcls hrec hcls' =>
    obtain ⟨hflag, -⟩ := Clocked.putIf_params (E := E) (s.clocked p) (s.isCurrent p)
      (s.task p).isRunning
    rw [hset hcls] at hflag
    rw [hrec, hcls', Clocked.clear, if_pos hflag]
    exact ⟨Or.inl ⟨rfl, rfl⟩, fun hc => absurd hc hne⟩
  | join htarget hcls hrec hcls' hcpus =>
    have hd := Clocked.defaults_kept (E := E) hkept (fun hc => hok _ htarget rfl hc)
    rw [hrec]
    split
    next => exact ⟨hd.1, fun _ => hd.2⟩
    next => exact ⟨hd.1, fun _ => hd.2⟩
  | born c t hp hfork ht htask hs' =>
    have hcls := (schedFork_forked c ht).schedClass
    show (s'.task p).record.Kept ∧ (_ → (s'.task p).record.parsSet = true)
    rw [htask]
    exact ⟨Or.inl ⟨rfl, rfl⟩, fun hc => absurd hc hcls⟩

theorem step_paramsKept (hs : ParamsKept s) (hok : clockKept E s a) (h : step E s a = some s') :
    ParamsKept s' where
  state p := (step_taskParams (p := p) hs hok h).1
  hvf p := (step_taskParams (p := p) hs hok h).2

theorem boot_paramsKept : ParamsKept boot where
  state p := by
    cases p with
    | idle c => exact Or.inl ⟨rfl, rfl⟩
    | task n => exact Or.inl ⟨rfl, rfl⟩
  hvf p hc := by
    cases p with
    | idle c => cases hc
    | task n => cases hc

theorem reached_paramsKept {ok : Sys → Act → Prop} (hok : ∀ s a, ok s a → clockKept E s a)
    (h : Reached E ok s) : ParamsKept s := by
  refine Reach.invariant ParamsKept ?_ ?_ h
  · rintro s rfl
    exact boot_paramsKept
  · intro s a s' hs hk hstep
    exact step_paramsKept hs (hok s a hk) hstep

/-! ## The score -/

/-- With parameters in order, or none, the score is defined at every positive
time. -/
theorem getSchedulingScore_defined {t : TaskStruct} {now : Timespec64}
    (h : ParamState t.parsSet t.params) (hnow : 0 < now.tvSec) :
    ∃ v, getSchedulingScore wrapv now t = .ok v := by
  unfold getSchedulingScore
  dsimp only
  split
  next => exact ⟨H, rfl⟩
  next hlate =>
    split
    next => exact ⟨0, rfl⟩
    next hearly =>
      rcases h with ⟨-, hzero⟩ | ⟨-, hpos, hlt⟩
      · -- without parameters any positive time is late
        have hd2 : t.deadline2 = 0 := congrArg Params.deadline2 hzero
        rw [hd2] at hearly
        exact absurd hnow hearly
      · have hpos : 0 < t.deadline1.toInt := Int64.lt_iff_toInt_lt.mp hpos
        have hlt : t.deadline1.toInt < t.deadline2.toInt := Int64.lt_iff_toInt_lt.mp hlt
        have hfits := fits_toInt t.deadline2
        have hden : (t.deadline2 - t.deadline1).toInt = t.deadline2.toInt - t.deadline1.toInt := by
          apply toInt_sub_of_fits
          exact ⟨by omega, by have := hfits.2; omega⟩
        refine ⟨_, machineDiv_of_pos ?_⟩
        rw [hden]
        omega

/-- In every run that gives no defaults at the very end of the clock, all
parameters stay in order and no score divides by zero. -/
theorem params_stay_in_order (E : Env) (s : Sys) (h : Reached E (clockKept E) s) :
    (∀ p, ((s.task p).parsSet = false ∧ (s.task p).params = ⟨0, 0, 0⟩) ∨
      ((s.task p).parsSet = true ∧ 0 < (s.task p).deadline1 ∧
        (s.task p).deadline1 < (s.task p).deadline2)) ∧
    (∀ p, (s.task p).schedClass = .hvf → (s.task p).parsSet = true) ∧
    ∀ p now, 0 < now.tvSec → ∃ v, getSchedulingScore wrapv now (s.task p) = .ok v := by
  have hs := reached_paramsKept (fun _ _ hk => hk) h
  exact ⟨hs.state, hs.hvf, fun p now hnow => getSchedulingScore_defined (hs.state p) hnow⟩

/-- A reading in the range of `ktime_get_real_ts64`: not before the epoch, and at
most `KTIME_SEC_MAX` seconds after it. -/
def InClockRange (now : Timespec64) : Prop :=
  (0 ≤ now.tvSec.toInt ∧ now.tvSec.toInt ≤ 9223372036) ∧
    0 ≤ now.tvNsec.toInt ∧ now.tvNsec.toInt < 1000000000

instance (now : Timespec64) : Decidable (InClockRange now) := inferInstanceAs (Decidable (_ ∧ _))

theorem InClockRange.defaultsFit {now : Timespec64} (h : InClockRange now) : defaultsFit now := by
  obtain ⟨⟨hlo, hhi⟩, hlo', hhi'⟩ := h
  have hzero : now.tvNsec.toInt.tdiv 1000000000 = 0 := Int.tdiv_eq_zero_of_lt hlo' hhi'
  unfold HvfSched.defaultsFit
  rw [hzero]
  omega

/-- What every reading in range makes of a run. -/
theorem reached_clockKept {ok : Sys → Act → Prop} (h : Reached E ok s)
    (hclock : ∀ i ≤ s.reads, InClockRange (E.clock i)) : Reached E (clockKept E) s := by
  induction h with
  | start hs => exact .start hs
  | next hs hok hstep ih =>
    have hreads := (step_record hstep).reads_le
    refine .next (ih fun i hi => hclock i (Nat.le_trans hi hreads)) ?_ hstep
    exact fun _ _ _ _ => (hclock _ hreads).defaultsFit

/-- In every run under a clock that keeps its range, all parameters stay in order
and no score divides by zero. -/
theorem params_in_order_in_clock_range (E : Env) (s : Sys) (h : Reached E (fun _ _ => True) s)
    (hclock : ∀ i ≤ s.reads, InClockRange (E.clock i)) :
    (∀ p, ((s.task p).parsSet = false ∧ (s.task p).params = ⟨0, 0, 0⟩) ∨
      ((s.task p).parsSet = true ∧ 0 < (s.task p).deadline1 ∧
        (s.task p).deadline1 < (s.task p).deadline2)) ∧
    (∀ p, (s.task p).schedClass = .hvf → (s.task p).parsSet = true) ∧
    ∀ p now, 0 < now.tvSec → ∃ v, getSchedulingScore wrapv now (s.task p) = .ok v :=
  params_stay_in_order E s (reached_clockKept h hclock)

/-- A task enters the class, sets parameters of its own and forks. -/
theorem params_in_order_after_fork :
    ∃ s, Reached wallEnv (fun _ _ => True) s ∧ (∀ i ≤ s.reads, InClockRange (wallEnv.clock i)) ∧
      ((s.task (.task 0)).params = ⟨1700000100, 1700000200, 70⟩ ∧
        (s.task (.task 1)).params = ⟨0, 0, 0⟩) ∧
      (∀ p, ((s.task p).parsSet = false ∧ (s.task p).params = ⟨0, 0, 0⟩) ∨
        ((s.task p).parsSet = true ∧ 0 < (s.task p).deadline1 ∧
          (s.task p).deadline1 < (s.task p).deadline2)) ∧
      (∀ p, (s.task p).schedClass = .hvf → (s.task p).parsSet = true) ∧
      ∀ p now, 0 < now.tvSec → ∃ v, getSchedulingScore wrapv now (s.task p) = .ok v := by
  obtain ⟨s, hs, hclock, hv⟩ := Reached.exists_of_eval
    (P := fun s => (∀ i ≤ s.reads, InClockRange (wallEnv.clock i)) ∧
      (s.task (.task 0)).params = ⟨1700000100, 1700000200, 70⟩ ∧
      (s.task (.task 1)).params = ⟨0, 0, 0⟩) wallEnv
    (startFirst ++ [.setscheduler permissive (.task 0) (plainAttr 8) true true,
      .setParams 0 1700000100 1700000200 70, .fork 0])
    (by decide +kernel)
  exact ⟨s, hs, hclock, hv, params_in_order_in_clock_range wallEnv s hs hclock⟩

/-! ## Boosts -/

/-- An action that sets neither the parameters nor the policy of `p`. -/
def spares (s : Sys) (p : TaskId) : Act → Prop
  | .setParams c _ _ _ => (s.rq c).curr ≠ p
  | .setscheduler _ q _ _ _ => q ≠ p
  | _ => True

instance (s : Sys) (p : TaskId) : (a : Act) → Decidable (spares s p a)
  | .setState .. => inferInstanceAs (Decidable True)
  | .schedule .. => inferInstanceAs (Decidable True)
  | .doTaskDead .. => inferInstanceAs (Decidable True)
  | .finishTaskSwitch .. => inferInstanceAs (Decidable True)
  | .tick .. => inferInstanceAs (Decidable True)
  | .wake .. => inferInstanceAs (Decidable True)
  | .fork .. => inferInstanceAs (Decidable True)
  | .wakeNew .. => inferInstanceAs (Decidable True)
  | .setscheduler .. => inferInstanceAs (Decidable (_ ≠ _))
  | .setprio .. => inferInstanceAs (Decidable True)
  | .moveTask .. => inferInstanceAs (Decidable True)
  | .setParams .. => inferInstanceAs (Decidable (_ ≠ _))

/-- The step brought `p` into the class. -/
def comesBack (s s' : Sys) (p : TaskId) : Prop :=
  (s.task p).schedClass ≠ .hvf ∧ (s'.task p).schedClass = .hvf

instance (s s' : Sys) (p : TaskId) : Decidable (comesBack s s' p) :=
  inferInstanceAs (Decidable (_ ∧ _))

/-- A run from `s` that leaves the parameters and the policy of `p` to
`rt_mutex_setprio`, with the number of the clock reading taken when `p` last
came back into the class. -/
inductive Boosts (E : Env) (p : TaskId) (s : Sys) : Option Nat → Sys → Prop
  | start : Boosts E p s none s
  | next {r : Option Nat} {s₁ s' : Sys} {a : Act} (h : Boosts E p s r s₁)
      (hspares : spares s₁ p a) (hstep : step E s₁ a = some s') :
      Boosts E p s (if comesBack s₁ s' p then some s₁.reads else r) s'

/-- What `p` has after such a run, when it had `x` before. -/
structure Boosted (E : Env) (x : Params) (r : Option Nat) (s : Sys) (p : TaskId) : Prop where
  inside : (s.task p).schedClass = .hvf →
    (s.task p).parsSet = true ∧ (s.task p).params = (r.elim x fun i => defaultParams (E.clock i))
  outside : (s.task p).schedClass ≠ .hvf → (s.task p).parsSet = false

/-- A step that leaves the flag, the parameters and the class of `p` alone. -/
theorem Boosted.keep {x : Params} {r : Option Nat} (h : Boosted E x r s p)
    (hset : (s'.task p).parsSet = (s.task p).parsSet)
    (hpar : (s'.task p).params = (s.task p).params)
    (hcls : (s'.task p).schedClass = (s.task p).schedClass) : Boosted E x r s' p := by
  constructor
  · intro hc
    rw [hset, hpar]
    exact h.inside (hcls.symm.trans hc)
  · intro hc
    rw [hset]
    exact h.outside (fun hc' => hc (hcls.trans hc'))

/-- The flag and the parameters, out of the record. -/
theorem record_params {t : TaskStruct} {r : Record} (h : t.record = r) :
    t.parsSet = r.parsSet ∧ t.params = r.params :=
  ⟨congrArg Record.parsSet h, congrArg Record.params h⟩

/-- An enqueue gives no defaults to a task that has parameters. -/
theorem Clocked.enter_params {x : Clocked} (h : x.record.parsSet = true) :
    (x.enter E).record.parsSet = true ∧ (x.enter E).record.params = x.record.params := by
  have hd : x.defaults E = x := if_pos h
  rw [Clocked.enter, hd]
  exact ⟨h, rfl⟩

/-- A task that comes into the class without parameters gets the defaults of
the next clock reading, whether it is initialised or not. -/
theorem Clocked.join_params {x : Clocked} (h : x.record.parsSet = false) (isInit : Bool) :
    (if isInit then x.enter E else x.defaults E).record.parsSet = true ∧
      (if isInit then x.enter E else x.defaults E).record.params
        = defaultParams (E.clock x.reads) := by
  have hd : x.defaults E = _ := if_neg (by rw [h]; decide)
  rw [Clocked.enter, hd]
  split
  next => exact ⟨rfl, rfl⟩
  next => exact ⟨rfl, rfl⟩

/-- One step; a fork does not reach `p`, which exists already. -/
theorem Boosted.step {x : Params} {r : Option Nat} (h : Boosted E x r s p)
    (hlive : s.isLive p = true) (hspares : spares s p a) (hstep : HvfSched.step E s a = some s') :
    Boosted E x (if comesBack s s' p then some s.reads else r) s' p := by
  -- only `join` brings the task back; elsewhere the class before the step decides
  have hback : (s'.task p).schedClass = (s.task p).schedClass → ¬ comesBack s s' p :=
    fun hcls hc => hc.1 (hcls.symm.trans hc.2)
  cases step_task hstep p with
  | same hidle hrec hreads hcls hcpus =>
    obtain ⟨hset, hpar⟩ := record_params hrec
    rw [if_neg (hback hcls)]
    exact h.keep hset hpar hcls
  | other hidle hrec hreads hcls hcls' =>
    obtain ⟨hset, -⟩ := record_params hrec
    rw [if_neg (fun hc => hcls' hc.2)]
    refine ⟨fun hc => absurd hc hcls', ?_⟩
    intro _
    rw [hset]
    exact h.outside hcls
  | tick c ha hp hcls hrec hstill =>
    obtain ⟨hset, hpar⟩ := record_params (congrArg Clocked.record hrec)
    rw [if_neg (hback (hstill.schedClass p))]
    exact h.keep hset hpar (hstill.schedClass p)
  | params c d1 d2 ct ha hp hacc hrec hreads hstill =>
    subst ha
    exact absurd hp hspares
  | put c how hleave hp hcls hrec hreads hcls' hcpus =>
    obtain ⟨hset, hpar⟩ := record_params hrec
    rw [if_neg (hback (hcls'.trans hcls.symm))]
    exact h.keep hset hpar (hcls'.trans hcls.symm)
  | dispatch c how n hleave hne hcls hrec hreads hcls' hcpus =>
    obtain ⟨hset, hpar⟩ := record_params (congrArg Clocked.record hrec)
    rw [if_neg (hback (hcls'.trans hcls.symm))]
    exact h.keep hset hpar (hcls'.trans hcls.symm)
  | enter dest hact hnew hcls hrec hstill =>
    obtain ⟨hset, hpar⟩ := record_params (congrArg Clocked.record hrec)
    obtain ⟨hflag, -⟩ := h.inside hcls
    have he := Clocked.enter_params (E := E) (x := s.clocked p) hflag
    rw [if_neg (hback (hstill.schedClass p))]
    exact h.keep (hset.trans (he.1.trans hflag.symm)) (hpar.trans he.2) (hstill.schedClass p)
  | stay htarget hcls hrec hcls' hcpus =>
    obtain ⟨hset, hpar⟩ := record_params (congrArg Clocked.record hrec)
    obtain ⟨hflag, -⟩ := h.inside hcls
    obtain ⟨hputset, hputpar⟩ := Clocked.putIf_params (E := E) (s.clocked p) (s.isCurrent p)
      (s.task p).isRunning
    rw [if_neg (hback (hcls'.trans hcls.symm))]
    split at hset
    next hinit =>
      rw [if_pos hinit] at hpar
      have he := Clocked.enter_params (E := E) (hputset.trans hflag)
      exact h.keep (hset.trans (he.1.trans hflag.symm)) (hpar.trans (he.2.trans hputpar))
        (hcls'.trans hcls.symm)
    next hinit =>
      rw [if_neg hinit] at hpar
      exact h.keep (hset.trans hputset) (hpar.trans hputpar) (hcls'.trans hcls.symm)
  | leave cls htarget hne hcls hrec hcls' =>
    obtain ⟨hset, -⟩ := record_params (congrArg Clocked.record hrec)
    obtain ⟨hputset, -⟩ := Clocked.putIf_params (E := E) (s.clocked p) (s.isCurrent p)
      (s.task p).isRunning
    have hout : (s'.task p).schedClass ≠ .hvf := by
      rw [hcls']
      exact hne
    rw [if_neg (fun hc => hout hc.2)]
    refine ⟨fun hc => absurd hc hout, ?_⟩
    intro _
    rw [hset, Clocked.clear, if_pos (hputset.trans (h.inside hcls).1)]
  | join htarget hcls hrec hcls' hcpus =>
    obtain ⟨hset, hpar⟩ := record_params (congrArg Clocked.record hrec)
    have hj := Clocked.join_params (E := E) (x := s.clocked p) (h.outside hcls)
      ((s.task p).isQueued && a.initialises)
    rw [if_pos ⟨hcls, hcls'⟩]
    exact ⟨fun _ => ⟨hset.trans hj.1, hpar.trans hj.2⟩, fun hc => absurd hcls' hc⟩
  | born c t hp hfork ht htask hs' => exact absurd hp (ne_next_of_live hlive)

theorem Boosts.boosted {r : Option Nat} (h : Boosts E p s r s') (hlive : s.isLive p = true)
    (hcls : (s.task p).schedClass = .hvf) (hset : (s.task p).parsSet = true) :
    s'.isLive p = true ∧ Boosted E (s.task p).params r s' p := by
  induction h with
  | start => exact ⟨hlive, fun _ => ⟨hset, rfl⟩, fun hc => absurd hcls hc⟩
  | next _ hspares hstep ih => exact ⟨step_isLive hstep ih.1, ih.2.step ih.1 hspares hstep⟩

/-- After any number of boosts the task has the parameters it had before
exactly when it never left the class, or had the defaults of the moment it
came back. -/
theorem boosts_keep_params_iff {E : Env} {p : TaskId} {s s' : Sys} {r : Option Nat}
    (h : Boosts E p s r s') (hlive : s.isLive p = true) (hcls : (s.task p).schedClass = .hvf)
    (hset : (s.task p).parsSet = true) (hcls' : (s'.task p).schedClass = .hvf) :
    ((s'.task p).params = (s.task p).params ∧ (s'.task p).parsSet = (s.task p).parsSet) ↔
      ∀ i ∈ r, (s.task p).params = defaultParams (E.clock i) := by
  obtain ⟨hflag, hpar⟩ := (h.boosted hlive hcls hset).2.inside hcls'
  rw [hpar, hflag, hset]
  cases r with
  | none => simp
  | some i =>
    constructor
    · rintro ⟨heq, -⟩ j hj
      injection hj with hj
      rw [← hj]
      exact heq.symm
    · intro hall
      exact ⟨(hall i rfl).symm, rfl⟩

/-- The donor of the boosts below: a task of the real-time class. -/
def fifoAttr : SchedAttr := ⟨1, 0, 0, 50⟩

/-- The first task in the class, next to a real-time task that may wait for
it. -/
def underRtMutex : List Act :=
  startFirst ++ [.fork 0, .setscheduler permissive (.task 1) fifoAttr true true,
    .setscheduler permissive (.task 0) (plainAttr 8) true true]

/-- A boost and its end, from a state. -/
def boostOnce (E : Env) (s : Sys) : Option (Sys × Sys) :=
  (step E s (.setprio (.task 0) (some (.task 1)))).bind fun s₁ =>
    (step E s₁ (.setprio (.task 0) none)).map fun s' => (s₁, s')

theorem boostOnce_steps {r : Sys × Sys} (h : boostOnce E s = some r) :
    step E s (.setprio (.task 0) (some (.task 1))) = some r.1 ∧
      step E r.1 (.setprio (.task 0) none) = some r.2 := by
  obtain ⟨s₁, h₁, h₂⟩ := Option.bind_eq_some_iff.mp h
  obtain ⟨s₂, h₃, hr⟩ := Option.map_eq_some_iff.mp h₂
  subst hr
  exact ⟨h₁, h₃⟩

/-- A task that has set the defaults itself has them after a boost as well. -/
theorem boosts_keep_default_params :
    ∃ s r s', (Reached sampleEnv (fun _ _ => True) s ∧ Boosts sampleEnv (.task 0) s r s') ∧
      (s.task (.task 0)).params = ⟨1004, 1006, 1000⟩ ∧
      (((s'.task (.task 0)).params = (s.task (.task 0)).params ∧
        (s'.task (.task 0)).parsSet = (s.task (.task 0)).parsSet) ↔
        ∀ i ∈ r, (s.task (.task 0)).params = defaultParams (sampleEnv.clock i)) := by
  obtain ⟨s, hs, hf⟩ := Reached.of_eval
    (b := ((true, .hvf, true), (⟨1004, 1006, 1000⟩ : Params), some SchedClass.hvf)) sampleEnv
    (fun s => ((s.isLive (.task 0), (s.task (.task 0)).schedClass, (s.task (.task 0)).parsSet),
      (s.task (.task 0)).params,
      (boostOnce sampleEnv s).map fun r => (r.2.task (.task 0)).schedClass))
    (underRtMutex ++ [.setParams 0 1004 1006 1000])
    (by decide +kernel)
  injection hf with hbefore hrest
  injection hbefore with hlive hbefore
  injection hbefore with hcls hset
  injection hrest with hpar hafter
  obtain ⟨⟨s₁, s'⟩, hboost, hcls'⟩ := Option.map_eq_some_iff.mp hafter
  obtain ⟨h₁, h₂⟩ := boostOnce_steps hboost
  have hr := Boosts.next (p := .task 0) (a := .setprio (.task 0) none)
    (.next (a := .setprio (.task 0) (some (.task 1))) .start trivial h₁) trivial h₂
  exact ⟨s, _, s', ⟨hs, hr⟩, hpar, boosts_keep_params_iff hr hlive hcls hset hcls'⟩

/-- One boost, and the accepted parameters are gone. -/
theorem boost_loses_params :
    paramsAccepted (sampleEnv.clock 0) 1500 2000 70 = true ∧
    ∃ s s₁ s', Reached sampleEnv (fun _ _ => True) s ∧
      ((s.task (.task 0)).schedClass = .hvf ∧ (s.task (.task 0)).params = ⟨1500, 2000, 70⟩) ∧
      (step sampleEnv s (.setprio (.task 0) (some (.task 1))) = some s₁ ∧
        (s₁.task (.task 0)).schedClass = .rt) ∧
      step sampleEnv s₁ (.setprio (.task 0) none) = some s' ∧
      (s'.task (.task 0)).schedClass = .hvf ∧ (s'.task (.task 0)).params = ⟨1004, 1006, 1000⟩ := by
  refine ⟨by decide, ?_⟩
  obtain ⟨s, hs, hf⟩ := Reached.of_eval
    (b := ((.hvf, ⟨1500, 2000, 70⟩),
      some (SchedClass.rt, SchedClass.hvf, (⟨1004, 1006, 1000⟩ : Params)))) sampleEnv
    (fun s => (((s.task (.task 0)).schedClass, (s.task (.task 0)).params),
      (boostOnce sampleEnv s).map fun r => ((r.1.task (.task 0)).schedClass,
        (r.2.task (.task 0)).schedClass, (r.2.task (.task 0)).params)))
    (underRtMutex ++ [.setParams 0 1500 2000 70])
    (by decide +kernel)
  injection hf with hbefore hafter
  injection hbefore with hcls hpar
  obtain ⟨⟨s₁, s'⟩, hboost, hr⟩ := Option.map_eq_some_iff.mp hafter
  injection hr with hcls₁ hr
  injection hr with hcls' hpar'
  obtain ⟨h₁, h₂⟩ := boostOnce_steps hboost
  exact ⟨s, s₁, s', hs, ⟨hcls, hpar⟩, ⟨h₁, hcls₁⟩, h₂, hcls', hpar'⟩

end HvfSched
