import HvfSched.Queue.Put
import HvfSched.Runs.Order

/-!
# The pick against the outgoing task

`__pick_next_task` asks the HVF class for a task before the running one is
put back. The class looks at the tree alone, where the running task is not.
Two things follow. If the tree is empty the answer is the idle task, also
when the running HVF task could go on. And the task that is picked is the
maximum of the tree, which says nothing about the running task: put back
afterwards, it may have the larger value.

Over a sorted tree this is all that can go wrong. `PickKept` is the exact
condition, on the state in which the pick is made: the fast path of the fair
class is not taken, the tree has a maximum, that is an HVF task, and the
running task does not come back above it.
-/

namespace HvfSched

open Lib Sys

variable {E : Env} {s s' s₁ : Sys} {c : Cpu} {p q m prev next : TaskId} {picks : Picks}

/-! ## The pick -/

/-- The state in which `__schedule` makes the pick: the running task has been
blocked if it was to block. -/
inductive AtPick (E : Env) (s : Sys) (c : Cpu) (s₁ : Sys) : Prop
  | schedule (mode : SchedMode) (sig : Signals) (h : leavePrev E c mode sig s = .ok s₁)
  | doTaskDead (hlive : s.isLive (s.rq c).curr = true)
      (h : leavePrev E c .smNone ⟨false, false⟩ (setTaskState (s.rq c).curr taskDead s) = .ok s₁)

theorem AtPick.ready (h : AtPick E s c s₁) (hb : Base s) (ho : Sorted s) : Base s₁ ∧ Sorted s₁ := by
  cases h with
  | schedule mode sig h => exact ⟨(midSchedule hb rfl h).base, ho.leavePrev h⟩
  | doTaskDead hlive h =>
    have ho₀ : Sorted (setTaskState (s.rq c).curr taskDead s) := ho.setTask rfl
    exact ⟨(midSchedule (hb.setTaskState hlive taskDead) rfl h).base, ho₀.leavePrev h⟩

/-- Some HVF task could run: one in the tree, or the running one. -/
def HvfRunnable (s : Sys) (c : Cpu) : Prop :=
  s.queue c ≠ [] ∨
    ((s.task (s.rq c).curr).schedClass = .hvf ∧ (s.task (s.rq c).curr).isRunning = true)

/-- The pick returns an HVF task whose value is at least that of every HVF
task left in the tree. -/
def PicksMaximal (E : Env) (s : Sys) (c : Cpu) (picks : Picks) : Prop :=
  ∃ next s', pickNextTask E c (s.rq c).curr picks s = .ok (next, s') ∧
    next ≠ .idle c ∧ (s'.task next).schedClass = .hvf ∧
    ∀ q ∈ s'.queue c, (s'.task q).schedClass = .hvf → s'.value q ≤ s'.value next

/-- The fair class is asked first, and answers that there is nothing. -/
def FastIdle (s : Sys) (c : Cpu) (picks : Picks) : Prop :=
  (schedClassAbove (s.task (s.rq c).curr).schedClass .fair = false ∧
    (s.rq c).nrRunning = (s.rq c).cfsNrQueued) ∧ picks.fast = .none

/-- The running task does not come back above `m`. -/
def StaysBelow (E : Env) (s : Sys) (c : Cpu) (m : TaskId) : Prop :=
  m ≠ (s.rq c).curr → (s.task (s.rq c).curr).schedClass = .hvf →
    (s.task (s.rq c).curr).isRunning = true → requeueValue E s (s.rq c).curr ≤ s.value m

def PickKept (E : Env) (s : Sys) (c : Cpu) (picks : Picks) : Prop :=
  ¬ FastIdle s c picks ∧
  ∃ m ∈ (s.rq c).hvf.maxValueEntity, (s.task m).schedClass = .hvf ∧ StaysBelow E s c m

instance (s : Sys) (c : Cpu) (picks : Picks) : Decidable (FastIdle s c picks) :=
  inferInstanceAs (Decidable (_ ∧ _))

instance (E : Env) (s : Sys) (c : Cpu) (m : TaskId) : Decidable (StaysBelow E s c m) :=
  inferInstanceAs (Decidable (_ → _ → _ → _))

instance (E : Env) (s : Sys) (c : Cpu) (picks : Picks) : Decidable (PickKept E s c picks) :=
  inferInstanceAs (Decidable (_ ∧ ∃ m ∈ (s.rq c).hvf.maxValueEntity, _ ∧ _))

instance (s : Sys) (c : Cpu) : Decidable (HvfRunnable s c) := inferInstanceAs (Decidable (_ ∨ _))

/-- Which task is picked when the classes above HVF have nothing to run. -/
theorem pickNext_above_none (habove : picks.above = none) (hfast : ∀ p, picks.fast ≠ .task p) :
    pickNext s c (s.rq c).curr picks
      = if FastIdle s c picks then .ok (.idle c) else pickTaskHvf s c := by
  have hclasses : pickFromClasses s c picks = pickTaskHvf s c := by
    unfold pickFromClasses
    rw [habove]
  unfold pickNext
  rw [hclasses]
  split
  next hpath =>
    cases hf : picks.fast with
    | retry =>
      rw [if_neg]
      rintro ⟨-, hnone⟩
      rw [hf] at hnone
      cases hnone
    | none => rw [if_pos ⟨hpath, hf⟩]
    | task p => exact absurd hf (hfast p)
  next hpath => rw [if_neg (fun h => hpath h.1)]

/-- The class of a task is the same after the switch. -/
theorem putPrevSetNextTask_schedClass (h : putPrevSetNextTask E c prev next s = .ok s') (q : TaskId) :
    (s'.task q).schedClass = (s.task q).schedClass := by
  have hl := congrArg (fun l => (l.task q).schedClass) (links_putPrevSetNextTask h)
  refine hl.trans ?_
  unfold Links.putSetNext
  split
  next => rfl
  next =>
    exact ((Links.setNext_frame c next _).schedClass q).trans
      ((Links.put_frame c prev s.links).schedClass q)

/-- The state after the running task was put and the maximum of the tree was
set: what is left in the tree, and under which values. -/
theorem putPrevSetNextTask_max (hb : Base s) (ho : Ordered s c) (hne : m ≠ (s.rq c).curr)
    (hmax : (s.rq c).hvf.maxValueEntity = some m) (hcls : (s.task m).schedClass = .hvf) :
    ∃ s', putPrevSetNextTask E c (s.rq c).curr m s = .ok s' ∧
      ((∀ q ∈ s'.queue c, (s'.task q).schedClass = .hvf → s'.value q ≤ s'.value m) ↔
        StaysBelow E s c m) := by
  obtain ⟨hmem, hall⟩ := ho.max_mem hmax
  obtain ⟨hflag, -⟩ := (hb.trees.mem c m).mp hmem
  have hcpu : (s.task (s.rq c).curr).schedClass = .hvf → (s.task (s.rq c).curr).cpu = c :=
    fun h => (hb.running_hvf rfl h).2
  have ht := hb.trees.putPrevTask (E := E) hcpu
  have htask : (putPrevTask E c (s.rq c).curr s).task m = s.task m :=
    putPrevTask_task_ne hne
  -- whichever way the running task is put, `m` is still in the tree
  have hstill : m ∈ (putPrevTask E c (s.rq c).curr s).queue c := by
    refine (ht.mem c m).mpr ?_
    rw [htask]
    exact (hb.trees.mem c m).mp hmem
  obtain ⟨s', hset, hqueue⟩ := setNextTask_of_mem (E := E) (by rw [htask]; exact hcls)
    (by rw [htask]; exact hflag) hstill (ht.nodup c)
  have hput : putPrevSetNextTask E c (s.rq c).curr m s = .ok s' := by
    rw [putPrevSetNextTask, if_neg hne]
    exact hset
  refine ⟨s', hput, ?_⟩
  have hval := setNextTask_value hset
  have hclass := putPrevSetNextTask_schedClass hput
  by_cases hgo : (s.task (s.rq c).curr).schedClass = .hvf ∧ (s.task (s.rq c).curr).isRunning = true
  · obtain ⟨hmemp, hself, hother⟩ := putPrevTask_requeue (E := E) (c := c) hgo.1 hgo.2
      fun hf => (hb.trees.mem c _).mpr ⟨hf, hcpu hgo.1⟩
    have hvm : s'.value m = s.value m := (hval m).trans (hother m hne)
    constructor
    · intro h _ _ _
      have hq : (s.rq c).curr ∈ s'.queue c :=
        (hqueue _).mpr ⟨fun e => hne e.symm, (hmemp _).mpr (Or.inl rfl)⟩
      have hle := h _ hq ((hclass _).trans hgo.1)
      rw [hval, hself, hvm] at hle
      exact hle
    · intro h q hq hqcls
      obtain ⟨hqm, hqput⟩ := (hqueue q).mp hq
      rw [hvm, hval]
      by_cases hprev : q = (s.rq c).curr
      · rw [hprev, hself]
        exact h hne hgo.1 hgo.2
      · rw [hother q hprev]
        exact hall q (((hmemp q).mp hqput).resolve_left hprev)
  · obtain ⟨hrq, hsame⟩ := putPrevTask_quiet (E := E) (c := c) hgo
    constructor
    · intro _ _ h₁ h₂
      exact absurd ⟨h₁, h₂⟩ hgo
    · intro _ q hq _
      obtain ⟨-, hqput⟩ := (hqueue q).mp hq
      rw [hval, hval, hsame, hsame]
      refine hall q ?_
      rw [Sys.queue, hrq] at hqput
      exact hqput

theorem pickTaskHvf_cases (h : pickTaskHvf s c = .ok p) :
    p = .idle c ∨ (s.rq c).hvf.maxValueEntity = some p := by
  unfold pickTaskHvf at h
  split at h
  next =>
    injection h with h
    exact Or.inl h.symm
  next =>
    cases hm : (s.rq c).hvf.maxValueEntity with
    | none =>
      rw [hm] at h
      cases h
    | some m =>
      rw [hm] at h
      injection h with h
      rw [h]
      exact Or.inr rfl

/-- Over a sorted tree the condition is exact. -/
theorem picksMaximal_iff (hb : Base s) (ho : Ordered s c) (habove : picks.above = none)
    (hfast : ∀ p, picks.fast ≠ .task p) : PicksMaximal E s c picks ↔ PickKept E s c picks := by
  have hpick := pickNext_above_none (s := s) (c := c) habove hfast
  constructor
  · rintro ⟨next, s', hnext, hidle, hcls, hall⟩
    unfold pickNextTask at hnext
    obtain ⟨next', h₁, h₂⟩ := bind_ok.mp hnext
    obtain ⟨s'', h₃, h₄⟩ := bind_ok.mp h₂
    injection h₄ with h₄
    injection h₄ with hn hs
    subst hn hs
    rw [hpick] at h₁
    split at h₁
    next =>
      injection h₁ with h₁
      exact absurd h₁.symm hidle
    next hslow =>
      rcases pickTaskHvf_cases h₁ with hi | hmax
      · exact absurd hi hidle
      · have hcls₀ := (putPrevSetNextTask_schedClass h₃ next').symm.trans hcls
        refine ⟨hslow, next', hmax, hcls₀, ?_⟩
        intro hne
        obtain ⟨s₂, hput, hiff⟩ := putPrevSetNextTask_max (E := E) hb ho hne hmax hcls₀
        injection h₃.symm.trans hput with hs
        rw [← hs] at hiff
        exact hiff.mp hall hne
  · rintro ⟨hslow, m, hmax, hcls, hbelow⟩
    have hidle : m ≠ .idle c := by
      intro hi
      have hclass : (s.task (.idle c)).schedClass = .idle := (hb.sound.idle c).1
      rw [hi, hclass] at hcls
      cases hcls
    have hmem := (ho.max_mem hmax).1
    obtain ⟨m', hpick', hmax'⟩ := ho.pickTaskHvf (List.ne_nil_of_mem hmem)
    injection hmax'.symm.trans hmax with hm
    rw [hm] at hpick'
    rw [if_neg hslow, hpick'] at hpick
    -- if the running task is picked again nothing is put back
    have hset : ∃ s', putPrevSetNextTask E c (s.rq c).curr m s = .ok s' ∧
        ∀ q ∈ s'.queue c, (s'.task q).schedClass = .hvf → s'.value q ≤ s'.value m := by
      by_cases hne : m = (s.rq c).curr
      · refine ⟨s, ?_, fun q hq _ => (ho.max_mem hmax).2 q hq⟩
        rw [putPrevSetNextTask, if_pos hne]
      · obtain ⟨s', hput, hiff⟩ := putPrevSetNextTask_max (E := E) hb ho hne hmax hcls
        exact ⟨s', hput, hiff.mpr hbelow⟩
    obtain ⟨s', hput, hall⟩ := hset
    refine ⟨m, s', ?_, hidle, (putPrevSetNextTask_schedClass hput m).trans hcls, hall⟩
    rw [pickNextTask, hpick]
    show putPrevSetNextTask E c (s.rq c).curr m s >>= _ = _
    rw [hput]
    rfl

theorem pick_is_maximal_hvf_iff (E : Env) (s : Sys) (h : Reached E (keysKept E) s) (c : Cpu)
    (s₁ : Sys) (hpick : AtPick E s c s₁) (picks : Picks) (habove : picks.above = none)
    (hfast : ∀ p, picks.fast ≠ .task p) :
    (HvfRunnable s₁ c → PicksMaximal E s₁ c picks) ↔
      (HvfRunnable s₁ c → PickKept E s₁ c picks) := by
  obtain ⟨hb, -, ho⟩ := reached_sorted (fun _ _ hk => hk) h
  obtain ⟨hb₁, ho₁⟩ := hpick.ready hb ho
  rw [picksMaximal_iff hb₁ (ho₁ c) habove hfast]

/-- A preemption makes the pick in the state it finds. -/
theorem atPick_preempt (E : Env) (s : Sys) (c : Cpu) : AtPick E s c s :=
  .schedule .smPreempt ⟨false, false⟩ rfl

/-- The running task has used up its slice, and two others wait. -/
theorem pick_is_maximal_hvf_iff_after_slice :
    ∃ s, Reached wallEnv (keysKept wallEnv) s ∧
      HvfRunnable s 0 ∧ PicksMaximal wallEnv s 0 pickNone := by
  obtain ⟨s, hs, hf⟩ := Reached.of_check (b := (true, true)) wallEnv (keysKept wallEnv)
    (fun s => (decide (HvfRunnable s 0), decide (PickKept wallEnv s 0 pickNone)))
    (startFirst ++ [.fork 0, .wakeNew 0 (.task 1) 0, .fork 0, .wakeNew 0 (.task 2) 0, .fork 0,
      .wakeNew 0 (.task 3) 0,
      .setscheduler permissive (.task 1) (plainAttr 8) true true,
      .setscheduler permissive (.task 2) (plainAttr 8) true true,
      .setscheduler permissive (.task 3) (plainAttr 8) true true,
      .setState 0 taskInterruptible, .schedule 0 .smNone ⟨false, false⟩ pickNone, .tick 0])
    (by decide +kernel)
  injection hf with hrun hkept
  have hrun := of_decide_eq_true hrun
  have hkept := of_decide_eq_true hkept
  have hiff := pick_is_maximal_hvf_iff wallEnv s hs 0 s (atPick_preempt wallEnv s 0) pickNone rfl
    (fun p h => by cases h)
  exact ⟨s, hs, hrun, hiff.mpr (fun _ => hkept) hrun⟩

/-- The running HVF task is the only one: the idle task is picked. And a task
that has waited with a small value is picked while the running task, which has
time left, goes back into the tree with a larger one. -/
theorem pick_ignores_the_running_task :
    (∃ s, Reached sampleEnv (fun _ _ => True) s ∧ HvfRunnable s 0 ∧ AtPick sampleEnv s 0 s ∧
      ∃ s', pickNextTask sampleEnv 0 (s.rq 0).curr pickNone s = .ok (.idle 0, s')) ∧
    ∃ s, Reached sampleEnv (fun _ _ => True) s ∧ HvfRunnable s 0 ∧ AtPick sampleEnv s 0 s ∧
      ∃ s', pickNextTask sampleEnv 0 (s.rq 0).curr pickNone s = .ok (.task 1, s') ∧
        .task 2 ∈ s'.queue 0 ∧ (s'.task (.task 2)).schedClass = .hvf ∧
        s'.value (.task 1) < s'.value (.task 2) := by
  constructor
  · obtain ⟨s, hs, hf⟩ := Reached.of_eval (b := (true, some (TaskId.idle 0))) sampleEnv
      (fun s => (decide (HvfRunnable s 0),
        (pickNextTask sampleEnv 0 (s.rq 0).curr pickNone s).toOption.map Prod.fst))
      (startFirst ++ [.fork 0, .wakeNew 0 (.task 1) 0,
        .setscheduler permissive (.task 1) (plainAttr 8) true true,
        .setState 0 taskInterruptible, .schedule 0 .smNone ⟨false, false⟩ pickNone])
      (by decide +kernel)
    injection hf with hrun hpick
    obtain ⟨⟨next, s'⟩, hr, hn⟩ := toOption_map_eq_some hpick
    have hn : next = .idle 0 := hn
    rw [hn] at hr
    exact ⟨s, hs, of_decide_eq_true hrun, atPick_preempt sampleEnv s 0, s', hr⟩
  · obtain ⟨s, hs, hf⟩ := Reached.of_eval (b := (true, some (TaskId.task 1, true))) sampleEnv
      (fun s => (decide (HvfRunnable s 0),
        (pickNextTask sampleEnv 0 (s.rq 0).curr pickNone s).toOption.map fun r =>
          (r.1, decide (TaskId.task 2 ∈ r.2.queue 0 ∧ (r.2.task (.task 2)).schedClass = .hvf ∧
            r.2.value (.task 1) < r.2.value (.task 2)))))
      (startFirst ++ [.fork 0, .wakeNew 0 (.task 1) 0, .fork 0, .wakeNew 0 (.task 2) 0,
        .setscheduler permissive (.task 1) (plainAttr 8) true true,
        .setscheduler permissive (.task 2) (plainAttr 8) true true,
        .setState 0 taskInterruptible, .schedule 0 .smNone ⟨false, false⟩ pickNone, .tick 0,
        .schedule 0 .smPreempt ⟨false, false⟩ pickNone])
      (by decide +kernel)
    injection hf with hrun hpick
    obtain ⟨⟨next, s'⟩, hr, hn⟩ := toOption_map_eq_some hpick
    injection hn with hn hleft
    have hn : next = .task 1 := hn
    rw [hn] at hr
    exact ⟨s, hs, of_decide_eq_true hrun, atPick_preempt sampleEnv s 0, s', hr,
      of_decide_eq_true hleft⟩

end HvfSched
