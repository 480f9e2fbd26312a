import HvfSched.Links.Steps

/-!
# Class and policy agree

The class of a task is derived from its policy and priority in two places:
`__setscheduler_class`, used by `__sched_setscheduler` and `rt_mutex_setprio`,
and `sched_fork`, which looks at the priority alone. The two agree as long as
no task with the policy `SCHED_HVF` forks. Its child has the policy and the
fair class, and stays there: `__sched_setscheduler` returns at once when the
policy is the one the task has.

`Sys.policies` is the view of the state this is about. Nothing but a fork and
the two calls changes it.
-/

namespace HvfSched

open Lib Sys

variable {E : Env} {s s' : Sys} {a : Act} {c : Cpu} {p : TaskId}

/-- The attributes of a task the choice of its class depends on. -/
structure TaskAttrs where
  prio : Int
  staticPrio : Int
  normalPrio : Int
  schedClass : SchedClass
  policy : Policy
  piTopTask : Option TaskId

/-- The attributes of a task. -/
def TaskStruct.attrs (t : TaskStruct) : TaskAttrs where
  prio := t.prio
  staticPrio := t.staticPrio
  normalPrio := t.normalPrio
  schedClass := t.schedClass
  policy := t.policy
  piTopTask := t.piTopTask

/-- The attributes of all tasks, and the pids handed out. -/
structure Policies where
  task : TaskId → TaskAttrs
  nextPid : Nat

/-- The attributes as a view of the state. -/
def Sys.policies (s : Sys) : Policies where
  task p := (s.task p).attrs
  nextPid := s.nextPid

/-! ## What leaves the attributes alone -/

/-- A write to a task that keeps its attributes. -/
theorem policies_setTask {t : TaskStruct} (h : t.attrs = (s.task p).attrs) :
    (s.setTask p t).policies = s.policies := by
  have htask : (fun q => ((s.setTask p t).task q).attrs) = fun q => (s.task q).attrs := by
    funext q
    rw [setTask_task]
    split
    next hq => rw [hq, h]
    next => rfl
  unfold Sys.policies
  rw [htask]
  rfl

@[simp] theorem policies_setRq (c : Cpu) (r : Rq) (s : Sys) : (s.setRq c r).policies = s.policies :=
  rfl

@[simp] theorem policies_tickClock (s : Sys) : s.tickClock.policies = s.policies := rfl

@[simp] theorem policies_setHvf (c : Cpu) (h : HvfRq) (s : Sys) :
    (s.setHvf c h).policies = s.policies := rfl

@[simp] theorem policies_addNrRunning (c : Cpu) (n : Int) (s : Sys) :
    (s.addNrRunning c n).policies = s.policies := rfl

@[simp] theorem policies_setEntity (p : TaskId) (e : SchedHvfEntity) (s : Sys) :
    (s.setEntity p e).policies = s.policies := policies_setTask rfl

@[simp] theorem policies_setOnRq (p : TaskId) (v : OnRq) (s : Sys) :
    (setOnRq p v s).policies = s.policies := policies_setTask rfl

@[simp] theorem policies_setOnCpu (p : TaskId) (v : Bool) (s : Sys) :
    (setOnCpu p v s).policies = s.policies := policies_setTask rfl

@[simp] theorem policies_setTaskState (p : TaskId) (v : Mask) (s : Sys) :
    (setTaskState p v s).policies = s.policies := policies_setTask rfl

@[simp] theorem policies_setTaskCpu (p : TaskId) (c : Cpu) (s : Sys) :
    (setTaskCpu p c s).policies = s.policies := policies_setTask rfl

@[simp] theorem policies_reschedCurr (c : Cpu) (s : Sys) :
    (reschedCurr c s).policies = s.policies := rfl

/-- The penalty writes the value. -/
theorem penaltyIfExceeded_attrs (t : TaskStruct) : (penaltyIfExceeded t).attrs = t.attrs := by
  unfold penaltyIfExceeded
  split
  next => rfl
  next => rfl

/-- `enqueue_hvf_entity` writes the value and the flag of the entity. -/
@[simp] theorem policies_enqueueHvfEntity (E : Env) (c : Cpu) (p : TaskId) (s : Sys) :
    (enqueueHvfEntity E c p s).policies = s.policies := by
  unfold enqueueHvfEntity
  dsimp only
  rw [policies_setHvf, policies_setEntity, policies_setTask (penaltyIfExceeded_attrs _)]

theorem policies_dequeueHvfEntity (h : dequeueHvfEntity E c p s = .ok s') :
    s'.policies = s.policies := by
  unfold dequeueHvfEntity at h
  dsimp only at h
  split at h
  next =>
    injection h with h
    rw [← h, policies_setHvf, policies_setEntity]
  next => cases h

theorem policies_dequeueIfOnRq (h : dequeueIfOnRq E c p s = .ok s') :
    s'.policies = s.policies := by
  rcases dequeueIfOnRq_cases h with ⟨-, hd⟩ | ⟨-, hs⟩
  · exact policies_dequeueHvfEntity hd
  · rw [hs]

/-- `compute_init_sched_value` writes the entity. -/
theorem computeInitSchedValue_attrs {t t' : TaskStruct}
    (h : computeInitSchedValue wrapv t = .ok t') : t'.attrs = t.attrs := by
  unfold computeInitSchedValue at h
  obtain ⟨v, _, hv⟩ := bind_ok.mp h
  injection hv with hv
  rw [← hv]
  rfl

/-- `give_default_hvf_values` writes the parameters and the entity. -/
theorem policies_giveDefaults (h : giveDefaults E p s = .ok s') : s'.policies = s.policies := by
  rcases giveDefaults_cases h with ⟨-, hs⟩ | ⟨-, t, hd, hs⟩
  · rw [hs]
  · rw [hs, policies_setTask, policies_tickClock]
    unfold giveDefaultHvfValues at hd
    split at hd
    next =>
      injection hd with hd
      rw [← hd]
      rfl
    next =>
      have hattrs := computeInitSchedValue_attrs hd
      exact hattrs

theorem policies_computeInit (h : computeInit p s = .ok s') : s'.policies = s.policies := by
  obtain ⟨t, ht, hs⟩ := computeInit_cases h
  rw [hs]
  exact policies_setTask (computeInitSchedValue_attrs ht)

/-- What `enqueue_task_hvf` does before the link. -/
theorem policies_refreshValue {flags : Mask} (h : refreshValue E p flags s = .ok s') :
    s'.policies = s.policies := by
  rcases refreshValue_cases h with ⟨-, s₁, h₁, h₂⟩ | ⟨-, h₁ | hs⟩
  · rw [policies_computeInit h₂, policies_setEntity, policies_tickClock, policies_giveDefaults h₁]
  · exact policies_computeInit h₁
  · rw [hs]

/-- `enqueue_task`, for every class. -/
theorem policies_enqueueTask {flags : Mask} (h : enqueueTask E c p flags s = .ok s') :
    s'.policies = s.policies := by
  rcases enqueueTask_cases h with ⟨-, he⟩ | ⟨-, hs⟩
  · obtain ⟨s₁, h₁, h₂⟩ := enqueueTaskHvf_cases he
    rw [← policies_refreshValue h₁]
    rcases h₂ with ⟨-, hs⟩ | ⟨-, hs⟩
    · rw [hs, policies_addNrRunning, policies_enqueueHvfEntity]
    · rw [hs]
  · rw [hs, otherEnqueue, policies_setRq]

/-- `dequeue_task`, for every class. -/
theorem policies_dequeueTask {r : Bool × Sys} (h : dequeueTask E c p s = .ok r) :
    r.2.policies = s.policies := by
  rcases dequeueTask_cases h with ⟨-, hd⟩ | ⟨-, hr⟩
  · rcases dequeueTaskHvf_cases hd with ⟨-, s₁, h₁, hr⟩ | ⟨-, s₁, h₁, hr⟩ | ⟨-, -, hr⟩
    · rw [hr, policies_addNrRunning, policies_dequeueHvfEntity h₁]
    · rw [hr, policies_setHvf, policies_addNrRunning, policies_dequeueIfOnRq h₁]
    · rw [hr]
  · rw [hr, otherDequeue, policies_setRq]

/-- `put_prev_task`: the charge, the reduction and the link are writes to the
entity. -/
@[simp] theorem policies_putPrevTask (E : Env) (c : Cpu) (p : TaskId) (s : Sys) :
    (putPrevTask E c p s).policies = s.policies := by
  unfold putPrevTask
  split
  next =>
    unfold putPrevTaskHvf putPrevHvfEntity
    dsimp only
    split
    next =>
      rw [policies_setHvf]
      split
      next => rw [policies_setEntity, policies_setEntity, policies_tickClock]
      next =>
        rw [policies_enqueueHvfEntity, policies_setEntity, policies_setEntity, policies_tickClock]
    next => rw [policies_setEntity, policies_tickClock]
  next => rfl

theorem policies_setNextTask (h : setNextTask E c p true s = .ok s') : s'.policies = s.policies := by
  rcases setNextTask_cases h with ⟨-, s₁, h₁, hs⟩ | ⟨-, hs⟩
  · rw [hs, policies_setHvf, policies_setEntity, policies_tickClock, policies_dequeueIfOnRq h₁]
  · rw [hs]

theorem policies_activateTask {flags : Mask} (h : activateTask E c p flags s = .ok s') :
    s'.policies = s.policies := by
  obtain ⟨s₁, h₁, hs⟩ := activateTask_cases h
  rw [hs, policies_setOnRq, policies_enqueueTask h₁]

theorem policies_blockTask (h : blockTask E c p s = .ok s') : s'.policies = s.policies := by
  obtain ⟨b, s₁, h₁, hs⟩ := blockTask_cases h
  have hd : s₁.policies = s.policies := policies_dequeueTask h₁
  rw [hs]
  split
  next => rw [policies_setOnRq, hd]
  next => exact hd

/-- The first part of `__schedule`. -/
theorem policies_leavePrev {mode : SchedMode} {sig : Signals}
    (h : leavePrev E c mode sig s = .ok s') : s'.policies = s.policies := by
  rcases leavePrev_cases h with ⟨-, ⟨-, hs⟩ | ⟨-, hb⟩⟩ | ⟨-, hs⟩
  · rw [hs, policies_setTaskState]
  · exact policies_blockTask hb
  · rw [hs]

theorem policies_putPrevSetNextTask {prev next : TaskId}
    (h : putPrevSetNextTask E c prev next s = .ok s') : s'.policies = s.policies := by
  rcases putPrevSetNextTask_cases h with ⟨-, hs⟩ | ⟨-, hset⟩
  · rw [hs]
  · rw [policies_setNextTask hset, policies_putPrevTask]

@[simp] theorem policies_switchTo (c : Cpu) (prev next : TaskId) (s : Sys) :
    (switchTo c prev next s).policies = s.policies := by
  unfold switchTo
  split
  next => rfl
  next =>
    dsimp only
    rw [policies_setRq, policies_setOnCpu, policies_setOnCpu]

/-- `__schedule` as a whole. -/
theorem policies_schedule {mode : SchedMode} {sig : Signals} {picks : Picks}
    (h : schedule E c mode sig picks s = .ok s') : s'.policies = s.policies := by
  rcases schedule_cases h with ⟨-, hs⟩ | ⟨-, s₁, next, s₂, h₁, -, h₂, hs⟩
  · rw [hs, policies_setRq]
  · rw [hs, policies_switchTo, policies_putPrevSetNextTask h₂, policies_leavePrev h₁]

theorem policies_finishTaskSwitch (h : finishTaskSwitch E c p s = .ok s') :
    s'.policies = s.policies := by
  rcases finishTaskSwitch_cases h with ⟨-, s₁, h₁, hs⟩ | ⟨-, hs⟩
  · rw [hs, policies_setHvf, policies_dequeueIfOnRq h₁, policies_tickClock, policies_setRq]
  · rw [hs, policies_setRq]

@[simp] theorem policies_schedTick (E : Env) (c : Cpu) (s : Sys) :
    (schedTick E c s).policies = s.policies := by
  unfold schedTick taskTickHvf
  dsimp only
  split
  next =>
    split
    next => rw [policies_reschedCurr, policies_setEntity]
    next => rw [policies_setEntity]
  next => rfl

/-- `wakeup_preempt` may ask for a reschedule, and nothing else. -/
@[simp] theorem policies_wakeupPreempt (thisCpu c : Cpu) (p : TaskId) (s : Sys) :
    (wakeupPreempt thisCpu c p s).policies = s.policies := by
  have hpid := congrArg Links.nextPid (links_wakeupPreempt thisCpu c p s)
  have hpid' : (wakeupPreempt thisCpu c p s).nextPid = s.nextPid := hpid
  unfold Sys.policies
  rw [wakeupPreempt_task, hpid']

/-- `try_to_wake_up`, on each of its paths. -/
theorem policies_tryToWakeUp {thisCpu dest : Cpu} {mask : Mask}
    (h : tryToWakeUp E thisCpu p mask dest s = .ok s') : s'.policies = s.policies := by
  unfold tryToWakeUp at h
  split at h
  next =>
    injection h with h
    rw [h]
  next =>
    split at h
    next =>
      injection h with h
      rw [← h, policies_setTaskState]
    next =>
      split at h
      next =>
        injection h with h
        rw [← h, ttwuRunnable, policies_setTaskState]
        split
        next => rfl
        next => rw [policies_wakeupPreempt]
      next =>
        unfold ttwuDoActivate at h
        obtain ⟨s₁, h₁, h₂⟩ := bind_ok.mp h
        injection h₂ with h₂
        rw [← h₂, policies_setTaskState, policies_wakeupPreempt, policies_activateTask h₁,
          policies_setTaskCpu, policies_setTaskState]

theorem policies_wakeUpNewTask {thisCpu dest : Cpu} (h : wakeUpNewTask E thisCpu p dest s = .ok s') :
    s'.policies = s.policies := by
  unfold wakeUpNewTask at h
  obtain ⟨s₁, h₁, h₂⟩ := bind_ok.mp h
  injection h₂ with h₂
  rw [← h₂, policies_wakeupPreempt, policies_activateTask h₁, policies_setTaskCpu,
    policies_setTaskState]

/-- The first half of a class change, before the attributes are written. -/
theorem policies_takeOff (h : takeOff E p s = .ok s') : s'.policies = s.policies := by
  obtain ⟨s₁, h₁, hs⟩ := takeOff_cases h
  have hd : s₁.policies = s.policies := by
    rcases h₁ with ⟨-, b, hr⟩ | ⟨-, h₁⟩
    · exact policies_dequeueTask hr
    · rw [h₁]
  rw [hs]
  split
  next => rw [policies_putPrevTask, hd]
  next => exact hd

/-- The second half, after they are written. -/
theorem policies_putBack {queued running : Bool} {flags : Mask}
    (h : putBack E p queued running flags s = .ok s') : s'.policies = s.policies := by
  rcases putBack_cases h with ⟨-, he⟩ | ⟨-, hs⟩
  · exact policies_enqueueTask he
  · rw [hs]

theorem policies_checkClassChanging {cls : SchedClass}
    (h : checkClassChanging E p cls s = .ok s') : s'.policies = s.policies := by
  rcases checkClassChanging_cases h with ⟨-, hg⟩ | ⟨-, hs⟩
  · exact policies_giveDefaults hg
  · rw [hs]

/-- `switched_from_hvf` clears the parameters. -/
theorem policies_checkClassChanged {cls : SchedClass} {prio : Int}
    (h : checkClassChanged p cls prio s = .ok s') : s'.policies = s.policies := by
  rcases checkClassChanged_cases h with ⟨-, hs⟩ | ⟨-, hs⟩
  · rw [hs]
    refine policies_setTask ?_
    unfold clearHvfValues
    split
    next => rfl
    next => rfl
  · rw [hs]

/-- `sched_move_task` takes the task off and puts it back. -/
theorem policies_schedMoveTask (h : schedMoveTask E p s = .ok s') : s'.policies = s.policies := by
  unfold schedMoveTask at h
  obtain ⟨s₁, h₁, h₂⟩ := bind_ok.mp h
  obtain ⟨s₂, h₃, h₄⟩ := bind_ok.mp h₂
  injection h₄ with h₄
  rw [← h₄]
  split
  next => rw [policies_reschedCurr, policies_putBack h₃, policies_takeOff h₁]
  next => rw [policies_putBack h₃, policies_takeOff h₁]

/-! ## What a task keeps -/

/-- The class is the one `__setscheduler_class` gives, the nice value is in
range, and a task of a policy without real-time priority that is not boosted
has a priority that says so. -/
structure AttrsOk (t : TaskAttrs) : Prop where
  cls : t.schedClass = setschedulerClass t.policy t.prio
  static : maxRtPrio ≤ t.staticPrio
  normal : dlPolicy t.policy = false → rtPolicy t.policy = false → maxRtPrio ≤ t.normalPrio
  prio : dlPolicy t.policy = false → rtPolicy t.policy = false → t.piTopTask = none →
    maxRtPrio ≤ t.prio

/-- The two conversions between nice values and static priorities. -/
theorem niceToPrio_prioToNice (prio : Int) : niceToPrio (prioToNice prio) = prio := by
  unfold niceToPrio prioToNice
  omega

/-- A nice value in range gives no real-time priority. -/
theorem le_niceToPrio {nice : Int} (h : minNice ≤ nice) : maxRtPrio ≤ niceToPrio nice := by
  unfold niceToPrio maxRtPrio defaultPrio
  unfold minNice at h
  omega

/-- `__normal_prio` for a policy without real-time priority. -/
theorem normalPrioOf_plain {policy : Policy} (hdl : dlPolicy policy = false)
    (hrt : rtPolicy policy = false) (rtPriority : Nat) (nice : Int) :
    normalPrioOf policy rtPriority nice = niceToPrio nice := by
  rw [normalPrioOf, if_neg (by rw [hdl]; exact Bool.false_ne_true),
    if_neg (by rw [hrt]; exact Bool.false_ne_true)]

/-- Without a real-time priority, the policy decides. -/
theorem setschedulerClass_plain {policy : Policy} {prio : Int} (h : maxRtPrio ≤ prio) :
    setschedulerClass policy prio = if hvfPolicy policy then .hvf else .fair := by
  have hdl : dlPrio prio = false := by
    unfold dlPrio maxDlPrio
    unfold maxRtPrio at h
    exact decide_eq_false (by omega)
  have hrt : rtPrio prio = false := by
    unfold rtPrio
    rw [decide_eq_false (p := prio < maxRtPrio) (by omega), Bool.and_false]
  rw [setschedulerClass, hdl, hrt]
  rfl

/-- The attributes `__sched_setscheduler` writes depend on the old attributes
alone. -/
theorem setschedulerUpdate_attrs {attr : SchedAttr} {policy : Policy} {resetOnFork : Bool}
    {newprio : Int} {t t' : TaskStruct} (h : t.attrs = t'.attrs) :
    (setschedulerUpdate attr policy resetOnFork newprio t).attrs
      = (setschedulerUpdate attr policy resetOnFork newprio t').attrs := by
  have hstatic : t.staticPrio = t'.staticPrio := congrArg TaskAttrs.staticPrio h
  have hpi : t.piTopTask = t'.piTopTask := congrArg TaskAttrs.piTopTask h
  unfold setschedulerUpdate
  dsimp only
  split
  next => exact h
  next =>
    unfold setschedulerParams TaskStruct.attrs
    dsimp only
    rw [hstatic, hpi]

/-- The attributes after `__sched_setscheduler` changed the task. -/
theorem AttrsOk.setscheduler {attr : SchedAttr} (h : AttrsOk (s.task p).attrs)
    (hnice : minNice ≤ attr.schedNice) (policy : Policy) (resetOnFork pi : Bool) :
    AttrsOk (setschedulerUpdate attr policy resetOnFork
      (setschedulerNewprio s p attr policy pi) (s.task p)).attrs := by
  have hstatic : maxRtPrio ≤ (if fairPolicy policy then niceToPrio attr.schedNice
      else (s.task p).staticPrio) := by
    split
    next => exact le_niceToPrio hnice
    next => exact h.static
  unfold setschedulerUpdate
  dsimp only
  split
  next => exact ⟨h.cls, h.static, h.normal, h.prio⟩
  next =>
    refine ⟨rfl, hstatic, ?_, ?_⟩
    · intro (hdl : dlPolicy policy = false) (hrt : rtPolicy policy = false)
      show maxRtPrio ≤ normalPrioOf policy attr.schedPriority (prioToNice _)
      rw [normalPrioOf_plain hdl hrt, niceToPrio_prioToNice]
      exact hstatic
    · intro (hdl : dlPolicy policy = false) (hrt : rtPolicy policy = false)
        (hnone : (s.task p).piTopTask = none)
      show maxRtPrio ≤ setschedulerNewprio s p attr policy pi
      unfold setschedulerNewprio
      rw [hnone, normalPrioOf_plain hdl hrt]
      dsimp only [rtEffectivePrioOf]
      rw [ite_self]
      exact le_niceToPrio hnice

/-- The attributes after `rt_mutex_setprio`. -/
def boostedTask (s : Sys) (p : TaskId) (piTask : Option TaskId) : TaskStruct :=
  let t := s.task p
  let prio := rtEffectivePrioOf s piTask t.normalPrio
  { t with
    piTopTask := piTask
    prio := prio
    schedClass := setschedulerClass t.policy prio }

/-- The class `rt_mutex_setprio` writes is the one of the new priority, and
without a donor that is `normal_prio`. -/
theorem AttrsOk.setprio {piTask : Option TaskId} (h : AttrsOk (s.task p).attrs) :
    AttrsOk (boostedTask s p piTask).attrs := by
  refine ⟨rfl, h.static, h.normal, ?_⟩
  intro hdl hrt (hnone : piTask = none)
  show maxRtPrio ≤ rtEffectivePrioOf s piTask (s.task p).normalPrio
  rw [hnone]
  exact h.normal hdl hrt

/-- A child of a task with another policy than HVF. -/
theorem AttrsOk.fork {parent t : TaskStruct} (h : AttrsOk parent.attrs) (hpol : parent.policy ≠ .hvf)
    (ht : schedFork parent = some t) (c : Cpu) : AttrsOk (finishChild c t).attrs := by
  unfold schedFork at ht
  dsimp only at ht
  have hrev : ∀ r, r = revertOnFork
      { parent with onRq := .off, state := taskNew, prio := parent.normalPrio } →
      r.policy ≠ .hvf ∧ maxRtPrio ≤ r.staticPrio ∧
      (dlPolicy r.policy = false → rtPolicy r.policy = false →
        maxRtPrio ≤ r.normalPrio ∧ maxRtPrio ≤ r.prio) := by
    have hzero : maxRtPrio ≤ niceToPrio 0 := le_niceToPrio (by decide)
    intro r hr
    rw [hr]
    unfold revertOnFork
    split
    next =>
      dsimp only
      -- a policy with real-time priority is reverted, a negative nice value too
      split
      next =>
        refine ⟨?_, hzero, fun _ _ => ⟨hzero, hzero⟩⟩
        show Policy.normal ≠ .hvf
        decide
      next =>
        split
        next => exact ⟨hpol, hzero, fun _ _ => ⟨hzero, hzero⟩⟩
        next => exact ⟨hpol, h.static, fun _ _ => ⟨h.static, h.static⟩⟩
    next =>
      exact ⟨hpol, h.static, fun hdl hrt => ⟨h.normal hdl hrt, h.normal hdl hrt⟩⟩
  obtain ⟨hpol', hstatic, hplain⟩ := hrev _ rfl
  generalize revertOnFork
    { parent with onRq := .off, state := taskNew, prio := parent.normalPrio } = r at ht hpol' hstatic hplain
  split at ht
  next => cases ht
  next hdl =>
    injection ht with ht
    subst ht
    refine ⟨?_, hstatic, fun hd hr => (hplain hd hr).1, fun hd hr _ => (hplain hd hr).2⟩
    show (if rtPrio r.prio then SchedClass.rt else .fair) = setschedulerClass r.policy r.prio
    have hhvf : hvfPolicy r.policy = false := by
      unfold hvfPolicy
      exact beq_eq_false_iff_ne.mpr hpol'
    rw [setschedulerClass, if_neg hdl, hhvf]
    rfl

/-! ## Steps and runs -/

/-- A write to a task, seen from two states with the same attributes. -/
theorem policies_setTask_congr {s₁ : Sys} {t t' : TaskStruct} (hs : s₁.policies = s.policies)
    (ht : t.attrs = t'.attrs) : (s₁.setTask p t).policies = (s.setTask p t').policies := by
  have htask : (fun q => ((s₁.setTask p t).task q).attrs) = fun q => ((s.setTask p t').task q).attrs := by
    funext q
    rw [setTask_task, setTask_task]
    split
    next => exact ht
    next => exact congrFun (congrArg Policies.task hs) q
  have hpid : s₁.nextPid = s.nextPid := congrArg Policies.nextPid hs
  unfold Sys.policies
  rw [htask, setTask_nextPid, setTask_nextPid, hpid]

/-- The attributes of one task, from the view. -/
theorem attrs_of_policies (h : s'.policies = s.policies) (p : TaskId) :
    (s'.task p).attrs = (s.task p).attrs := congrFun (congrArg Policies.task h) p

/-- The attributes after a call of `__sched_setscheduler` that gets past its
checks. -/
theorem policies_setschedulerChange {attr : SchedAttr} {policy : Policy} {resetOnFork pi : Bool}
    (h : setschedulerChange E p attr policy resetOnFork pi s = .ok s') :
    s'.policies = (s.setTask p (setschedulerUpdate attr policy resetOnFork
      (setschedulerNewprio s p attr policy pi) (s.task p))).policies := by
  unfold setschedulerChange at h
  obtain ⟨s₁, h₁, h₂⟩ := bind_ok.mp h
  obtain ⟨s₂, h₃, h₄⟩ := bind_ok.mp h₂
  obtain ⟨s₃, h₅, h₆⟩ := bind_ok.mp h₄
  have hs₁ := policies_takeOff h₁
  rw [policies_checkClassChanged h₆, policies_putBack h₅, policies_checkClassChanging h₃]
  exact policies_setTask_congr hs₁ (setschedulerUpdate_attrs (attrs_of_policies hs₁ p))

/-- `rt_mutex_setprio` leaves every task that is not an idle task with the
attributes of `boostedTask`, also when it returns early. -/
theorem policies_rtMutexSetprio {piTask : Option TaskId} (hidle : p ≠ .idle (s.task p).cpu)
    (hcls : (s.task p).schedClass = setschedulerClass (s.task p).policy (s.task p).prio)
    (h : rtMutexSetprio E p piTask s = .ok s') :
    s'.policies = (s.setTask p (boostedTask s p piTask)).policies := by
  have hsame : rtEffectivePrioOf s piTask (s.task p).normalPrio = (s.task p).prio →
      (boostedTask s p piTask).attrs = { (s.task p).attrs with piTopTask := piTask } := by
    intro hprio
    unfold boostedTask TaskStruct.attrs
    dsimp only
    rw [hprio, ← hcls]
  unfold rtMutexSetprio at h
  dsimp only at h
  split at h
  next hnone =>
    injection h with h
    rw [← h, policies_setTask]
    rw [hsame hnone.2.1, ← hnone.1]
    rfl
  next =>
    split at h
    next hnone =>
      injection h with h
      rw [← h]
      refine policies_setTask_congr rfl ?_
      rcases hnone with ⟨hprio, -⟩ | hp
      · rw [hsame hprio]
        rfl
      · exact absurd hp hidle
    next =>
      obtain ⟨s₁, h₁, h₂⟩ := bind_ok.mp h
      obtain ⟨s₂, h₃, h₄⟩ := bind_ok.mp h₂
      obtain ⟨s₃, h₅, h₆⟩ := bind_ok.mp h₄
      have hs₁ := policies_takeOff h₁
      rw [policies_checkClassChanged h₆, policies_putBack h₅, policies_checkClassChanging h₃,
        policies_setTask_congr hs₁ ?_, setTask_setTask]
      have hattrs := attrs_of_policies hs₁ p
      rw [setTask_self] at hattrs
      have hout := congrArg (fun t : TaskAttrs =>
        { t with
          schedClass := setschedulerClass (s.task p).policy
            (rtEffectivePrioOf s piTask (s.task p).normalPrio)
          prio := rtEffectivePrioOf s piTask (s.task p).normalPrio }) hattrs
      exact hout

/-- Every task created by a fork, and the first one, is in order. -/
def PoliciesOk (s : Sys) : Prop := ∀ p, s.isLive p = true → AttrsOk (s.task p).attrs

/-- States with the same view. -/
theorem PoliciesOk.congr (h : PoliciesOk s) (hs : s'.policies = s.policies) : PoliciesOk s' := by
  intro p hlive
  have hpid : s'.nextPid = s.nextPid := congrArg Policies.nextPid hs
  rw [attrs_of_policies hs p]
  apply h p
  cases p with
  | idle c => cases hlive
  | task n =>
    rw [← hlive]
    show decide (n < _) = decide (n < _)
    rw [hpid]

/-- A write of attributes that are in order. -/
theorem PoliciesOk.setTask {t : TaskStruct} (h : PoliciesOk s) (ht : AttrsOk t.attrs) :
    PoliciesOk (s.setTask p t) := by
  intro q hlive
  rw [setTask_task]
  split
  next => exact ht
  next => exact h q (by cases q <;> exact hlive)

/-- No task with the policy `SCHED_HVF` forks. -/
def forksPlain (s : Sys) (a : Act) : Prop :=
  ∀ c ∈ forks a, (s.task (s.rq c).curr).policy ≠ .hvf

instance (s : Sys) (a : Act) : Decidable (forksPlain s a) :=
  inferInstanceAs (Decidable (∀ c ∈ forks a, _))

/-- The child of a task with another policy than HVF is in order, and the
others keep what they have. -/
theorem PoliciesOk.copyProcess (h : PoliciesOk s) (hlive : s.isLive (s.rq c).curr = true)
    (hpol : (s.task (s.rq c).curr).policy ≠ .hvf) : PoliciesOk (copyProcess c s) := by
  unfold HvfSched.copyProcess
  split
  next => exact h
  next t ht =>
    have hchild := (h _ hlive).fork hpol ht c
    intro q hlive
    -- the new pid, or one that was there before
    show AttrsOk ((s.setTask (.task s.nextPid) (finishChild c t)).task q).attrs
    rw [setTask_task]
    split
    next => exact hchild
    next hq =>
      apply h q
      cases q with
      | idle d => cases hlive
      | task n =>
        have hn : n < s.nextPid + 1 := of_decide_eq_true hlive
        have hne : n ≠ s.nextPid := fun e => hq (congrArg TaskId.task e)
        exact decide_eq_true (by omega)

/-- `__sched_setscheduler`, whether it fails, finds nothing to change or
changes the task. -/
theorem PoliciesOk.schedSetscheduler {ck : Checks} {attr : SchedAttr} {user pi : Bool}
    {r : Int × Sys} (h : PoliciesOk s) (hlive : s.isLive p = true)
    (hnice : minNice ≤ attr.schedNice)
    (hr : schedSetscheduler E ck p attr user pi s = .ok r) : PoliciesOk r.2 := by
  rcases schedSetscheduler_cases hr with ⟨-, h'⟩ | ⟨-, -, -, h'⟩ | ⟨policy, s', -, -, h', hr'⟩
  · rw [h']
    exact h
  · rw [h']
    exact h.congr (policies_setTask rfl)
  · rw [hr']
    have hnew := (h p hlive).setscheduler hnice policy (requestedReset (s.task p) attr) pi
    exact (h.setTask hnew).congr (policies_setschedulerChange h')

/-- `rt_mutex_setprio`; an idle task is never live. -/
theorem PoliciesOk.rtMutexSetprio {piTask : Option TaskId} (h : PoliciesOk s)
    (hlive : s.isLive p = true) (hr : rtMutexSetprio E p piTask s = .ok s') : PoliciesOk s' := by
  have hp := h p hlive
  have hidle : p ≠ .idle (s.task p).cpu := by
    intro e
    rw [e] at hlive
    cases hlive
  exact (h.setTask hp.setprio).congr (policies_rtMutexSetprio hidle hp.cls hr)

/-- A step whose fork, if it is one, is not of an HVF task. -/
theorem step_policies (h : PoliciesOk s) (hok : forksPlain s a) (hstep : step E s a = some s') :
    PoliciesOk s' := by
  obtain ⟨hen, hx⟩ := step_ok hstep
  cases a with
  | setState c v =>
    injection hx with hx
    rw [← hx]
    exact h.congr (policies_setTaskState ..)
  | schedule c mode sig picks => exact h.congr (policies_schedule hx)
  | doTaskDead c picks =>
    have hx' : doTaskDead E c picks s = .ok s' := hx
    unfold doTaskDead at hx'
    exact h.congr ((policies_schedule hx').trans (policies_setTaskState ..))
  | finishTaskSwitch c =>
    unfold exec at hx
    dsimp only at hx
    split at hx
    next =>
      injection hx with hx
      exact hx ▸ h
    next => exact h.congr (policies_finishTaskSwitch hx)
  | tick c =>
    injection hx with hx
    rw [← hx]
    exact h.congr (policies_schedTick ..)
  | wake thisCpu p mask dest => exact h.congr (policies_tryToWakeUp hx)
  | fork c =>
    injection hx with hx
    rw [← hx]
    exact h.copyProcess hen (hok c rfl)
  | wakeNew thisCpu p dest => exact h.congr (policies_wakeUpNewTask hx)
  | setscheduler ck p attr user pi =>
    simp only [enabled, Bool.and_eq_true, decide_eq_true_eq] at hen
    obtain ⟨r, hr, hs⟩ := map_ok.mp hx
    rw [← hs]
    exact h.schedSetscheduler hen.1.1 hen.1.2 hr
  | setprio p piTask => exact h.rtMutexSetprio hen hx
  | moveTask p => exact h.congr (policies_schedMoveTask hx)
  | setParams c d1 d2 ct =>
    injection hx with hx
    rw [← hx]
    refine h.congr ?_
    rw [policies_setTask, policies_tickClock]
    unfold setSchedulingParams
    split
    next => rfl
    next => rfl

/-- The first task is in order; an idle task is not asked about. -/
theorem boot_policies : PoliciesOk boot := by
  intro p hlive
  cases p with
  | idle c => cases hlive
  | task n =>
    show AttrsOk firstTask.attrs
    exact ⟨by decide, by decide, fun _ _ => by decide, fun _ _ _ => by decide⟩

/-- `sched_setscheduler(p, SCHED_HVF)` that returns 0 for a task in order that
is not boosted. -/
theorem setscheduler_hvf_enters {ck : Checks} {resetOnFork user pi : Bool}
    (h : AttrsOk (s.task p).attrs) (hpi : (s.task p).piTopTask = none)
    (hr : schedSetscheduler E ck p (schedSetschedulerAttr (s.task p) .hvf 0 resetOnFork) user pi s
      = .ok (0, s')) : (s'.task p).schedClass = .hvf := by
  have hpol : requestedPolicy (s.task p) (schedSetschedulerAttr (s.task p) .hvf 0 resetOnFork)
      = some .hvf := rfl
  rcases schedSetscheduler_cases hr with ⟨hne, -⟩ | ⟨policy, hp, hun, heq⟩ |
    ⟨policy, s₁, hp, -, hch, heq⟩
  · exact absurd rfl hne
  · -- the early return: the task has the policy, so it is in the class
    injection hpol.symm.trans hp with hp
    subst hp
    have hsame : (s.task p).policy = .hvf := by
      unfold setschedulerUnchanged at hun
      simp only [Bool.and_eq_true, beq_iff_eq] at hun
      exact hun.1.1.1.1.symm
    have hattrs : (s.task p).attrs.policy = .hvf := hsame
    have hprio : maxRtPrio ≤ (s.task p).prio :=
      h.prio (by rw [hattrs]; rfl) (by rw [hattrs]; rfl) hpi
    have hcls : (s.task p).schedClass = setschedulerClass (s.task p).policy (s.task p).prio := h.cls
    injection heq with _ heq
    rw [heq, setTask_self, hcls, setschedulerClass_plain hprio, hsame]
    rfl
  · injection hpol.symm.trans hp with hp
    subst hp
    injection heq with _ heq
    have hattrs := attrs_of_policies (policies_setschedulerChange hch) p
    rw [setTask_self] at hattrs
    have hcls := congrArg TaskAttrs.schedClass hattrs
    rw [heq]
    refine hcls.trans ?_
    have hkeep : hasFlag (schedSetschedulerAttr (s.task p) .hvf 0 resetOnFork).schedFlags
        schedFlagKeepParams = false := by
      cases resetOnFork with
      | false =>
        show hasFlag 0 schedFlagKeepParams = false
        decide
      | true =>
        show hasFlag schedFlagResetOnFork schedFlagKeepParams = false
        decide
    have hprio : setschedulerNewprio s p (schedSetschedulerAttr (s.task p) .hvf 0 resetOnFork) .hvf pi
        = (s.task p).staticPrio := by
      unfold setschedulerNewprio
      rw [hpi]
      dsimp only [rtEffectivePrioOf]
      rw [ite_self]
      exact niceToPrio_prioToNice _
    rw [setschedulerUpdate, hkeep]
    have hstatic : maxRtPrio ≤ (s.task p).staticPrio := h.static
    show setschedulerClass .hvf _ = .hvf
    rw [hprio, setschedulerClass_plain hstatic]
    rfl

/-- In every run in which no task with the policy `SCHED_HVF` forks, class and
policy agree, and `sched_setscheduler(p, SCHED_HVF)` that returns 0 on a task
that is not boosted leaves it in the class. -/
theorem class_agrees_with_policy (E : Env) (s : Sys) (h : Reached E forksPlain s) (p : TaskId)
    (hlive : s.isLive p = true) :
    (s.task p).schedClass = setschedulerClass (s.task p).policy (s.task p).prio ∧
    ∀ ck resetOnFork user pi s', (s.task p).piTopTask = none →
      schedSetscheduler E ck p (schedSetschedulerAttr (s.task p) .hvf 0 resetOnFork) user pi s
        = .ok (0, s') → (s'.task p).schedClass = .hvf := by
  have hinv : PoliciesOk s := by
    refine Reach.invariant PoliciesOk ?_ ?_ h
    · intro s hs
      rw [hs]
      exact boot_policies
    · intro s a s' hp hok hstep
      exact step_policies hp hok hstep
  refine ⟨(hinv p hlive).cls, ?_⟩
  intro ck resetOnFork user pi s' hpi hr
  exact setscheduler_hvf_enters (hinv p hlive) hpi hr

/-- A task forks, and then switches itself to HVF. -/
theorem class_agrees_with_policy_after_fork :
    ∃ s, Reached sampleEnv forksPlain s ∧ s.isLive (.task 0) = true ∧
      (s.task (.task 0)).policy = .hvf ∧
      ((s.task (.task 0)).schedClass
          = setschedulerClass (s.task (.task 0)).policy (s.task (.task 0)).prio ∧
        ∀ ck resetOnFork user pi s', (s.task (.task 0)).piTopTask = none →
          schedSetscheduler sampleEnv ck (.task 0)
              (schedSetschedulerAttr (s.task (.task 0)) .hvf 0 resetOnFork) user pi s
            = .ok (0, s') → (s'.task (.task 0)).schedClass = .hvf) := by
  obtain ⟨s, hs, hf⟩ := Reached.of_check (b := (true, Policy.hvf)) sampleEnv forksPlain
    (fun s => (s.isLive (.task 0), (s.task (.task 0)).policy))
    (startFirst ++ [.fork 0, .setscheduler permissive (.task 0) (plainAttr 8) true true])
    (by decide +kernel)
  injection hf with hlive hpol
  exact ⟨s, hs, hlive, hpol, class_agrees_with_policy sampleEnv s hs (.task 0) hlive⟩

/-- The other way round: the child of an HVF task has the policy and the fair
class, and asking for the policy again returns 0 and changes nothing. -/
theorem hvf_child_stays_fair :
    ∃ s, Reached sampleEnv (fun _ _ => True) s ∧ s.isLive (.task 1) = true ∧
      (s.task (.task 1)).schedClass = .fair ∧
      setschedulerClass (s.task (.task 1)).policy (s.task (.task 1)).prio = .hvf ∧
      (s.task (.task 1)).piTopTask = none ∧
      ∃ s', schedSetscheduler sampleEnv permissive (.task 1)
          (schedSetschedulerAttr (s.task (.task 1)) .hvf 0 false) true true s = .ok (0, s') ∧
        (s'.task (.task 1)).schedClass = .fair := by
  obtain ⟨s, hs, hf⟩ := Reached.of_eval (b := (true, some (0, SchedClass.fair))) sampleEnv
    (fun s => (decide (s.isLive (.task 1) = true ∧ (s.task (.task 1)).schedClass = .fair ∧
        setschedulerClass (s.task (.task 1)).policy (s.task (.task 1)).prio = .hvf ∧
        (s.task (.task 1)).piTopTask = none),
      (schedSetscheduler sampleEnv permissive (.task 1)
        (schedSetschedulerAttr (s.task (.task 1)) .hvf 0 false) true true s).toOption.map
          fun r => (r.1, (r.2.task (.task 1)).schedClass)))
    (startFirst ++ [.setscheduler permissive (.task 0) (plainAttr 8) true true, .fork 0])
    (by decide +kernel)
  injection hf with hbits hcall
  obtain ⟨hlive, hcls, hnew, hpi⟩ := of_decide_eq_true hbits
  obtain ⟨⟨n, s'⟩, hr, hn⟩ := toOption_map_eq_some hcall
  injection hn with hn hcls'
  subst hn
  exact ⟨s, hs, hlive, hcls, hnew, hpi, s', hr, hcls'⟩

end HvfSched
