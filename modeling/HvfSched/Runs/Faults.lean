import HvfSched.Queue.Recompute
import HvfSched.Runs.Defaults
import HvfSched.Runs.Order
import HvfSched.Runs.Policy

/-!
# Where the kernel can stop

A step of the machine is an entry point that returned. This file asks when an
entry point does not return. Of the things that can stop it (`Fault`), three are
ruled out, each by an invariant of its own:

* `rb_erase` of a node that is not linked: every dequeue looks at the flag
  first, and the flag tells the truth (`Base`);
* a null entity in `pick_task_hvf`: over a sorted tree the cached maximum is
  there whenever the tree has a node (`Sorted`);
* the division of `compute_init_sched_value`: a task of the class has
  parameters, and their divisor is not zero (`Divisors`). The divisor is a
  product modulo `2^64`, so this is more than two different deadlines.

For the other two nothing helps, and it is said exactly when they happen:

* a hook the class does not have (`missesHook`). `check_class_changed` calls
  `prio_changed` for a task that keeps its class and changes its priority, and
  behind a switch `migrate_disable_switch` calls `set_cpus_allowed` for a task
  whose migration is disabled;
* `BUG()` (`resumesDead`). It stands behind the last `__schedule` of a task, and
  a dead task that is picked again gets there.

The lemmas come in the order of the calls: a stage returns when the stages it
is made of do.
-/

namespace HvfSched

open Lib Sys

variable {E : Env} {s s' : Sys} {a : Act} {c : Cpu} {p : TaskId}

/-! ## The division -/

/-- The divisor of `compute_init_sched_value`. -/
def Params.divisor (x : Params) : Long := (x.deadline2 - x.deadline1) * K

/-- The task has parameters, and their divisor is not zero. -/
def TaskStruct.Valued (t : TaskStruct) : Prop := t.parsSet = true ∧ t.params.divisor ≠ 0

/-- A divisor that is not zero is enough for the division. -/
theorem divisorOk_of_divisor {t : TaskStruct} (h : t.params.divisor ≠ 0) : DivisorOk t :=
  Or.inr (Or.inr h)

/-- The default deadlines are two seconds apart. -/
theorem defaultParams_divisor (now : Timespec64) : (defaultParams now).divisor ≠ 0 := by
  have hapart : ∀ x : Long, x + 6 - (x + 4) = 2 := by
    intro x
    grind
  unfold Params.divisor defaultParams
  dsimp only
  rw [hapart]
  decide

theorem computeInitSchedValue_total {t : TaskStruct} (h : t.params.divisor ≠ 0) :
    computeInitSchedValue wrapv t = .ok t.renewed := by
  rw [computeInitSchedValue, computeInitValue_eq_due, if_pos (divisorOk_of_divisor h)]
  rfl

theorem computeInit_total (h : (s.task p).params.divisor ≠ 0) :
    ∃ s', computeInit p s = .ok s' := by
  rw [computeInit, computeInitSchedValue_total h]
  exact ⟨_, rfl⟩

theorem giveDefaults_total (E : Env) (p : TaskId) (s : Sys) :
    ∃ s', giveDefaults E p s = .ok s' := by
  unfold giveDefaults
  split
  next => exact ⟨s, rfl⟩
  next hunset =>
    obtain ⟨t, ht⟩ : ∃ t, giveDefaultHvfValues (s.now E) (s.task p) = .ok t := by
      rw [giveDefaultHvfValues, if_neg hunset]
      exact ⟨_, computeInitSchedValue_total (defaultParams_divisor (s.now E))⟩
    refine ⟨s.tickClock.setTask p t, ?_⟩
    rw [ht]
    rfl

/-- A task the hook has been called for can be valued. -/
theorem giveDefaults_valued (hset : (s.task p).parsSet = true → (s.task p).params.divisor ≠ 0)
    (h : giveDefaults E p s = .ok s') : (s'.task p).Valued := by
  have hrec : (s'.task p).record = ((s.clocked p).defaults E).record :=
    (On.giveDefaults h).record_self
  have hflag : (s'.task p).parsSet = ((s.clocked p).defaults E).record.parsSet :=
    congrArg Record.parsSet hrec
  have hpar : (s'.task p).params = ((s.clocked p).defaults E).record.params :=
    congrArg Record.params hrec
  unfold TaskStruct.Valued
  rw [hflag, hpar]
  unfold Clocked.defaults
  split
  next hs => exact ⟨hs, hset hs⟩
  next => exact ⟨rfl, defaultParams_divisor _⟩

theorem refreshValue_total (flags : Mask) (h : (s.task p).Valued) :
    ∃ s', refreshValue E p flags s = .ok s' := by
  unfold refreshValue
  split
  next =>
    -- a task with parameters gets no others
    have hgive : giveDefaults E p s = .ok s := if_pos h.1
    obtain ⟨s', hs'⟩ := computeInit_total
      (s := s.tickClock.setEntity p (initSchedHvfEntity (s.now E) (s.task p).hvf)) (p := p)
      (by rw [Sys.setEntity, setTask_self]; exact h.2)
    exact ⟨s', by rw [hgive]; exact hs'⟩
  next =>
    split
    next => exact computeInit_total h.2
    next => exact ⟨s, rfl⟩

/-! ## The hooks -/

theorem enqueueTask_total (flags : Mask) (h : (s.task p).schedClass = .hvf → (s.task p).Valued) :
    ∃ s', enqueueTask E c p flags s = .ok s' := by
  unfold enqueueTask
  split
  next hcls =>
    obtain ⟨s₁, h₁⟩ := refreshValue_total (E := E) flags (h hcls)
    by_cases hfree : (s₁.rq c).hvf.curr ≠ some p ∧ (s₁.task p).hvf.onRq = false
    · refine ⟨(enqueueHvfEntity E c p s₁).addNrRunning c 1, ?_⟩
      rw [enqueueTaskHvf, h₁]
      exact if_pos hfree
    · refine ⟨s₁, ?_⟩
      rw [enqueueTaskHvf, h₁]
      exact if_neg hfree
  next => exact ⟨_, rfl⟩

theorem activateTask_total (flags : Mask) (h : (s.task p).schedClass = .hvf → (s.task p).Valued) :
    ∃ s', activateTask E c p flags s = .ok s' := by
  obtain ⟨s₁, h₁⟩ := enqueueTask_total (E := E) (c := c)
    (if (s.task p).onRq = .migrating then flags ||| enqueueMigrated else flags) h
  refine ⟨setOnRq p .queued s₁, ?_⟩
  rw [activateTask, h₁]
  rfl

/-- A linked task can be unlinked on its own CPU. -/
theorem dequeueIfOnRq_total (ht : Trees s) (hcpu : (s.task p).cpu = c) :
    ∃ s', dequeueIfOnRq E c p s = .ok s' := by
  unfold dequeueIfOnRq
  split
  next hflag => exact dequeueHvfEntity_of_mem E ((ht.mem c p).mpr ⟨hflag, hcpu⟩)
  next => exact ⟨s, rfl⟩

theorem dequeueTask_total (ht : Trees s)
    (hcpu : (s.task p).schedClass = .hvf → (s.task p).cpu = c) :
    ∃ r, dequeueTask E c p s = .ok r := by
  unfold dequeueTask
  split
  next hcls =>
    unfold dequeueTaskHvf
    split
    next hlinked =>
      obtain ⟨s₁, h₁⟩ := dequeueHvfEntity_of_mem E ((ht.mem c p).mpr ⟨hlinked.2, hcpu hcls⟩)
      rw [h₁]
      exact ⟨_, rfl⟩
    next =>
      split
      next =>
        obtain ⟨s₁, h₁⟩ := dequeueIfOnRq_total (E := E) ht (hcpu hcls)
        rw [h₁]
        exact ⟨_, rfl⟩
      next => exact ⟨_, rfl⟩
  next => exact ⟨_, rfl⟩

theorem setNextTask_total {first : Bool} (ht : Trees s)
    (hcpu : (s.task p).schedClass = .hvf → (s.task p).cpu = c) :
    ∃ s', setNextTask E c p first s = .ok s' := by
  unfold setNextTask setNextTaskHvf
  split
  next hcls =>
    split
    next =>
      obtain ⟨s₁, h₁⟩ := dequeueIfOnRq_total (E := E) ht (hcpu hcls)
      unfold setNextHvfEntity
      rw [h₁]
      exact ⟨_, rfl⟩
    next => exact ⟨s, rfl⟩
  next => exact ⟨s, rfl⟩

theorem pickTaskHvf_total (ho : Ordered s c) : ∃ p, pickTaskHvf s c = .ok p := by
  by_cases hne : s.queue c = []
  · exact ⟨.idle c, if_pos ((OrdTree.isEmpty_iff _).mpr hne)⟩
  · obtain ⟨m, hm, -⟩ := ho.pickTaskHvf hne
    exact ⟨m, hm⟩

/-! ## The core -/

theorem pickNext_total (ho : Ordered s c) (prev : TaskId) (picks : Picks) :
    ∃ next, pickNext s c prev picks = .ok next := by
  have hclasses : ∃ next, pickFromClasses s c picks = .ok next := by
    unfold pickFromClasses
    split
    next p _ => exact ⟨p, rfl⟩
    next => exact pickTaskHvf_total ho
  unfold pickNext
  split
  next =>
    split
    next => exact hclasses
    next => exact ⟨.idle c, rfl⟩
    next p _ => exact ⟨p, rfl⟩
  next => exact hclasses

theorem leavePrev_total (mode : SchedMode) (sig : Signals) (hb : Base s) :
    ∃ s', leavePrev E c mode sig s = .ok s' := by
  unfold leavePrev tryToBlockTask
  dsimp only
  split
  next =>
    split
    next => exact ⟨_, rfl⟩
    next =>
      obtain ⟨⟨b, s₁⟩, h₁⟩ := dequeueTask_total (E := E) (c := c) hb.trees
        fun hcls => (hb.running_hvf rfl hcls).2
      unfold blockTask
      rw [h₁]
      exact ⟨_, rfl⟩
  next => exact ⟨s, rfl⟩

/-- The stages of `__schedule` from `s₀` return, when the classes above HVF answer
what they may in `s`. -/
theorem scheduleStages_total {s₀ : Sys} {mode : SchedMode} {sig : Signals} {picks : Picks}
    (hb : Base s₀) (ho : Sorted s₀)
    (hsame : ∀ q, s₀.isLive q = s.isLive q ∧ (s₀.task q).cpu = (s.task q).cpu)
    (hok : s.picksOk c (leaveOf mode sig (s₀.task (s₀.rq c).curr) == .block) picks = true) :
    ∃ s₁ next s₂, leavePrev E c mode sig s₀ = .ok s₁ ∧
      pickNext s₁ c (s₀.rq c).curr picks = .ok next ∧
      putPrevSetNextTask E c (s₀.rq c).curr next s₁ = .ok s₂ ∧ Trees s₂ := by
  obtain ⟨s₁, h₁⟩ := leavePrev_total (E := E) (c := c) mode sig hb
  have hmid := midSchedule hb rfl h₁
  obtain ⟨next, hpick⟩ := pickNext_total (ho.leavePrev h₁ c) (s₀.rq c).curr picks
  have hnext := hmid.mayRun hsame (pickNext_picked hok hpick)
  have hcurr₁ : (s₁.rq c).curr = (s₀.rq c).curr := by
    have hl := congrArg (fun l => (l.rq c).curr) hmid.links
    exact hl.trans (Links.leave_curr ..)
  -- the running task is put on its own CPU, and the next one is taken from it
  have hcpu : (s₁.task (s₀.rq c).curr).schedClass = .hvf → (s₁.task (s₀.rq c).curr).cpu = c :=
    fun hcls => (hmid.base.running_hvf hcurr₁ hcls).2
  obtain ⟨s₂, hset⟩ : ∃ s₂, putPrevSetNextTask E c (s₀.rq c).curr next s₁ = .ok s₂ := by
    unfold putPrevSetNextTask
    split
    next => exact ⟨s₁, rfl⟩
    next hne =>
      refine setNextTask_total (hmid.base.trees.putPrevTask (E := E) hcpu) ?_
      rw [putPrevTask_task_ne hne]
      intro hcls
      have hbits : (s₁.links.task next).cpu = (s₀.links.task next).cpu ∧
          (s₁.links.task next).schedClass = (s₀.links.task next).schedClass := by
        rw [hmid.links]
        exact ⟨(Links.leave_bits _ next).1, (Links.leave_bits _ next).2.1⟩
      have hrun := Links.Sound.MayRun.of_hvf hb.sound hnext (hbits.2.symm.trans hcls)
      exact hbits.1.trans hrun.2
  exact ⟨s₁, next, s₂, h₁, hpick, hset, hmid.base.trees.putPrevSetNextTask hcpu hset⟩

theorem finishTaskSwitch_total (hb : Base s) : ∃ s', finishTaskSwitch E c p s = .ok s' := by
  unfold finishTaskSwitch
  dsimp only
  split
  next =>
    have hdead : Trees (s.setRq c { s.rq c with deadPrev := none }) := hb.trees.setRq rfl
    have ht := hdead.tickClock
    obtain ⟨s₁, h₁⟩ := dequeueIfOnRq_total (E := E) (p := p) ht rfl
    refine ⟨s₁.setHvf (s.task p).cpu { (s₁.rq (s.task p).cpu).hvf with curr := none }, ?_⟩
    unfold taskDeadHvf
    dsimp only
    rw [show dequeueIfOnRq E ((s.setRq c { s.rq c with deadPrev := none }).task p).cpu p
      (s.setRq c { s.rq c with deadPrev := none }).tickClock = .ok s₁ from h₁]
    rfl
  next => exact ⟨_, rfl⟩

/-- A task that is placed can still be valued. -/
theorem place_valued (dest : Cpu) (v : Mask)
    (h : (s.task p).schedClass = .hvf → (s.task p).Valued) :
    ((setTaskCpu p dest (setTaskState p v s)).task p).schedClass = .hvf →
      ((setTaskCpu p dest (setTaskState p v s)).task p).Valued := by
  rw [setTaskCpu, setTask_self, setTaskState, setTask_self]
  exact h

theorem tryToWakeUp_total {thisCpu dest : Cpu} {mask : Mask}
    (h : (s.task p).schedClass = .hvf → (s.task p).Valued) :
    ∃ s', tryToWakeUp E thisCpu p mask dest s = .ok s' := by
  unfold tryToWakeUp
  split
  next => exact ⟨_, rfl⟩
  next =>
    split
    next => exact ⟨_, rfl⟩
    next =>
      split
      next => exact ⟨_, rfl⟩
      next =>
        obtain ⟨s₁, h₁⟩ := activateTask_total (E := E) (c := dest)
          (enqueueWakeup ||| enqueueNoclock |||
            (if (s.task p).cpu != dest then enqueueMigrated else 0))
          (place_valued dest taskWaking h)
        refine ⟨setTaskState p taskRunning (wakeupPreempt thisCpu dest p s₁), ?_⟩
        unfold ttwuDoActivate
        dsimp only
        rw [h₁]
        rfl

theorem wakeUpNewTask_total {thisCpu dest : Cpu}
    (h : (s.task p).schedClass = .hvf → (s.task p).Valued) :
    ∃ s', wakeUpNewTask E thisCpu p dest s = .ok s' := by
  obtain ⟨s₁, h₁⟩ := activateTask_total (E := E) (c := dest) (enqueueNoclock ||| enqueueInitial)
    (place_valued dest taskRunning h)
  refine ⟨wakeupPreempt thisCpu dest p s₁, ?_⟩
  unfold wakeUpNewTask
  dsimp only
  rw [h₁]
  rfl

/-! ## Changes of attributes -/

theorem takeOff_total (ht : Trees s) : ∃ s', takeOff E p s = .ok s' := by
  unfold takeOff
  dsimp only
  obtain ⟨r, hr⟩ := dequeueTask_total (E := E) (p := p) ht fun _ => rfl
  split
  next =>
    rw [hr]
    exact ⟨_, rfl⟩
  next => exact ⟨_, rfl⟩

theorem checkClassChanging_total (E : Env) (p : TaskId) (cls : SchedClass) (s : Sys) :
    ∃ s', checkClassChanging E p cls s = .ok s' := by
  unfold checkClassChanging switchingToHvf
  split
  next => exact giveDefaults_total E p s
  next => exact ⟨s, rfl⟩

theorem putBack_total (queued running : Bool) (flags : Mask)
    (h : (s.task p).schedClass = .hvf → (s.task p).Valued) :
    ∃ s', putBack E p queued running flags s = .ok s' := by
  obtain ⟨s₁, h₁⟩ := enqueueTask_total (E := E) (c := (s.task p).cpu) flags h
  unfold putBack
  dsimp only
  split
  next =>
    rw [h₁]
    show ∃ s', (if running then setNextTask E (s.task p).cpu p false s₁ else .ok s₁) = .ok s'
    rw [setNextTask_false, ite_self]
    exact ⟨s₁, rfl⟩
  next =>
    show ∃ s', (if running then setNextTask E (s.task p).cpu p false s else .ok s) = .ok s'
    rw [setNextTask_false, ite_self]
    exact ⟨s, rfl⟩

/-- The first half of a change leaves the parameters alone. -/
theorem takeOff_params (h : takeOff E p s = .ok s') :
    (s'.task p).parsSet = (s.task p).parsSet ∧ (s'.task p).params = (s.task p).params := by
  have hrec := (On.takeOff h).record_self
  split at hrec
  next => exact ⟨congrArg Record.parsSet hrec, congrArg Record.params hrec⟩
  next => exact ⟨congrArg Record.parsSet hrec, congrArg Record.params hrec⟩

/-- What is known of the parameters of a task. -/
structure TaskStruct.Divides (t : TaskStruct) : Prop where
  divisor : t.parsSet = true → t.params.divisor ≠ 0
  hvf : t.schedClass = .hvf → t.parsSet = true

/-- A change of attributes returns, up to the last hook; what `f` writes is
what the task has then. -/
theorem change_total (f : TaskStruct → TaskStruct) (queued running : Bool) (flags : Mask)
    (ht : Trees s) (hd : (s.task p).Divides)
    (hbody : ∀ t, (f t).body = t.body)
    (hattrs : ∀ t, t.attrs = (s.task p).attrs → (f t).attrs = (f (s.task p)).attrs) :
    ∃ s₁ s₂ s₃, takeOff E p s = .ok s₁ ∧
      checkClassChanging E p (s.task p).schedClass (s₁.setTask p (f (s₁.task p))) = .ok s₂ ∧
      putBack E p queued running flags s₂ = .ok s₃ ∧
      (s₃.task p).attrs = (f (s.task p)).attrs := by
  obtain ⟨s₁, h₁⟩ := takeOff_total (E := E) (p := p) ht
  obtain ⟨s₂, h₂⟩ := checkClassChanging_total E p (s.task p).schedClass
    (s₁.setTask p (f (s₁.task p)))
  have hs₁ := attrs_of_policies (policies_takeOff h₁) p
  have hs₂ : (s₂.task p).attrs = (f (s.task p)).attrs := by
    rw [attrs_of_policies (policies_checkClassChanging h₂) p, setTask_self]
    exact hattrs _ hs₁
  -- the parameters before the `switching_to` hook are the old ones
  obtain ⟨hset₁, hpar₁⟩ := takeOff_params h₁
  have hsetₘ : ((s₁.setTask p (f (s₁.task p))).task p).parsSet = (s.task p).parsSet := by
    have hb := congrArg TaskStruct.parsSet (hbody (s₁.task p))
    rw [setTask_self, ← hset₁]
    exact hb
  have hparₘ : ((s₁.setTask p (f (s₁.task p))).task p).params = (s.task p).params := by
    have hb := congrArg TaskStruct.params (hbody (s₁.task p))
    rw [setTask_self, ← hpar₁]
    exact hb
  have hdivₘ : ((s₁.setTask p (f (s₁.task p))).task p).parsSet = true →
      ((s₁.setTask p (f (s₁.task p))).task p).params.divisor ≠ 0 := by
    rw [hsetₘ, hparₘ]
    exact hd.divisor
  have hval : (s₂.task p).schedClass = .hvf → (s₂.task p).Valued := by
    intro hcls₂
    rcases checkClassChanging_cases h₂ with ⟨-, hg⟩ | ⟨hsame, hs⟩
    · exact giveDefaults_valued hdivₘ hg
    · -- no hook: the task was in the class before
      rw [hs] at hcls₂ ⊢
      have hold : (s.task p).schedClass = .hvf := by
        by_contra hne
        exact hsame ⟨hne, hcls₂⟩
      have hset := hsetₘ.trans (hd.hvf hold)
      exact ⟨hset, hdivₘ hset⟩
  obtain ⟨s₃, h₃⟩ := putBack_total (E := E) queued running flags hval
  exact ⟨s₁, s₂, s₃, h₁, h₂, h₃, (attrs_of_policies (policies_putBack h₃) p).trans hs₂⟩

/-- The last hook: the one the class does not have is called for a task that
stays in the class under another priority. -/
theorem checkClassChanged_error_iff {cls : SchedClass} {prio : Int} {f : Fault} :
    checkClassChanged p cls prio s = .error f ↔
      f = .nullHook ∧ cls = .hvf ∧ (s.task p).schedClass = .hvf ∧
        (prio ≠ (s.task p).prio ∨ dlPrio (s.task p).prio = true) := by
  unfold checkClassChanged
  dsimp only
  split
  next hne =>
    constructor
    · intro h
      cases h
    · rintro ⟨-, h₁, h₂, -⟩
      exact absurd (h₁.trans h₂.symm) hne
  next heq =>
    have heq := not_not.mp heq
    split
    next hprio =>
      split
      next hcls =>
        constructor
        · intro h
          injection h with h
          exact ⟨h.symm, heq.trans hcls, hcls, hprio⟩
        · rintro ⟨h, -⟩
          rw [h]
      next hcls =>
        constructor
        · intro h
          cases h
        · rintro ⟨-, -, h, -⟩
          exact absurd h hcls
    next hprio =>
      constructor
      · intro h
        cases h
      · rintro ⟨-, -, -, h⟩
        exact absurd h hprio

/-! ## The missing hook -/

/-- The attributes `__sched_setscheduler` leaves the task with. -/
def setschedulerTask (s : Sys) (p : TaskId) (attr : SchedAttr) (policy : Policy) (pi : Bool) :
    TaskStruct :=
  setschedulerUpdate attr policy (requestedReset (s.task p) attr)
    (setschedulerNewprio s p attr policy pi) (s.task p)

/-- The entry point gets to `prio_changed` of the class. -/
def callsPrioChanged (s : Sys) : Act → Prop
  | .setscheduler ck p attr user pi =>
    (s.task p).schedClass = .hvf ∧ setschedulerTarget ck s p attr user pi = some .hvf ∧
      ∃ policy ∈ requestedPolicy (s.task p) attr,
        (s.task p).prio ≠ (setschedulerTask s p attr policy pi).prio ∨
          dlPrio (setschedulerTask s p attr policy pi).prio = true
  | .setprio p piTask =>
    (s.task p).schedClass = .hvf ∧ setprioTarget s p piTask = some .hvf
  | _ => False

instance (s : Sys) : (a : Act) → Decidable (callsPrioChanged s a)
  | .setState .. => inferInstanceAs (Decidable False)
  | .schedule .. => inferInstanceAs (Decidable False)
  | .doTaskDead .. => inferInstanceAs (Decidable False)
  | .finishTaskSwitch .. => inferInstanceAs (Decidable False)
  | .tick .. => inferInstanceAs (Decidable False)
  | .wake .. => inferInstanceAs (Decidable False)
  | .fork .. => inferInstanceAs (Decidable False)
  | .wakeNew .. => inferInstanceAs (Decidable False)
  | .setscheduler _ p attr _ _ =>
    inferInstanceAs (Decidable (_ ∧ _ ∧ ∃ policy ∈ requestedPolicy (s.task p) attr, _ ∨ _))
  | .setprio .. => inferInstanceAs (Decidable (_ ∧ _))
  | .moveTask .. => inferInstanceAs (Decidable False)
  | .setParams .. => inferInstanceAs (Decidable False)

theorem setschedulerTask_schedClass (s : Sys) (p : TaskId) (attr : SchedAttr) (policy : Policy)
    (pi : Bool) :
    (setschedulerTask s p attr policy pi).schedClass = setschedulerNewClass s p attr policy pi := by
  unfold setschedulerTask setschedulerUpdate setschedulerNewClass
  split
  next => rfl
  next => rfl

theorem setschedulerChange_error_iff {attr : SchedAttr} {policy : Policy} {pi : Bool} {f : Fault}
    (ht : Trees s) (hd : (s.task p).Divides) :
    setschedulerChange E p attr policy (requestedReset (s.task p) attr) pi s = .error f ↔
      f = .nullHook ∧ (s.task p).schedClass = .hvf ∧
        setschedulerNewClass s p attr policy pi = .hvf ∧
        ((s.task p).prio ≠ (setschedulerTask s p attr policy pi).prio ∨
          dlPrio (setschedulerTask s p attr policy pi).prio = true) := by
  obtain ⟨s₁, s₂, s₃, h₁, h₂, h₃, hattrs⟩ := change_total (E := E)
    (setschedulerUpdate attr policy (requestedReset (s.task p) attr)
      (setschedulerNewprio s p attr policy pi))
    (s.task p).isQueued (s.isCurrent p)
    (setschedulerFlags attr pi (s.task p).prio (setschedulerNewprio s p attr policy pi))
    ht hd (fun t => setschedulerUpdate_body ..) (fun t => setschedulerUpdate_attrs)
  have hchange : setschedulerChange E p attr policy (requestedReset (s.task p) attr) pi s
      = checkClassChanged p (s.task p).schedClass (s.task p).prio s₃ := by
    unfold setschedulerChange
    dsimp only
    rw [h₁]
    show checkClassChanging E p (s.task p).schedClass _ >>= _ = _
    rw [h₂]
    show putBack E p (s.task p).isQueued (s.isCurrent p) _ s₂ >>= _ = _
    rw [h₃]
    rfl
  have hcls : (s₃.task p).schedClass = setschedulerNewClass s p attr policy pi :=
    (congrArg TaskAttrs.schedClass hattrs).trans (setschedulerTask_schedClass s p attr policy pi)
  have hprio : (s₃.task p).prio = (setschedulerTask s p attr policy pi).prio :=
    congrArg TaskAttrs.prio hattrs
  rw [hchange, checkClassChanged_error_iff, hcls, hprio]

theorem schedSetscheduler_error_iff {ck : Checks} {attr : SchedAttr} {user pi : Bool} {f : Fault}
    (ht : Trees s) (hd : (s.task p).Divides) :
    schedSetscheduler E ck p attr user pi s = .error f ↔
      f = .nullHook ∧ callsPrioChanged s (.setscheduler ck p attr user pi) := by
  unfold schedSetscheduler callsPrioChanged setschedulerTarget
  dsimp only
  cases hpol : requestedPolicy (s.task p) attr with
  | none => simp
  | some policy =>
    dsimp only
    by_cases hgo : setschedulerRefusal ck (s.task p) attr policy
          (requestedReset (s.task p) attr) user = 0 ∧
        setschedulerUnchanged ck (s.task p) attr policy = false ∧
        setschedulerDenied ck (s.task p) attr policy user = 0
    · obtain ⟨href, hch, hden⟩ := hgo
      rw [if_neg (not_not.mpr href), if_neg (Bool.eq_false_iff.mp hch),
        if_neg (not_not.mpr hden), if_pos ⟨href, hch, hden⟩]
      show (setschedulerChange E p attr policy (requestedReset (s.task p) attr) pi s).map
          (fun s => ((0 : Int), s)) = .error f ↔ _
      rw [map_error, setschedulerChange_error_iff ht hd]
      simp
    · rw [if_neg hgo]
      constructor
      · intro h
        split at h
        next => cases h
        next href =>
          split at h
          next => cases h
          next hch =>
            split at h
            next => cases h
            next hden =>
              exact absurd ⟨not_not.mp href, Bool.eq_false_iff.mpr hch, not_not.mp hden⟩ hgo
      · rintro ⟨-, -, h, -⟩
        cases h

theorem rtMutexSetprio_error_iff {piTask : Option TaskId} {f : Fault} (ht : Trees s)
    (hd : (s.task p).Divides) :
    rtMutexSetprio E p piTask s = .error f ↔
      f = .nullHook ∧ callsPrioChanged s (.setprio p piTask) := by
  unfold callsPrioChanged setprioTarget
  dsimp only
  generalize hprio : rtEffectivePrioOf s piTask (s.task p).normalPrio = prio
  by_cases hnone : (prio = (s.task p).prio ∧ dlPrio prio = false) ∨ p = .idle (s.task p).cpu
  · rw [if_pos hnone]
    constructor
    · intro h
      unfold rtMutexSetprio at h
      dsimp only at h
      rw [hprio] at h
      split at h
      next => cases h
      next => cases h
    · rintro ⟨-, -, h⟩
      cases h
  · rw [if_neg hnone]
    have ht₀ : Trees (s.setTask p { s.task p with piTopTask := piTask }) :=
      ht.setTask_body (by rfl)
    have hd₀ : ((s.setTask p { s.task p with piTopTask := piTask }).task p).Divides := by
      rw [setTask_self]
      exact ⟨hd.divisor, hd.hvf⟩
    obtain ⟨s₁, s₂, s₃, h₁, h₂, h₃, hattrs⟩ := change_total (E := E)
      (fun t => { t with schedClass := setschedulerClass (s.task p).policy prio, prio := prio })
      (s.task p).isQueued
      ((s.setTask p { s.task p with piTopTask := piTask }).isCurrent p)
      (dequeueSave ||| (if (s.task p).prio = prio then 0 else dequeueMove) |||
        dequeueNoclock ||| (if rtPrio prio ∧ (s.task p).prio < prio then enqueueHead else 0))
      ht₀ hd₀ (fun t => rfl) (fun t h => congrArg (fun x : TaskAttrs =>
        { x with schedClass := setschedulerClass (s.task p).policy prio, prio := prio }) h)
    rw [setTask_self] at h₂ hattrs
    have hchange : rtMutexSetprio E p piTask s
        = checkClassChanged p (s.task p).schedClass (s.task p).prio s₃ := by
      unfold rtMutexSetprio
      dsimp only
      rw [hprio, if_neg (fun h => hnone (Or.inl h.2)), if_neg hnone, h₁]
      show checkClassChanging E p (s.task p).schedClass _ >>= _ = _
      rw [h₂]
      show putBack E p (s.task p).isQueued _ _ s₂ >>= _ = _
      rw [h₃]
      rfl
    have hcls : (s₃.task p).schedClass = setschedulerClass (s.task p).policy prio :=
      congrArg TaskAttrs.schedClass hattrs
    have hnew : (s₃.task p).prio = prio := congrArg TaskAttrs.prio hattrs
    rw [hchange, checkClassChanged_error_iff, hcls, hnew]
    constructor
    · rintro ⟨hf, hold, hc, -⟩
      exact ⟨hf, hold, congrArg some hc⟩
    · rintro ⟨hf, hold, hc⟩
      injection hc with hc
      refine ⟨hf, hold, hc, ?_⟩
      -- the call got past its early returns, so the priority is another one
      by_contra hsame
      have hsame := not_or.mp hsame
      exact hnone (Or.inl ⟨(not_not.mp hsame.1).symm, Bool.eq_false_iff.mpr hsame.2⟩)

/-- A task taken off its runqueue and put back by functions that write no more
than `f`, in the same class. -/
theorem requeue_total (f : TaskStruct → TaskStruct) (queued running : Bool) (flags : Mask)
    (ht : Trees s) (hd : (s.task p).Divides) (hbody : ∀ t, (f t).body = t.body)
    (hattrs : ∀ t, t.attrs = (s.task p).attrs → (f t).attrs = (f (s.task p)).attrs)
    (hcls : ∀ t, (f t).schedClass = t.schedClass) :
    ∃ s₁ s₃, takeOff E p s = .ok s₁ ∧
      putBack E p queued running flags (s₁.setTask p (f (s₁.task p))) = .ok s₃ ∧
      (s₃.task p).schedClass = (s.task p).schedClass := by
  obtain ⟨s₁, s₂, s₃, h₁, h₂, h₃, h₄⟩ := change_total (E := E) f queued running flags ht hd hbody hattrs
  -- the class stays, so there is no hook to call
  have hsame : s₂ = s₁.setTask p (f (s₁.task p)) := by
    have hno : ¬ ((s.task p).schedClass ≠ ((s₁.setTask p (f (s₁.task p))).task p).schedClass ∧
        ((s₁.setTask p (f (s₁.task p))).task p).schedClass = .hvf) := by
      rw [setTask_self, hcls, takeOff_schedClass h₁]
      exact fun h => h.1 rfl
    rw [checkClassChanging, if_neg hno] at h₂
    injection h₂ with h₂
    exact h₂.symm
  rw [hsame] at h₃
  refine ⟨s₁, s₃, h₁, h₃, ?_⟩
  exact (congrArg TaskAttrs.schedClass h₄).trans (hcls _)

theorem schedMoveTask_total (ht : Trees s) (hd : (s.task p).Divides) :
    ∃ s', schedMoveTask E p s = .ok s' := by
  obtain ⟨s₁, s₃, h₁, h₃, -⟩ := requeue_total (E := E) (fun t => t) (s.task p).isQueued
    (s.isCurrent p) (dequeueSave ||| dequeueMove ||| dequeueNoclock) ht hd (fun _ => rfl)
    (fun _ h => h) (fun _ => rfl)
  rw [setTask_same] at h₃
  unfold schedMoveTask
  dsimp only
  rw [h₁]
  show ∃ s', putBack E p (s.task p).isQueued (s.isCurrent p) _ s₁ >>= _ = .ok s'
  rw [h₃]
  exact ⟨_, rfl⟩

/-! ## Behind the switch -/

theorem callHook_error_iff {h : Hook} {f : Fault} :
    callHook h p s = .error f ↔ f = .nullHook ∧ (s.task p).schedClass = .hvf := by
  have hhas : (s.task p).schedClass.hasHook h = true ↔ (s.task p).schedClass ≠ .hvf := by
    cases h <;> exact bne_iff_ne
  unfold callHook
  split
  next hyes =>
    constructor
    · intro h
      cases h
    · rintro ⟨-, hcls⟩
      exact absurd hcls (hhas.mp hyes)
  next hno =>
    have hcls := not_not.mp (mt hhas.mpr hno)
    constructor
    · intro h
      injection h with h
      exact ⟨h.symm, hcls⟩
    · rintro ⟨h, -⟩
      rw [h]

/-- A hook, and then something that returns. -/
theorem callHook_bind_error_iff {h : Hook} {f : Fault} {g : Sys → Except Fault Sys}
    (hrest : (s.task p).schedClass ≠ .hvf → ∃ s', g s = .ok s') :
    callHook h p s >>= g = .error f ↔ f = .nullHook ∧ (s.task p).schedClass = .hvf := by
  rw [← callHook_error_iff (h := h)]
  cases hcall : callHook h p s with
  | error f' => exact Iff.rfl
  | ok s₁ =>
    obtain ⟨hs, hno⟩ := callHook_ok hcall
    obtain ⟨s', hs'⟩ := hrest hno
    show g s₁ = .error f ↔ _
    rw [hs, hs']
    constructor <;> intro hx <;> cases hx

theorem doSetCpusAllowed_error_iff {f : Fault} (ht : Trees s) :
    doSetCpusAllowed E p s = .error f ↔ f = .nullHook ∧ (s.task p).schedClass = .hvf := by
  obtain ⟨s₁, h₁⟩ := takeOff_total (E := E) (p := p) ht
  have hcls := takeOff_schedClass h₁
  unfold doSetCpusAllowed
  dsimp only
  rw [h₁]
  show callHook .setCpusAllowed p s₁ >>= _ = _ ↔ _
  rw [callHook_bind_error_iff, hcls]
  exact fun hno => putBack_total _ _ _ fun hhvf => absurd hhvf hno

/-- The task that is switched from is of the class, and its migration is
disabled. -/
def switchesPinned (E : Env) (c : Cpu) (mode : SchedMode) (sig : Signals) (picks : Picks) (s : Sys) :
    Prop :=
  (s.task (s.rq c).curr).schedClass = .hvf ∧ picks.pinned = true ∧
    ∃ next ∈ nextTask E c mode sig picks s, next ≠ (s.rq c).curr

/-- The task that is switched to is dead. -/
def switchesToDead (E : Env) (c : Cpu) (mode : SchedMode) (sig : Signals) (picks : Picks) (s : Sys) :
    Prop :=
  ∃ next ∈ nextTask E c mode sig picks s, (s.task next).state = taskDead

/-- A dead task has no signals to wake up for. -/
theorem leaveOf_dead_ne {mode : SchedMode} {sig : Signals} {t : TaskStruct}
    (h : t.state = taskDead) : leaveOf mode sig t ≠ .signalled := by
  have hsig : signalPendingState t.state sig = false := by
    have hnone : hasAny taskDead (taskInterruptible ||| taskWakekill) = false := by decide
    rw [signalPendingState, h, hnone]
    rfl
  unfold leaveOf
  rw [hsig]
  split
  · exact fun h => nomatch h
  · exact fun h => nomatch h

/-- Nobody dies in `__schedule`, and nobody comes back to life. -/
theorem schedule_dead_iff {mode : SchedMode} {sig : Signals} (next q : TaskId) :
    ((s.links.schedule c (leaveOf mode sig (s.task (s.rq c).curr)) next).task q).state = taskDead ↔
      (s.task q).state = taskDead := by
  rw [Links.schedule_state]
  by_cases hq : q = (s.rq c).curr
  · subst hq
    refine ⟨fun h => by_contra fun hne => Links.leave_state_ne hne h, fun h => ?_⟩
    cases hhow : leaveOf mode sig (s.task (s.rq c).curr) with
    | stay => exact h
    | signalled => exact absurd hhow (leaveOf_dead_ne h)
    | block => exact (Links.block_state _).trans h
  · rw [show s.links.leave c (s.links.rq c).curr _ = s.links.leave c (s.rq c).curr _ from rfl,
      Links.leave_task_ne _ hq]
    rfl

theorem returnToCurr_error_iff {f : Fault} :
    returnToCurr c s = .error f ↔ f = .bug ∧ (s.task (s.rq c).curr).state = taskDead := by
  unfold returnToCurr
  split
  next hdead =>
    refine ⟨fun h => ?_, fun h => ?_⟩
    · injection h with h
      exact ⟨h.symm, hdead⟩
    · rw [h.1]
  next halive => exact ⟨fun h => (nomatch h), fun h => absurd h.2 halive⟩

theorem migrateDisableSwitch_error_iff {pinned : Bool} {f : Fault} (ht : Trees s) :
    migrateDisableSwitch E p pinned s = .error f ↔
      f = .nullHook ∧ pinned = true ∧ (s.task p).schedClass = .hvf := by
  unfold migrateDisableSwitch
  split
  next hpin =>
    rw [doSetCpusAllowed_error_iff ht]
    exact and_congr_right fun _ => (and_iff_right hpin).symm
  next hfree => exact ⟨fun h => (nomatch h), fun h => absurd h.2.1 hfree⟩

/-- What `__schedule` does when the switch is made. -/
def afterSwitch (E : Env) (c : Cpu) (prev next : TaskId) (pinned : Bool) (s : Sys) :
    Except Fault Sys :=
  (if next = prev then .ok s else migrateDisableSwitch E prev pinned s) >>= returnToCurr c

theorem afterSwitch_error_iff {prev next : TaskId} {pinned : Bool} {f : Fault} (ht : Trees s) :
    afterSwitch E c prev next pinned s = .error f ↔
      (f = .nullHook ∧ next ≠ prev ∧ pinned = true ∧ (s.task prev).schedClass = .hvf) ∨
      (f = .bug ∧ (s.task (s.rq c).curr).state = taskDead ∧
        ¬ (next ≠ prev ∧ pinned = true ∧ (s.task prev).schedClass = .hvf)) := by
  have hreturns : ∀ {P : Prop}, ¬ P → (returnToCurr c s = .error f ↔
      (f = .nullHook ∧ P) ∨ (f = .bug ∧ (s.task (s.rq c).curr).state = taskDead ∧ ¬ P)) := by
    intro P hP
    rw [returnToCurr_error_iff, and_iff_left hP, or_iff_right fun h => hP h.2]
  unfold afterSwitch
  split
  next heq => exact hreturns fun h => h.1 heq
  next hne =>
    cases hmid : migrateDisableSwitch E prev pinned s with
    | error f' =>
      obtain ⟨hf, hpin⟩ := (migrateDisableSwitch_error_iff ht).mp hmid
      show Except.error f' = .error f ↔ _
      constructor
      · intro h
        injection h with h
        exact Or.inl ⟨h.symm.trans hf, hne, hpin⟩
      · rintro (⟨h, -⟩ | ⟨-, -, hno⟩)
        · rw [hf, h]
        · exact absurd ⟨hne, hpin⟩ hno
    | ok s' =>
      obtain ⟨hs, hno⟩ := migrateDisableSwitch_ok hmid
      show returnToCurr c s' = .error f ↔ _
      rw [hs]
      exact hreturns fun h => hno h.2.1 h.2.2

/-- `__schedule`, when its stages returned. -/
theorem schedule_of_stages {mode : SchedMode} {sig : Signals} {picks : Picks} {s₁ s₂ : Sys}
    {next : TaskId} (hbusy : ¬ (mode = .smIdle ∧ (s.rq c).nrRunning = 0))
    (h₁ : leavePrev E c mode sig s = .ok s₁) (hpick : pickNext s₁ c (s.rq c).curr picks = .ok next)
    (hset : putPrevSetNextTask E c (s.rq c).curr next s₁ = .ok s₂) :
    schedule E c mode sig picks s
      = afterSwitch E c (s.rq c).curr next picks.pinned (switchTo c (s.rq c).curr next s₂) := by
  unfold schedule
  dsimp only
  rw [if_neg hbusy, h₁]
  show scheduleTail E c (s.rq c).curr picks s₁ = _
  unfold scheduleTail pickNextTask
  rw [hpick]
  show (putPrevSetNextTask E c (s.rq c).curr next s₁ >>= _) >>= _ = _
  rw [hset]
  rfl

/-- What is known of the two tasks when the switch is made. -/
theorem switched {mode : SchedMode} {sig : Signals} {s₁ s₂ : Sys} {next : TaskId}
    (h₁ : leavePrev E c mode sig s = .ok s₁)
    (hset : putPrevSetNextTask E c (s.rq c).curr next s₁ = .ok s₂) :
    ((switchTo c (s.rq c).curr next s₂).task (s.rq c).curr).schedClass
        = (s.task (s.rq c).curr).schedClass ∧
      ((switchTo c (s.rq c).curr next s₂).rq c).curr = next ∧
      (((switchTo c (s.rq c).curr next s₂).task next).state = taskDead ↔
        (s.task next).state = taskDead) := by
  have hlinks := reschedule_links rfl rfl h₁ hset rfl
  refine ⟨?_, ?_, ?_⟩
  · have hl := congrArg (fun l => (l.task (s.rq c).curr).schedClass) hlinks
    exact hl.trans (Links.schedule_bits _).2
  · have hl := congrArg (fun l => (l.rq c).curr) hlinks
    exact hl.trans Links.schedule_curr_self
  · have hl := congrArg (fun l => (l.task next).state = taskDead) hlinks
    exact (Eq.to_iff hl).trans (schedule_dead_iff next next)

/-- `__schedule` stops at the hook for the mask of a task it switches from, or at
the `BUG()` behind the last call of a task it switches to. -/
theorem schedule_error_iff {s₀ : Sys} {mode : SchedMode} {sig : Signals} {picks : Picks} {f : Fault}
    (hb : Base s₀) (ho : Sorted s₀)
    (hsame : ∀ q, s₀.isLive q = s.isLive q ∧ (s₀.task q).cpu = (s.task q).cpu)
    (hok : s.picksOk c (leaveOf mode sig (s₀.task (s₀.rq c).curr) == .block) picks = true) :
    schedule E c mode sig picks s₀ = .error f ↔
      (f = .nullHook ∧ switchesPinned E c mode sig picks s₀) ∨
      (f = .bug ∧ switchesToDead E c mode sig picks s₀ ∧ ¬ switchesPinned E c mode sig picks s₀) := by
  by_cases hearly : mode = .smIdle ∧ (s₀.rq c).nrRunning = 0
  · have hnone : nextTask E c mode sig picks s₀ = none := if_pos hearly
    unfold switchesToDead switchesPinned schedule
    dsimp only
    rw [if_pos hearly, hnone]
    constructor
    · exact fun h => nomatch h
    · rintro (⟨-, -, -, next, hnext, -⟩ | ⟨-, ⟨next, hnext, -⟩, -⟩) <;> cases hnext
  obtain ⟨s₁, next, s₂, h₁, hpick, hset, ht₂⟩ := scheduleStages_total (E := E) hb ho hsame hok
  have hnext := nextTask_eq_some.mpr ⟨hearly, s₁, h₁, hpick⟩
  obtain ⟨hcls, hcurr, hstate⟩ := switched h₁ hset
  have hpins : switchesPinned E c mode sig picks s₀ ↔
      next ≠ (s₀.rq c).curr ∧ picks.pinned = true ∧ (s₀.task (s₀.rq c).curr).schedClass = .hvf := by
    unfold switchesPinned
    rw [hnext]
    constructor
    · rintro ⟨hcls, hpin, n, hn, hne⟩
      obtain rfl := Option.some.inj hn
      exact ⟨hne, hpin, hcls⟩
    · rintro ⟨hne, hpin, hcls⟩
      exact ⟨hcls, hpin, next, rfl, hne⟩
  have hdead : switchesToDead E c mode sig picks s₀ ↔ (s₀.task next).state = taskDead := by
    unfold switchesToDead
    rw [hnext]
    exact ⟨fun ⟨n, hn, h⟩ => by rwa [Option.some.inj hn], fun h => ⟨next, rfl, h⟩⟩
  rw [schedule_of_stages hearly h₁ hpick hset, afterSwitch_error_iff (ht₂.switchTo _ _), hpins, hdead,
    hcurr, hcls, hstate]

/-! ## Divisors over a run -/

/-- Every task of the class has parameters, and no parameters have the divisor
zero. -/
def Divisors (s : Sys) : Prop := ∀ p, (s.task p).Divides

/-- No divisor of zero is set. -/
def divisorsKept : Act → Prop
  | .setParams _ d1 d2 ct => (Params.mk d1 d2 ct).divisor ≠ 0
  | _ => True

instance : (a : Act) → Decidable (divisorsKept a)
  | .setState .. => inferInstanceAs (Decidable True)
  | .schedule .. => inferInstanceAs (Decidable True)
  | .doTaskDead .. => inferInstanceAs (Decidable True)
  | .finishTaskSwitch .. => inferInstanceAs (Decidable True)
  | .tick .. => inferInstanceAs (Decidable True)
  | .wake .. => inferInstanceAs (Decidable True)
  | .fork .. => inferInstanceAs (Decidable True)
  | .wakeNew .. => inferInstanceAs (Decidable True)
  | .setscheduler .. => inferInstanceAs (Decidable True)
  | .setprio .. => inferInstanceAs (Decidable True)
  | .moveTask .. => inferInstanceAs (Decidable True)
  | .setParams .. => inferInstanceAs (Decidable (_ ≠ _))

/-- What `Divisors` says of a record that has parameters. -/
def Record.Divides (r : Record) : Prop := r.parsSet = true → r.params.divisor ≠ 0

theorem Clocked.defaults_divides {x : Clocked} (h : x.record.Divides) :
    (x.defaults E).record.parsSet = true ∧ (x.defaults E).record.Divides := by
  unfold Clocked.defaults
  split
  next hset => exact ⟨hset, h⟩
  next => exact ⟨rfl, fun _ => defaultParams_divisor _⟩

theorem Clocked.putIf_divides {x : Clocked} (current running : Bool) (h : x.record.Divides) :
    (x.putIf E current running).record.Divides := by
  unfold Clocked.putIf
  split
  next => exact h
  next => exact h

theorem Clocked.clear_divides (x : Clocked) : x.clear.record.Divides := by
  unfold Clocked.clear
  split
  next =>
    intro h
    cases h
  next hunset => exact fun h => absurd h hunset

/-- A record with parameters, for a task of the class. -/
theorem TaskStruct.Divides.of_record {t : TaskStruct} {r : Record} (h : t.record = r)
    (hset : r.parsSet = true) (hr : r.Divides) : t.Divides := by
  subst h
  exact ⟨hr, fun _ => hset⟩

/-- A record of a task outside the class. -/
theorem TaskStruct.Divides.of_other {t : TaskStruct} (h : t.record.Divides)
    (hcls : t.schedClass ≠ .hvf) : t.Divides := ⟨h, fun hc => absurd hc hcls⟩

/-- A step that keeps the parameters of the task, and its class. -/
theorem TaskStruct.Divides.keep {t t' : TaskStruct} (h : t.Divides)
    (hset : t'.parsSet = t.parsSet) (hpar : t'.params = t.params)
    (hcls : t'.schedClass = t.schedClass) : t'.Divides := by
  refine ⟨?_, ?_⟩
  · rw [hset, hpar]
    exact h.divisor
  · rw [hset, hcls]
    exact h.hvf

theorem step_divides (h : Divisors s) (hok : divisorsKept a) (hstep : step E s a = some s')
    (p : TaskId) : (s'.task p).Divides := by
  have hp := h p
  have hkeep : ∀ {r : Record}, (s'.task p).record = r → r.parsSet = (s.task p).parsSet →
      r.params = (s.task p).params → (s'.task p).schedClass = (s.task p).schedClass →
      (s'.task p).Divides := by
    intro r hr hset hpar hcls
    have hset' := congrArg Record.parsSet hr
    have hpar' := congrArg Record.params hr
    exact hp.keep (hset'.trans hset) (hpar'.trans hpar) hcls
  have hrec : (s.clocked p).record.Divides := hp.divisor
  cases step_task hstep p with
  | same _ hr _ hcls _ => exact hkeep hr rfl rfl hcls
  | other _ hr _ _ hcls' =>
    refine .of_other ?_ hcls'
    rw [hr]
    exact hp.divisor
  | tick c _ _ _ hr hstill =>
    exact hkeep (congrArg Clocked.record hr) rfl rfl (hstill.schedClass p)
  | params c d1 d2 ct ha _ _ hr _ _ =>
    subst ha
    exact .of_record hr rfl fun _ => hok
  | put c how _ _ hcls hr _ hcls' _ => exact hkeep hr rfl rfl (hcls'.trans hcls.symm)
  | dispatch c how n _ _ hcls hr _ hcls' _ =>
    exact hkeep (congrArg Clocked.record hr) rfl rfl (hcls'.trans hcls.symm)
  | enter dest _ _ hcls hr _ =>
    obtain ⟨hset, hdiv⟩ := Clocked.defaults_divides (E := E) hrec
    exact .of_record (congrArg Clocked.record hr) hset hdiv
  | stay _ hcls hr hcls' _ =>
    have hset : ((s.clocked p).putIf E (s.isCurrent p) (s.task p).isRunning).record.parsSet
        = true := by
      rw [(Clocked.putIf_params ..).1]
      exact hp.hvf hcls
    have hdiv := Clocked.putIf_divides (E := E) (s.isCurrent p) (s.task p).isRunning hrec
    split at hr
    next =>
      obtain ⟨hset', hdiv'⟩ := Clocked.defaults_divides (E := E) hdiv
      exact .of_record (congrArg Clocked.record hr) hset' hdiv'
    next => exact .of_record (congrArg Clocked.record hr) hset hdiv
  | leave cls _ hne _ hr hcls' =>
    refine .of_other ?_ (by rw [hcls']; exact hne)
    have hrec' : (s'.task p).record = _ := congrArg Clocked.record hr
    rw [hrec']
    exact Clocked.clear_divides _
  | join _ _ hr _ _ =>
    obtain ⟨hset, hdiv⟩ := Clocked.defaults_divides (E := E) hrec
    split at hr
    next => exact .of_record (congrArg Clocked.record hr) hset hdiv
    next => exact .of_record (congrArg Clocked.record hr) hset hdiv
  | born c t _ _ ht htask _ =>
    rw [htask]
    refine .of_other (fun hset => absurd hset Bool.false_ne_true) ?_
    exact (schedFork_forked c ht).schedClass

theorem boot_divisors : Divisors boot := by
  intro p
  have hunset : (boot.task p).parsSet = false := by
    cases p with
    | idle c => rfl
    | task n => rfl
  refine .of_other ?_ (boot_not_hvf p)
  intro hset
  exact absurd (hunset.symm.trans hset) Bool.false_ne_true

/-! ## Whole runs -/

/-- What keeps the machine from faulting on its own data. -/
def runsOn (E : Env) (s : Sys) (a : Act) : Prop := keysKept E s a ∧ divisorsKept a

instance (E : Env) (s : Sys) (a : Act) : Decidable (runsOn E s a) :=
  inferInstanceAs (Decidable (_ ∧ _))

/-- A call that returns is no fault. -/
theorem returns_iff {x : Except Fault Sys} {f : Fault} {P : Prop} (h : ∃ s', x = .ok s') (hP : ¬ P) :
    x = .error f ↔ f = .nullHook ∧ P := by
  obtain ⟨s', hx⟩ := h
  rw [hx]
  constructor
  · intro h
    cases h
  · exact fun h => absurd h.2 hP

/-- The entry point calls through a hook the class does not have. -/
def missesHook (E : Env) (s : Sys) : Act → Prop
  | .schedule c mode sig picks => switchesPinned E c mode sig picks s
  | .doTaskDead c picks =>
    switchesPinned E c .smNone ⟨false, false⟩ picks (setTaskState (s.rq c).curr taskDead s)
  | a => callsPrioChanged s a

/-- The entry point goes on in a dead task. -/
def resumesDead (E : Env) (s : Sys) : Act → Prop
  | .schedule c mode sig picks =>
    switchesToDead E c mode sig picks s ∧ ¬ switchesPinned E c mode sig picks s
  | .doTaskDead c picks =>
    let s₀ := setTaskState (s.rq c).curr taskDead s
    switchesToDead E c .smNone ⟨false, false⟩ picks s₀ ∧
      ¬ switchesPinned E c .smNone ⟨false, false⟩ picks s₀
  | _ => False

/-- On a run that keeps the trees sorted and sets no divisor of zero, the
machine stops at a missing hook or in a dead task. -/
theorem exec_error_iff {f : Fault} (hb : Base s) (ho : Sorted s) (hd : Divisors s)
    (hen : enabled s a = true) :
    exec E s a = .error f ↔
      (f = .nullHook ∧ missesHook E s a) ∨ (f = .bug ∧ resumesDead E s a) := by
  have hhook : ∀ {x : Except Fault Sys} {P : Prop}, (x = .error f ↔ f = .nullHook ∧ P) →
      (x = .error f ↔ (f = .nullHook ∧ P) ∨ (f = .bug ∧ False)) := by
    intro x P h
    rw [and_false, or_false]
    exact h
  have hreturns : ∀ {x : Except Fault Sys}, (∃ s', x = .ok s') →
      (x = .error f ↔ (f = .nullHook ∧ False) ∨ (f = .bug ∧ False)) :=
    fun hx => hhook (returns_iff hx id)
  have hvalued : ∀ p, (s.task p).schedClass = .hvf → (s.task p).Valued :=
    fun p hcls => ⟨(hd p).hvf hcls, (hd p).divisor ((hd p).hvf hcls)⟩
  cases a with
  | setState c v => exact hreturns ⟨_, rfl⟩
  | schedule c mode sig picks =>
    simp only [enabled, Bool.and_eq_true] at hen
    refine schedule_error_iff (s := s) hb ho (fun _ => ⟨rfl, rfl⟩) ?_
    rw [← blocks_eq]
    exact hen.2
  | doTaskDead c picks =>
    simp only [enabled, Bool.and_eq_true] at hen
    have hstart : (setTaskState (s.rq c).curr taskDead s = s ∧
          (s.task (s.rq c).curr).state ≠ taskDead) ∨
        (Links.Leave.block = .block ∧ s.isLive (s.rq c).curr = true ∧
          setTaskState (s.rq c).curr taskDead s = setTaskState (s.rq c).curr taskDead s) :=
      Or.inr ⟨rfl, hen.1.1, rfl⟩
    have hdead : ((setTaskState (s.rq c).curr taskDead s).task (s.rq c).curr).state = taskDead :=
      congrArg TaskStruct.state (setTask_self ..)
    have hok : s.picksOk c (leaveOf .smNone ⟨false, false⟩
        ((setTaskState (s.rq c).curr taskDead s).task (s.rq c).curr) == .block) picks = true := by
      rw [leaveOf_dead hdead]
      exact hen.2
    exact schedule_error_iff (hb.start hstart) (ho.start hstart) (start_same hstart).2 hok
  | finishTaskSwitch c =>
    refine hreturns ?_
    unfold exec
    dsimp only
    split
    next => exact ⟨s, rfl⟩
    next => exact finishTaskSwitch_total hb
  | tick c => exact hreturns ⟨_, rfl⟩
  | wake thisCpu p mask dest =>
    exact hreturns (tryToWakeUp_total (hvalued p))
  | fork c => exact hreturns ⟨_, rfl⟩
  | wakeNew thisCpu p dest =>
    exact hreturns (wakeUpNewTask_total (hvalued p))
  | setscheduler ck p attr user pi =>
    exact hhook (map_error.trans (schedSetscheduler_error_iff hb.trees (hd p)))
  | setprio p piTask => exact hhook (rtMutexSetprio_error_iff hb.trees (hd p))
  | moveTask p => exact hreturns (schedMoveTask_total hb.trees (hd p))
  | setParams c d1 d2 ct => exact hreturns ⟨_, rfl⟩

end HvfSched
