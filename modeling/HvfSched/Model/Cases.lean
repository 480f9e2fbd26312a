import HvfSched.Model.System

/-!
# What the stages of an operation can do

The operations of the core are chains of stages that may fail. Each lemma here
takes one stage that returned and says which of its branches was taken and
what that branch called. The bookkeeping, the trees, the records, the values
and the policies are followed through the same stages, and each of them starts
from these cases: a change in one stage of the source is a change in one lemma
here.

A task that goes on running is handed to `set_next_task` with `first` clear,
and the class does nothing then (`setNextTask_false`). So the second half of a
change of attributes (`putBack_cases`) is the enqueue alone.
-/

namespace HvfSched

open Lib Sys

variable {E : Env} {s s' : Sys} {c : Cpu} {p : TaskId}

theorem liftTrap_ok {α : Type} {x : Except Trap α} {a : α} (h : liftTrap x = .ok a) :
    x = .ok a := by
  cases x with
  | ok b =>
    injection h with h
    rw [h]
  | error e => cases h

theorem setNextTask_false (E : Env) (c : Cpu) (p : TaskId) (s : Sys) :
    setNextTask E c p false s = .ok s := by
  unfold setNextTask setNextTaskHvf
  split
  next => rfl
  next => rfl

/-! ## Hooks of the class -/

theorem giveDefaults_cases (h : giveDefaults E p s = .ok s') :
    ((s.task p).parsSet = true ∧ s' = s) ∨
    ((s.task p).parsSet = false ∧ ∃ t, giveDefaultHvfValues (s.now E) (s.task p) = .ok t ∧
      s' = s.tickClock.setTask p t) := by
  unfold giveDefaults at h
  split at h
  next hset =>
    injection h with h
    exact Or.inl ⟨hset, h.symm⟩
  next hunset =>
    obtain ⟨t, ht, hs⟩ := bind_ok.mp h
    injection hs with hs
    exact Or.inr ⟨Bool.eq_false_iff.mpr hunset, t, liftTrap_ok ht, hs.symm⟩

theorem computeInit_cases (h : computeInit p s = .ok s') :
    ∃ t, computeInitSchedValue wrapv (s.task p) = .ok t ∧ s' = s.setTask p t := by
  unfold computeInit at h
  obtain ⟨t, ht, hs⟩ := bind_ok.mp h
  injection hs with hs
  exact ⟨t, liftTrap_ok ht, hs.symm⟩

/-- The entity is initialised and valued, only valued, or left as it is. -/
theorem refreshValue_cases {flags : Mask} (h : refreshValue E p flags s = .ok s') :
    (hasAny flags (enqueueInitial ||| enqueueChanged) = true ∧
      ∃ s₁, giveDefaults E p s = .ok s₁ ∧
        computeInit p (s₁.tickClock.setEntity p
          (initSchedHvfEntity (s₁.now E) (s₁.task p).hvf)) = .ok s') ∨
    (hasAny flags (enqueueInitial ||| enqueueChanged) = false ∧
      (computeInit p s = .ok s' ∨ s' = s)) := by
  unfold refreshValue at h
  split at h
  next hentry =>
    obtain ⟨s₁, h₁, h₂⟩ := bind_ok.mp h
    exact Or.inl ⟨hentry, s₁, h₁, h₂⟩
  next hplain =>
    refine Or.inr ⟨Bool.eq_false_iff.mpr hplain, ?_⟩
    split at h
    next => exact Or.inl h
    next =>
      injection h with h
      exact Or.inr h.symm

theorem dequeueIfOnRq_cases (h : dequeueIfOnRq E c p s = .ok s') :
    ((s.task p).hvf.onRq = true ∧ dequeueHvfEntity E c p s = .ok s') ∨
    ((s.task p).hvf.onRq = false ∧ s' = s) := by
  unfold dequeueIfOnRq at h
  split at h
  next hflag => exact Or.inl ⟨hflag, h⟩
  next hflag =>
    injection h with h
    exact Or.inr ⟨Bool.eq_false_iff.mpr hflag, h.symm⟩

/-- The entity is linked unless the class takes the task for the running one
or for a linked one. Both are looked at after the refresh. -/
theorem enqueueTaskHvf_cases {flags : Mask} (h : enqueueTaskHvf E c p flags s = .ok s') :
    ∃ s₁, refreshValue E p flags s = .ok s₁ ∧
      ((((s₁.rq c).hvf.curr ≠ some p ∧ (s₁.task p).hvf.onRq = false) ∧
          s' = (enqueueHvfEntity E c p s₁).addNrRunning c 1) ∨
        (¬ ((s₁.rq c).hvf.curr ≠ some p ∧ (s₁.task p).hvf.onRq = false) ∧ s' = s₁)) := by
  unfold enqueueTaskHvf at h
  obtain ⟨s₁, h₁, h₂⟩ := bind_ok.mp h
  refine ⟨s₁, h₁, ?_⟩
  split at h₂
  next hfree =>
    injection h₂ with h₂
    exact Or.inl ⟨hfree, h₂.symm⟩
  next hbusy =>
    injection h₂ with h₂
    exact Or.inr ⟨hbusy, h₂.symm⟩

/-- The task is recognised as linked, recognised as the running one on its way
to sleep, or not recognised. -/
theorem dequeueTaskHvf_cases {r : Bool × Sys} (h : dequeueTaskHvf E c p s = .ok r) :
    (((s.rq c).hvf.curr ≠ some p ∧ (s.task p).hvf.onRq = true) ∧
      ∃ s₁, dequeueHvfEntity E c p s = .ok s₁ ∧ r = (true, s₁.addNrRunning c (-1))) ∨
    (((s.rq c).hvf.curr = some p ∧ (s.task p).isRunning = false) ∧
      ∃ s₁, dequeueIfOnRq E c p s = .ok s₁ ∧
        r = (true, (s₁.addNrRunning c (-1)).setHvf c
          { ((s₁.addNrRunning c (-1)).rq c).hvf with curr := none })) ∨
    (¬ ((s.rq c).hvf.curr ≠ some p ∧ (s.task p).hvf.onRq = true) ∧
      ¬ ((s.rq c).hvf.curr = some p ∧ (s.task p).isRunning = false) ∧ r = (false, s)) := by
  unfold dequeueTaskHvf at h
  split at h
  next hlinked =>
    obtain ⟨s₁, h₁, h₂⟩ := bind_ok.mp h
    injection h₂ with h₂
    exact Or.inl ⟨hlinked, s₁, h₁, h₂.symm⟩
  next hunlinked =>
    split at h
    next hcurr =>
      obtain ⟨s₁, h₁, h₂⟩ := bind_ok.mp h
      injection h₂ with h₂
      exact Or.inr (Or.inl ⟨hcurr, s₁, h₁, h₂.symm⟩)
    next hother =>
      injection h with h
      exact Or.inr (Or.inr ⟨hunlinked, hother, h.symm⟩)

/-- A dead task of the class is unlinked on its CPU, whose `hvf_rq->curr` is
cleared; `deadPrev` is cleared in any case. -/
theorem finishTaskSwitch_cases (h : finishTaskSwitch E c p s = .ok s') :
    ((s.task p).schedClass = .hvf ∧
      ∃ s₁, dequeueIfOnRq E (s.task p).cpu p
          (s.setRq c { s.rq c with deadPrev := none }).tickClock = .ok s₁ ∧
        s' = s₁.setHvf (s.task p).cpu { (s₁.rq (s.task p).cpu).hvf with curr := none }) ∨
    ((s.task p).schedClass ≠ .hvf ∧ s' = s.setRq c { s.rq c with deadPrev := none }) := by
  unfold finishTaskSwitch at h
  dsimp only at h
  split at h
  next hcls =>
    unfold taskDeadHvf at h
    obtain ⟨s₁, h₁, h₂⟩ := bind_ok.mp h
    injection h₂ with h₂
    exact Or.inl ⟨hcls, s₁, h₁, h₂.symm⟩
  next hcls =>
    injection h with h
    exact Or.inr ⟨hcls, h.symm⟩

/-- A wakeup asks the CPU of the task to reschedule, or does nothing. -/
theorem wakeupPreempt_cases (thisCpu c : Cpu) (p : TaskId) (s : Sys) :
    wakeupPreempt thisCpu c p s = s ∨ wakeupPreempt thisCpu c p s = reschedCurr c s := by
  unfold wakeupPreempt wakeupPreemptHvf
  dsimp only
  split
  next =>
    split
    next =>
      split
      next => exact Or.inr rfl
      next => exact Or.inl rfl
    next => exact Or.inl rfl
  next =>
    split
    next => exact Or.inr rfl
    next => exact Or.inl rfl

/-! ## The core -/

theorem enqueueTask_cases {flags : Mask} (h : enqueueTask E c p flags s = .ok s') :
    ((s.task p).schedClass = .hvf ∧ enqueueTaskHvf E c p flags s = .ok s') ∨
    ((s.task p).schedClass ≠ .hvf ∧ s' = otherEnqueue (s.task p).schedClass c s) := by
  unfold enqueueTask at h
  split at h
  next hcls => exact Or.inl ⟨hcls, h⟩
  next hcls =>
    injection h with h
    exact Or.inr ⟨hcls, h.symm⟩

theorem dequeueTask_cases {r : Bool × Sys} (h : dequeueTask E c p s = .ok r) :
    ((s.task p).schedClass = .hvf ∧ dequeueTaskHvf E c p s = .ok r) ∨
    ((s.task p).schedClass ≠ .hvf ∧ r = (true, otherDequeue (s.task p).schedClass c s)) := by
  unfold dequeueTask at h
  split at h
  next hcls => exact Or.inl ⟨hcls, h⟩
  next hcls =>
    injection h with h
    exact Or.inr ⟨hcls, h.symm⟩

/-- A task of the class that takes the CPU is unlinked, stamped, and made
`hvf_rq->curr`. -/
theorem setNextTask_cases (h : setNextTask E c p true s = .ok s') :
    ((s.task p).schedClass = .hvf ∧ ∃ s₁, dequeueIfOnRq E c p s = .ok s₁ ∧
      s' = (s₁.tickClock.setEntity p (updateLatestSeHvf (s₁.now E) (s₁.task p).hvf)).setHvf c
        { (s₁.rq c).hvf with curr := some p }) ∨
    ((s.task p).schedClass ≠ .hvf ∧ s' = s) := by
  unfold setNextTask at h
  split at h
  next hcls =>
    rw [setNextTaskHvf, if_pos rfl, setNextHvfEntity] at h
    obtain ⟨s₁, h₁, h₂⟩ := bind_ok.mp h
    injection h₂ with h₂
    exact Or.inl ⟨hcls, s₁, h₁, h₂.symm⟩
  next hcls =>
    injection h with h
    exact Or.inr ⟨hcls, h.symm⟩

theorem activateTask_cases {flags : Mask} (h : activateTask E c p flags s = .ok s') :
    ∃ s₁, enqueueTask E c p
        (if (s.task p).onRq = .migrating then flags ||| enqueueMigrated else flags) s = .ok s₁ ∧
      s' = setOnRq p .queued s₁ := by
  unfold activateTask at h
  obtain ⟨s₁, h₁, h₂⟩ := bind_ok.mp h
  injection h₂ with h₂
  exact ⟨s₁, h₁, h₂.symm⟩

theorem blockTask_cases (h : blockTask E c p s = .ok s') :
    ∃ b s₁, dequeueTask E c p s = .ok (b, s₁) ∧ s' = if b then setOnRq p .off s₁ else s₁ := by
  unfold blockTask at h
  obtain ⟨⟨b, s₁⟩, h₁, h₂⟩ := bind_ok.mp h
  injection h₂ with h₂
  exact ⟨b, s₁, h₁, h₂.symm⟩

/-- The running task is made runnable by a signal, blocks, or stays. -/
theorem leavePrev_cases {mode : SchedMode} {sig : Signals}
    (h : leavePrev E c mode sig s = .ok s') :
    (triesToBlock mode (s.task (s.rq c).curr) = true ∧
      ((signalPendingState (s.task (s.rq c).curr).state sig = true ∧
          s' = setTaskState (s.rq c).curr taskRunning s) ∨
        (signalPendingState (s.task (s.rq c).curr).state sig = false ∧
          blockTask E c (s.rq c).curr s = .ok s'))) ∨
    (triesToBlock mode (s.task (s.rq c).curr) = false ∧ s' = s) := by
  unfold leavePrev tryToBlockTask at h
  dsimp only at h
  split at h
  next htry =>
    refine Or.inl ⟨htry, ?_⟩
    split at h
    next hsig =>
      injection h with h
      exact Or.inl ⟨hsig, h.symm⟩
    next hsig => exact Or.inr ⟨Bool.eq_false_iff.mpr hsig, h⟩
  next htry =>
    injection h with h
    exact Or.inr ⟨Bool.eq_false_iff.mpr htry, h.symm⟩

theorem putPrevSetNextTask_cases {prev next : TaskId}
    (h : putPrevSetNextTask E c prev next s = .ok s') :
    (next = prev ∧ s' = s) ∨
    (next ≠ prev ∧ setNextTask E c next true (putPrevTask E c prev s) = .ok s') := by
  unfold putPrevSetNextTask at h
  split at h
  next heq =>
    injection h with h
    exact Or.inl ⟨heq, h.symm⟩
  next hne => exact Or.inr ⟨hne, h⟩

/-! ## The halves of a change of attributes -/

/-- The task is dequeued if it is queued, and put if it is running. -/
theorem takeOff_cases (h : takeOff E p s = .ok s') :
    ∃ s₁, (((s.task p).isQueued = true ∧ ∃ b, dequeueTask E (s.task p).cpu p s = .ok (b, s₁)) ∨
        ((s.task p).isQueued = false ∧ s₁ = s)) ∧
      s' = if s.isCurrent p then putPrevTask E (s.task p).cpu p s₁ else s₁ := by
  unfold takeOff at h
  obtain ⟨s₁, h₁, h₂⟩ := bind_ok.mp h
  injection h₂ with h₂
  refine ⟨s₁, ?_, h₂.symm⟩
  split at h₁
  next hq =>
    obtain ⟨⟨b, s₂⟩, hr, hs⟩ := map_ok.mp h₁
    have hs : s₂ = s₁ := hs
    subst hs
    exact Or.inl ⟨hq, b, hr⟩
  next hq =>
    injection h₁ with h₁
    exact Or.inr ⟨Bool.eq_false_iff.mpr hq, h₁.symm⟩

theorem putBack_cases {queued running : Bool} {flags : Mask}
    (h : putBack E p queued running flags s = .ok s') :
    (queued = true ∧ enqueueTask E (s.task p).cpu p flags s = .ok s') ∨
    (queued = false ∧ s' = s) := by
  unfold putBack at h
  obtain ⟨s₁, h₁, h₂⟩ := bind_ok.mp h
  rw [setNextTask_false, ite_self] at h₂
  injection h₂ with h₂
  subst h₂
  split at h₁
  next hq => exact Or.inl ⟨hq, h₁⟩
  next hq =>
    injection h₁ with h₁
    exact Or.inr ⟨Bool.eq_false_iff.mpr hq, h₁.symm⟩

/-- The `switching_to` hook runs for a task that comes into the class. -/
theorem checkClassChanging_cases {cls : SchedClass} (h : checkClassChanging E p cls s = .ok s') :
    ((cls ≠ .hvf ∧ (s.task p).schedClass = .hvf) ∧ giveDefaults E p s = .ok s') ∨
    (¬ (cls ≠ .hvf ∧ (s.task p).schedClass = .hvf) ∧ s' = s) := by
  unfold checkClassChanging switchingToHvf at h
  split at h
  next hnew =>
    have hold : cls ≠ .hvf := fun e => hnew.1 (e.trans hnew.2.symm)
    exact Or.inl ⟨⟨hold, hnew.2⟩, h⟩
  next hsame =>
    injection h with h
    refine Or.inr ⟨?_, h.symm⟩
    rintro ⟨hold, hnew⟩
    exact hsame ⟨fun e => hold (e.trans hnew), hnew⟩

/-- The `switched_from` hook runs for a task that left the class. -/
theorem checkClassChanged_cases {cls : SchedClass} {prio : Int}
    (h : checkClassChanged p cls prio s = .ok s') :
    ((cls = .hvf ∧ (s.task p).schedClass ≠ .hvf) ∧ s' = switchedFromHvf p s) ∨
    (¬ (cls = .hvf ∧ (s.task p).schedClass ≠ .hvf) ∧ s' = s) := by
  unfold checkClassChanged at h
  dsimp only at h
  split at h
  next hne =>
    injection h with h
    by_cases hold : cls = .hvf
    · have hnew : (s.task p).schedClass ≠ .hvf := fun e => hne (hold.trans e.symm)
      rw [if_pos hold] at h
      exact Or.inl ⟨⟨hold, hnew⟩, h.symm⟩
    · rw [if_neg hold] at h
      exact Or.inr ⟨fun hc => hold hc.1, h.symm⟩
  next heq =>
    have heq := not_not.mp heq
    refine Or.inr ⟨fun hc => hc.2 (heq.symm.trans hc.1), ?_⟩
    -- a change of priority alone reaches the missing hook, or nothing
    split at h
    next =>
      split at h
      next => cases h
      next =>
        injection h with h
        exact h.symm
    next =>
      injection h with h
      exact h.symm

/-! ## Tasks of other classes -/

theorem takeOff_other_eq (hcls : (s.task p).schedClass ≠ .hvf) :
    takeOff E p s = .ok (if (s.task p).isQueued
      then otherDequeue (s.task p).schedClass (s.task p).cpu s else s) := by
  have hput : ∀ x : Sys, x.task = s.task → (if s.isCurrent p then putPrevTask E (s.task p).cpu p x else x) = x := by
    intro x hx
    have hno : ¬ (x.task p).schedClass = .hvf := by
      rw [hx]
      exact hcls
    rw [putPrevTask, if_neg hno, ite_self]
  have hdeq : dequeueTask E (s.task p).cpu p s
      = .ok (true, otherDequeue (s.task p).schedClass (s.task p).cpu s) := if_neg hcls
  unfold takeOff
  dsimp only
  split
  next =>
    rw [hdeq]
    exact congrArg Except.ok (hput _ rfl)
  next => exact congrArg Except.ok (hput s rfl)

/-- Taking a task of another class off the runqueue writes no task. -/
theorem takeOff_other_task (hcls : (s.task p).schedClass ≠ .hvf) (h : takeOff E p s = .ok s') :
    s'.task = s.task := by
  rw [takeOff_other_eq hcls] at h
  injection h with h
  rw [← h]
  split
  next => rfl
  next => rfl

theorem otherEnqueue_otherDequeue (cls : SchedClass) (c : Cpu) (s : Sys) :
    otherEnqueue cls c (otherDequeue cls c s) = s := by
  have hrq : (otherEnqueue cls c (otherDequeue cls c s)).rq = s.rq := by
    funext d
    unfold otherEnqueue otherDequeue
    dsimp only
    rw [setRq_rq, setRq_rq, setRq_rq, if_pos rfl]
    by_cases hd : d = c
    · rw [if_pos hd, hd]
      by_cases hfair : cls = .fair
      · simp [hfair]
      · simp [hfair]
    · rw [if_neg hd, if_neg hd]
  calc otherEnqueue cls c (otherDequeue cls c s)
      = { s with rq := (otherEnqueue cls c (otherDequeue cls c s)).rq } := rfl
    _ = s := by rw [hrq]

/-- For a task of another class the halves cancel out. -/
theorem requeue_other {t : TaskStruct} {s₁ : Sys} {running : Bool} {flags : Mask}
    (hcls : (s.task p).schedClass ≠ .hvf) (hsame : t.schedClass = (s.task p).schedClass)
    (hcpu : t.cpu = (s.task p).cpu) (hoff : takeOff E p s = .ok s₁)
    (hback : putBack E p (s.task p).isQueued running flags (s₁.setTask p t) = .ok s') :
    s' = s.setTask p t := by
  rw [takeOff_other_eq hcls] at hoff
  injection hoff with hoff
  have henq : ∀ x : Sys, enqueueTask E t.cpu p flags (x.setTask p t)
      = .ok ((otherEnqueue (s.task p).schedClass (s.task p).cpu x).setTask p t) := by
    intro x
    have hno : ¬ ((x.setTask p t).task p).schedClass = .hvf := by
      rw [setTask_self, hsame]
      exact hcls
    rw [enqueueTask, if_neg hno, setTask_self, hsame, hcpu]
    rfl
  have hmid : (if (s.task p).isQueued then enqueueTask E t.cpu p flags (s₁.setTask p t)
      else .ok (s₁.setTask p t)) = .ok (s.setTask p t) := by
    split
    next hq => rw [henq, ← hoff, if_pos hq, otherEnqueue_otherDequeue]
    next hq => rw [← hoff, if_neg hq]
  unfold putBack at hback
  dsimp only at hback
  rw [setTask_self, hmid] at hback
  have hback : (if running then setNextTask E t.cpu p false (s.setTask p t) else .ok (s.setTask p t))
    = .ok s' := hback
  rw [setNextTask_false, ite_self] at hback
  injection hback with hback
  exact hback.symm

theorem callHook_ok {h : Hook} (hcall : callHook h p s = .ok s') :
    s' = s ∧ (s.task p).schedClass ≠ .hvf := by
  unfold callHook at hcall
  split at hcall
  next hhas =>
    injection hcall with hcall
    refine ⟨hcall.symm, ?_⟩
    intro hcls
    rw [hcls] at hhas
    cases h <;> cases hhas
  next => cases hcall

end HvfSched
