import HvfSched.Links.Machine
import HvfSched.Model.Cases

/-!
# Every step of the machine is a step of the bookkeeping

One equation per hook, `links_…`: what a hook that returns does to
`Sys.links` is the operation of the same name of `Links`. A function that
only rewrites values, times and parameters leaves the bookkeeping alone. The
equations of the entry points are composed from those of the hooks they call.
-/

namespace HvfSched

open Lib

variable {E : Env} {s s' : Sys} {c : Cpu} {p : TaskId}

namespace Sys

@[simp] theorem links_task (s : Sys) (p : TaskId) : s.links.task p = (s.task p).link := rfl

@[simp] theorem links_rq (s : Sys) (c : Cpu) : s.links.rq c = (s.rq c).link := rfl

@[simp] theorem links_nextPid (s : Sys) : s.links.nextPid = s.nextPid := rfl

@[simp] theorem links_tickClock (s : Sys) : s.tickClock.links = s.links := rfl

theorem links_setTask (s : Sys) (p : TaskId) (t : TaskStruct) :
    (s.setTask p t).links = s.links.setTask p t.link := by
  have h : (fun q => ((s.setTask p t).task q).link)
      = fun q => if q = p then t.link else (s.task q).link := by
    funext q
    rw [setTask_task]
    split
    next => rfl
    next => rfl
  rw [Links.setTask, links, h]
  rfl

theorem links_setRq (s : Sys) (c : Cpu) (r : Rq) :
    (s.setRq c r).links = s.links.setRq c r.link := by
  have h : (fun d => ((s.setRq c r).rq d).link)
      = fun d => if d = c then r.link else (s.rq d).link := by
    funext d
    rw [setRq_rq]
    split
    next => rfl
    next => rfl
  rw [Links.setRq, links, h]
  rfl

/-- A write that keeps the bits of the task is invisible. -/
theorem links_setTask_same {t : TaskStruct} (h : t.link = (s.task p).link) :
    (s.setTask p t).links = s.links := by
  rw [links_setTask, h]
  exact Links.setTask_same p s.links

/-- A write that keeps the bits of the runqueue is invisible. -/
theorem links_setRq_same {r : Rq} (h : r.link = (s.rq c).link) :
    (s.setRq c r).links = s.links := by
  rw [links_setRq, h]
  exact Links.setRq_same c s.links

theorem links_setEntity (s : Sys) (p : TaskId) (e : SchedHvfEntity) :
    (s.setEntity p e).links = s.links.setLinked p e.onRq := links_setTask s p _

theorem links_setHvf (s : Sys) (c : Cpu) (h : HvfRq) :
    (s.setHvf c h).links = s.links.setHvfCurr c h.curr := links_setRq s c _

/-- A write to the entity that keeps the flag is invisible. -/
theorem links_setEntity_same {e : SchedHvfEntity} (h : e.onRq = (s.task p).hvf.onRq) :
    (s.setEntity p e).links = s.links := by
  apply links_setTask_same
  unfold TaskStruct.link
  rw [h]

/-- A write to the queue that keeps `hvf_rq->curr` is invisible. -/
theorem links_setHvf_same {h : HvfRq} (hc : h.curr = (s.rq c).hvf.curr) :
    (s.setHvf c h).links = s.links := by
  apply links_setRq_same
  unfold Rq.link
  rw [hc]

theorem links_addNrRunning (s : Sys) (c : Cpu) (n : Int) :
    (s.addNrRunning c n).links = s.links.addNr c n := links_setRq s c _

end Sys

open Sys

/-! ## Entities -/

theorem penaltyIfExceeded_link (t : TaskStruct) : (penaltyIfExceeded t).link = t.link := by
  unfold penaltyIfExceeded
  split
  next => rfl
  next => rfl

theorem reduceIfExpired_onRq (se : SchedHvfEntity) : (reduceIfExpired se).onRq = se.onRq := by
  unfold reduceIfExpired
  split
  next => rfl
  next => rfl

theorem links_enqueueHvfEntity (E : Env) (c : Cpu) (p : TaskId) (s : Sys) :
    (enqueueHvfEntity E c p s).links = s.links.setLinked p true := by
  unfold enqueueHvfEntity
  dsimp only
  rw [links_setHvf_same (by rfl), links_setEntity,
    links_setTask_same (penaltyIfExceeded_link (s.task p))]

theorem dequeueHvfEntity_ok (h : dequeueHvfEntity E c p s = .ok s') :
    p ∈ s.queue c ∧ s'.links = s.links.setLinked p false := by
  unfold dequeueHvfEntity at h
  dsimp only at h
  split at h
  next hp =>
    injection h with h
    refine ⟨hp, ?_⟩
    rw [← h, links_setHvf_same (by rfl), links_setEntity]
  next => cases h

theorem links_dequeueIfOnRq (h : dequeueIfOnRq E c p s = .ok s') :
    s'.links = s.links.setLinked p false := by
  unfold dequeueIfOnRq at h
  split at h
  next => exact (dequeueHvfEntity_ok h).2
  next hflag =>
    injection h with h
    rw [← h, Links.setLinked]
    have hbit : ({ s.links.task p with linked := false } : TaskLink) = s.links.task p := by
      rw [links_task, TaskStruct.link, Bool.eq_false_iff.mpr hflag]
    rw [hbit, Links.setTask_same]

theorem computeInitSchedValue_link {t t' : TaskStruct}
    (h : computeInitSchedValue wrapv t = .ok t') : t'.link = t.link := by
  unfold computeInitSchedValue at h
  obtain ⟨v, _, hv⟩ := bind_ok.mp h
  injection hv with hv
  rw [← hv]
  rfl

theorem giveDefaultHvfValues_link {now : Timespec64} {t t' : TaskStruct}
    (h : giveDefaultHvfValues now t = .ok t') : t'.link = t.link := by
  unfold giveDefaultHvfValues at h
  split at h
  next =>
    injection h with h
    rw [h]
  next =>
    have hlink := computeInitSchedValue_link h
    exact hlink

theorem links_giveDefaults (h : giveDefaults E p s = .ok s') : s'.links = s.links := by
  rcases giveDefaults_cases h with ⟨-, hs⟩ | ⟨-, t, ht, hs⟩
  · rw [hs]
  · rw [hs, ← links_tickClock s]
    exact links_setTask_same (giveDefaultHvfValues_link ht)

theorem links_computeInit (h : computeInit p s = .ok s') : s'.links = s.links := by
  obtain ⟨t, ht, hs⟩ := computeInit_cases h
  rw [hs]
  exact links_setTask_same (computeInitSchedValue_link ht)

theorem links_refreshValue {flags : Mask} (h : refreshValue E p flags s = .ok s') :
    s'.links = s.links := by
  rcases refreshValue_cases h with ⟨-, s₁, h₁, h₂⟩ | ⟨-, h₁ | hs⟩
  · rw [links_computeInit h₂, links_setEntity_same (by rfl), links_tickClock]
    exact links_giveDefaults h₁
  · exact links_computeInit h₁
  · rw [hs]

/-! ## Hooks -/

theorem isRunning_iff (t : TaskStruct) : t.isRunning = true ↔ t.state = taskRunning := by
  simp [TaskStruct.isRunning]

theorem links_enqueueTask {flags : Mask} (h : enqueueTask E c p flags s = .ok s') :
    s'.links = s.links.enqueue c p := by
  rcases enqueueTask_cases h with ⟨hcls, he⟩ | ⟨hcls, hs⟩
  · obtain ⟨s₁, h₁, h₂⟩ := enqueueTaskHvf_cases he
    have hl := links_refreshValue h₁
    have hcls₁ : (s₁.links.task p).schedClass = .hvf := by
      rw [hl]
      exact hcls
    -- the test is made after the refresh, which does not change its answer
    rw [← hl]
    rcases h₂ with ⟨hfree, hs⟩ | ⟨hbusy, hs⟩
    · rw [Links.enqueue_free hcls₁ hfree.1 hfree.2, hs, links_addNrRunning, links_enqueueHvfEntity]
    · rw [Links.enqueue_busy hcls₁ hbusy, hs]
  · have hother := Links.enqueue_other (l := s.links) (c := c) (p := p) hcls
    rw [hother, hs]
    exact links_setRq s c _

theorem links_dequeueTask {r : Bool × Sys} (h : dequeueTask E c p s = .ok r) :
    (r.1, r.2.links) = s.links.dequeue c p := by
  rcases dequeueTask_cases h with ⟨hcls, hd⟩ | ⟨hcls, hr⟩
  · have hcls' : (s.links.task p).schedClass = .hvf := hcls
    rcases dequeueTaskHvf_cases hd with ⟨hlinked, s₁, h₁, hr⟩ | ⟨hcurr, s₁, h₁, hr⟩ |
      ⟨hunlinked, hother, hr⟩
    · rw [Links.dequeue_linked hcls' hlinked.1 hlinked.2, hr, links_addNrRunning,
        (dequeueHvfEntity_ok h₁).2]
    · have hsleep : (s.links.task p).state ≠ taskRunning := fun hrun =>
        absurd ((isRunning_iff _).mpr hrun) (by rw [hcurr.2]; decide)
      rw [Links.dequeue_curr hcls' hcurr.1 hsleep, hr]
      dsimp only
      rw [links_setHvf, links_addNrRunning, links_dequeueIfOnRq h₁]
    · rw [Links.dequeue_missed hcls' hunlinked, hr]
      intro hmiss
      refine hother ⟨hmiss.1, Bool.eq_false_iff.mpr ?_⟩
      exact fun hrun => hmiss.2 ((isRunning_iff _).mp hrun)
  · have hother := Links.dequeue_other (l := s.links) (c := c) (p := p) hcls
    rw [hother, hr]
    dsimp only
    rw [otherDequeue, links_setRq]
    rfl

theorem links_putPrevHvfEntity (E : Env) (c : Cpu) (p : TaskId) (s : Sys) :
    (putPrevHvfEntity E c p s).links = (s.links.setLinked p true).setHvfCurr c none := by
  unfold putPrevHvfEntity
  dsimp only
  rw [links_setHvf]
  split
  next hflag =>
    have hsame : s.links.setLinked p true = s.links := by
      rw [Links.setLinked, ← hflag]
      exact Links.setTask_same p s.links
    rw [hsame]
  next => rw [links_enqueueHvfEntity]

theorem links_putPrevTask (E : Env) (c : Cpu) (p : TaskId) (s : Sys) :
    (putPrevTask E c p s).links = s.links.put c p := by
  unfold putPrevTask
  split
  next hcls =>
    unfold putPrevTaskHvf
    dsimp only
    -- the time accounting first: it leaves state, flag and queue alone
    have hused : ((s.tickClock).setEntity p (updateUsedSeHvf (s.now E) (s.task p).hvf)).links
        = s.links := links_setEntity_same (by rfl)
    generalize (s.tickClock).setEntity p (updateUsedSeHvf (s.now E) (s.task p).hvf) = s₁ at hused ⊢
    have hcls₁ : (s₁.links.task p).schedClass = .hvf := by
      rw [hused]
      exact hcls
    rw [← hused]
    split
    next hrun =>
      rw [Links.put_running hcls₁ ((isRunning_iff _).mp hrun), links_putPrevHvfEntity,
        links_setEntity_same (reduceIfExpired_onRq _)]
    next hrun =>
      rw [Links.put_idle]
      rintro ⟨-, hstate⟩
      exact hrun ((isRunning_iff _).mpr hstate)
  next hcls =>
    rw [Links.put_idle]
    rintro ⟨hc, -⟩
    exact hcls hc

theorem links_setNextTask (h : setNextTask E c p true s = .ok s') :
    s'.links = s.links.setNext c p := by
  rcases setNextTask_cases h with ⟨hcls, s₁, h₁, hs⟩ | ⟨hcls, hs⟩
  · have hnext := Links.setNext_hvf (l := s.links) (c := c) (p := p) hcls
    rw [hnext, hs, links_setHvf, links_setEntity_same (by rfl), links_tickClock,
      links_dequeueIfOnRq h₁]
  · have hnext := Links.setNext_other (l := s.links) (c := c) (p := p) hcls
    rw [hnext, hs]

/-! ## The core -/

theorem links_setOnRq (p : TaskId) (v : OnRq) (s : Sys) :
    (setOnRq p v s).links = s.links.setOnRq p v := links_setTask s p _

theorem links_setOnCpu (p : TaskId) (v : Bool) (s : Sys) :
    (setOnCpu p v s).links = s.links.setOnCpu p v := links_setTask s p _

theorem links_setTaskState (p : TaskId) (v : Mask) (s : Sys) :
    (setTaskState p v s).links = s.links.setState p v := links_setTask s p _

theorem links_setTaskCpu (p : TaskId) (c : Cpu) (s : Sys) :
    (setTaskCpu p c s).links = s.links.setCpu p c := links_setTask s p _

theorem links_activateTask {flags : Mask} (h : activateTask E c p flags s = .ok s') :
    s'.links = s.links.activate c p := by
  obtain ⟨s₁, h₁, hs⟩ := activateTask_cases h
  rw [hs, links_setOnRq, links_enqueueTask h₁, Links.activate]

theorem links_blockTask (h : blockTask E c p s = .ok s') : s'.links = s.links.block c p := by
  obtain ⟨b, s₁, h₁, hs⟩ := blockTask_cases h
  rw [Links.block, ← links_dequeueTask h₁, hs]
  dsimp only
  split
  next => rw [links_setOnRq]
  next => rfl

/-- What `__schedule` does with the task `t` that runs, in this mode and with
these signals. -/
def leaveOf (mode : SchedMode) (sig : Signals) (t : TaskStruct) : Links.Leave :=
  if triesToBlock mode t then
    if signalPendingState t.state sig then .signalled else .block
  else .stay

theorem links_leavePrev {mode : SchedMode} {sig : Signals} (h : leavePrev E c mode sig s = .ok s') :
    s'.links
      = s.links.leave c (s.rq c).curr (leaveOf mode sig (s.task (s.rq c).curr)) := by
  unfold leaveOf
  rcases leavePrev_cases h with ⟨htry, ⟨hsig, hs⟩ | ⟨hsig, hb⟩⟩ | ⟨htry, hs⟩
  · rw [if_pos htry, if_pos hsig, hs, links_setTaskState]
    rfl
  · rw [if_pos htry, if_neg (Bool.eq_false_iff.mp hsig), links_blockTask hb]
    rfl
  · rw [if_neg (Bool.eq_false_iff.mp htry), hs]
    rfl

theorem links_putPrevSetNextTask {prev next : TaskId}
    (h : putPrevSetNextTask E c prev next s = .ok s') :
    s'.links = s.links.putSetNext c prev next := by
  unfold Links.putSetNext
  rcases putPrevSetNextTask_cases h with ⟨heq, hs⟩ | ⟨hne, hset⟩
  · rw [if_pos heq, hs]
  · rw [if_neg hne, links_setNextTask hset, links_putPrevTask]

theorem links_switchTo (c : Cpu) (prev next : TaskId) (s : Sys) :
    (switchTo c prev next s).links = s.links.switchTo c prev next := by
  unfold switchTo Links.switchTo
  split
  next => exact links_setRq_same (by rfl)
  next =>
    have hl : (setOnCpu next true (setOnCpu prev false s)).links
        = (s.links.setOnCpu prev false).setOnCpu next true := by
      rw [links_setOnCpu, links_setOnCpu]
    dsimp only
    rw [← hl]
    exact links_setRq _ c _

theorem links_finishTaskSwitch (h : finishTaskSwitch E c p s = .ok s') :
    s'.links = s.links.bury c p := by
  have hl : (s.setRq c { s.rq c with deadPrev := none }).links
      = s.links.setRq c { s.links.rq c with deadPrev := none } := links_setRq s c _
  unfold Links.bury
  dsimp only
  rw [← hl]
  rcases finishTaskSwitch_cases h with ⟨hcls, s₁, h₁, hs⟩ | ⟨hcls, hs⟩
  · rw [if_pos (by exact hcls), hs, links_setHvf, links_dequeueIfOnRq h₁]
    rfl
  · rw [if_neg (by exact hcls), hs]

theorem links_schedTick (E : Env) (c : Cpu) (s : Sys) : (schedTick E c s).links = s.links := by
  unfold schedTick
  dsimp only
  split
  next =>
    unfold taskTickHvf reschedCurr
    dsimp only
    split
    next => rw [links_setRq_same (by rfl), links_setEntity_same (by rfl)]
    next => rw [links_setEntity_same (by rfl)]
  next => rfl

/-! ## Wakeups and forks -/

theorem links_wakeupPreempt (thisCpu c : Cpu) (p : TaskId) (s : Sys) :
    (wakeupPreempt thisCpu c p s).links = s.links := by
  rcases wakeupPreempt_cases thisCpu c p s with hs | hs
  · rw [hs]
  · rw [hs]
    exact links_setRq_same (by rfl)

/-- The bits of a child: it is off every runqueue, in the fair or the
real-time class, and carries the flag of its parent. -/
structure ForkedFrom (parent : TaskLink) (c : Cpu) (t : TaskLink) : Prop where
  state : t.state = taskNew
  onRq : t.onRq = .off
  onCpu : t.onCpu = false
  cpu : t.cpu = c
  schedClass : t.schedClass ≠ .hvf
  linked : t.linked = parent.linked

theorem revertOnFork_link (t : TaskStruct) : (revertOnFork t).link = t.link := by
  unfold revertOnFork
  split
  next =>
    dsimp only
    split
    next => rfl
    next =>
      split
      next => rfl
      next => rfl
  next => rfl

theorem schedFork_forked {parent t : TaskStruct} (c : Cpu) (h : schedFork parent = some t) :
    ForkedFrom parent.link c (finishChild c t).link := by
  unfold schedFork at h
  dsimp only at h
  have hrev := revertOnFork_link
    { parent with onRq := .off, state := taskNew, prio := parent.normalPrio }
  generalize revertOnFork
    { parent with onRq := .off, state := taskNew, prio := parent.normalPrio } = r at h hrev
  split at h
  next => cases h
  next =>
    injection h with h
    subst h
    have hstate := congrArg TaskLink.state hrev
    have honrq := congrArg TaskLink.onRq hrev
    have hlinked := congrArg TaskLink.linked hrev
    refine ⟨hstate, honrq, rfl, rfl, ?_, hlinked⟩
    show (if rtPrio r.prio = true then SchedClass.rt else SchedClass.fair) ≠ .hvf
    split
    next => decide
    next => decide

theorem links_addTask (t : TaskStruct) (s : Sys) : (addTask t s).links = s.links.fork t.link := by
  rw [Links.fork, links_nextPid, ← links_setTask]
  rfl

/-! ## Class changes -/

theorem isQueued_iff (t : TaskStruct) : t.isQueued = true ↔ t.onRq = .queued := by
  simp [TaskStruct.isQueued]

theorem isCurrent_iff (s : Sys) (p : TaskId) :
    s.isCurrent p = true ↔ (s.rq (s.task p).cpu).curr = p := by
  simp [Sys.isCurrent]

theorem links_takeOff (h : takeOff E p s = .ok s') : s'.links = s.links.takeOff p := by
  obtain ⟨s₁, h₁, hs⟩ := takeOff_cases h
  have hdeq : s₁.links = if (s.links.task p).onRq = .queued
      then (s.links.dequeue (s.links.task p).cpu p).2 else s.links := by
    rcases h₁ with ⟨hq, b, hr⟩ | ⟨hq, h₁⟩
    · rw [if_pos (by exact (isQueued_iff _).mp hq)]
      exact congrArg Prod.snd (links_dequeueTask hr)
    · rw [if_neg (by exact fun hon => Bool.eq_false_iff.mp hq ((isQueued_iff _).mpr hon)), h₁]
  unfold Links.takeOff
  dsimp only
  rw [← hdeq, hs]
  split
  next hcur => rw [if_pos (by exact (isCurrent_iff _ _).mp hcur), links_putPrevTask]; rfl
  next hcur => rw [if_neg (by exact fun hr => hcur ((isCurrent_iff _ _).mpr hr))]

theorem links_putBack {queued running : Bool} {flags : Mask}
    (h : putBack E p queued running flags s = .ok s') :
    s'.links = if queued = true then s.links.enqueue (s.task p).cpu p else s.links := by
  rcases putBack_cases h with ⟨hq, he⟩ | ⟨hq, hs⟩
  · rw [if_pos hq, links_enqueueTask he]
  · rw [if_neg (Bool.eq_false_iff.mp hq), hs]

theorem links_checkClassChanging {cls : SchedClass} (h : checkClassChanging E p cls s = .ok s') :
    s'.links = s.links := by
  rcases checkClassChanging_cases h with ⟨-, hg⟩ | ⟨-, hs⟩
  · exact links_giveDefaults hg
  · rw [hs]

/-- The two halves of a change around a write of the class. -/
theorem links_change {s₁ s₂ : Sys} {running : Bool} {flags : Mask} {cls : SchedClass}
    (hoff : takeOff E p s = .ok s₁) (hmid : s₂.links = s₁.links.setClass p cls)
    (hback : putBack E p (s.task p).isQueued running flags s₂ = .ok s') :
    s'.links = s.links.change p cls := by
  have hl₁ := links_takeOff hoff
  have hcpu : (s₂.task p).cpu = (s.task p).cpu := by
    have hc : (s₂.links.task p).cpu = (s₁.links.task p).cpu := by
      rw [hmid, Links.setClass, Links.setTask_task, if_pos rfl]
    rw [hl₁, (Links.takeOff_frame p s.links).cpu] at hc
    exact hc
  rw [links_putBack hback, hcpu, hmid, hl₁, Links.change]
  by_cases hq : (s.task p).onRq = .queued
  · rw [if_pos ((isQueued_iff _).mpr hq), if_pos (by exact hq)]
    rfl
  · rw [if_neg (fun h => hq ((isQueued_iff _).mp h)), if_neg (by exact hq)]

theorem takeOff_schedClass (h : takeOff E p s = .ok s') :
    (s'.task p).schedClass = (s.task p).schedClass := by
  have hl := congrArg (fun l => (l.task p).schedClass) (links_takeOff h)
  exact hl.trans ((Links.takeOff_frame p s.links).schedClass p)

/-! ## `__schedule` -/

/-- A change of the allowed CPUs returns for a task of another class only, and
leaves no trace. -/
theorem doSetCpusAllowed_ok (h : doSetCpusAllowed E p s = .ok s') :
    s' = s ∧ (s.task p).schedClass ≠ .hvf := by
  unfold doSetCpusAllowed at h
  obtain ⟨s₁, h₁, h⟩ := bind_ok.mp h
  obtain ⟨s₂, h₂, h⟩ := bind_ok.mp h
  obtain ⟨hs, hcls₁⟩ := callHook_ok h₂
  have hcls : (s.task p).schedClass ≠ .hvf := by
    rw [← takeOff_schedClass h₁]
    exact hcls₁
  have htask : s₁.task p = s.task p := by
    rw [takeOff_other_eq hcls] at h₁
    injection h₁ with h₁
    rw [← h₁]
    split <;> rfl
  have hback : putBack E p (s.task p).isQueued (s.isCurrent p) (enqueueRestore ||| enqueueNoclock)
      (s₁.setTask p (s.task p)) = .ok s' := by
    have hsame : s₁.setTask p (s.task p) = s₁ := by
      rw [← htask, Sys.setTask_same]
    rw [hsame, ← hs]
    exact h
  refine ⟨?_, hcls⟩
  rw [requeue_other hcls rfl rfl h₁ hback, Sys.setTask_same]

theorem migrateDisableSwitch_ok {pinned : Bool} (h : migrateDisableSwitch E p pinned s = .ok s') :
    s' = s ∧ (pinned = true → (s.task p).schedClass ≠ .hvf) := by
  unfold migrateDisableSwitch at h
  split at h
  next =>
    obtain ⟨hs, hcls⟩ := doSetCpusAllowed_ok h
    exact ⟨hs, fun _ => hcls⟩
  next hfree =>
    injection h with h
    exact ⟨h.symm, fun hp => absurd hp hfree⟩

theorem returnToCurr_ok (h : returnToCurr c s = .ok s') :
    s' = s ∧ (s.task (s.rq c).curr).state ≠ taskDead := by
  unfold returnToCurr at h
  split at h
  next => cases h
  next halive =>
    injection h with h
    exact ⟨h.symm, halive⟩

/-- How `__schedule` runs: it returns at once on an idle CPU, or deals with
the running task, picks, and switches. What it does behind the switch leaves no trace. -/
theorem schedule_cases {mode : SchedMode} {sig : Signals} {picks : Picks}
    (h : schedule E c mode sig picks s = .ok s') :
    ((mode = .smIdle ∧ (s.rq c).nrRunning = 0) ∧
      s' = s.setRq c { s.rq c with needResched := false }) ∨
    (¬ (mode = .smIdle ∧ (s.rq c).nrRunning = 0) ∧
      ∃ s₁ next s₂, leavePrev E c mode sig s = .ok s₁ ∧
        pickNext s₁ c (s.rq c).curr picks = .ok next ∧
        putPrevSetNextTask E c (s.rq c).curr next s₁ = .ok s₂ ∧
        s' = switchTo c (s.rq c).curr next s₂) := by
  unfold schedule at h
  dsimp only at h
  split at h
  next hidle =>
    injection h with h
    exact Or.inl ⟨hidle, h.symm⟩
  next hbusy =>
    obtain ⟨s₁, h₁, h₂⟩ := bind_ok.mp h
    obtain ⟨⟨next, s₂⟩, h₃, h₄⟩ := bind_ok.mp h₂
    obtain ⟨s₃, h₄, hret⟩ := bind_ok.mp h₄
    have hs' : s' = switchTo c (s.rq c).curr next s₂ := by
      rw [(returnToCurr_ok hret).1]
      split at h₄
      next => exact (Except.ok.inj h₄).symm
      next => exact (migrateDisableSwitch_ok h₄).1
    obtain ⟨next', h₅, h₆⟩ := bind_ok.mp h₃
    obtain ⟨s₂', h₇, h₈⟩ := bind_ok.mp h₆
    injection h₈ with h₈
    injection h₈ with hnext hs₂
    subst hnext hs₂
    exact Or.inr ⟨hbusy, s₁, next', s₂', h₁, h₅, h₇, hs'⟩

/-- The task `__schedule` switches to, if it gets that far. -/
def nextTask (E : Env) (c : Cpu) (mode : SchedMode) (sig : Signals) (picks : Picks) (s : Sys) :
    Option TaskId :=
  if mode = .smIdle ∧ (s.rq c).nrRunning = 0 then none
  else
    match leavePrev E c mode sig s with
    | .ok s₁ => (pickNext s₁ c (s.rq c).curr picks).toOption
    | .error _ => none

theorem nextTask_eq_some {mode : SchedMode} {sig : Signals} {picks : Picks} {next : TaskId} :
    nextTask E c mode sig picks s = some next ↔
      ¬ (mode = .smIdle ∧ (s.rq c).nrRunning = 0) ∧
        ∃ s₁, leavePrev E c mode sig s = .ok s₁ ∧ pickNext s₁ c (s.rq c).curr picks = .ok next := by
  unfold nextTask
  split
  next hidle => exact ⟨fun h => (nomatch h), fun h => absurd hidle h.1⟩
  next hbusy =>
    rw [and_iff_right hbusy]
    cases leavePrev E c mode sig s with
    | error f => exact ⟨fun h => (nomatch h), fun ⟨_, h, _⟩ => nomatch h⟩
    | ok s₁ =>
      have hpick : (pickNext s₁ c (s.rq c).curr picks).toOption = some next ↔
          pickNext s₁ c (s.rq c).curr picks = .ok next := by
        cases pickNext s₁ c (s.rq c).curr picks with
        | error f => exact ⟨fun h => (nomatch h), fun h => nomatch h⟩
        | ok n => exact ⟨fun h => congrArg _ (Option.some.inj h), fun h => congrArg _ (Except.ok.inj h)⟩
      refine hpick.trans ⟨fun h => ⟨s₁, rfl, h⟩, ?_⟩
      rintro ⟨s₂, hs, h⟩
      obtain rfl := Except.ok.inj hs
      exact h

/-- The task an entry point switches to. -/
def switchesTo (E : Env) (s : Sys) : Act → Option TaskId
  | .schedule c mode sig picks => nextTask E c mode sig picks s
  | .doTaskDead c picks =>
    nextTask E c .smNone ⟨false, false⟩ picks (setTaskState (s.rq c).curr taskDead s)
  | _ => none

end HvfSched
