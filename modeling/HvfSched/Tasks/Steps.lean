import HvfSched.Tasks.Records

/-!
# What a step does to the records

`RecordStep` is the companion of `StepCase` for records: a step writes the
record of one task, or of two when it switches between them, and says which
hooks did it. The class of every task and the running task of every CPU are
part of it, because the arguments over whole runs speak of HVF tasks that are
on a CPU.

A class change is the longest of them. Whether the entity is initialised on
the way depends on the entry point alone (`Act.initialises`):
`__sched_setscheduler` enqueues with `ENQUEUE_CHANGED` unless it was told to
keep the parameters, and neither `rt_mutex_setprio` nor `sched_move_task`
does.
-/

namespace HvfSched

open Lib Sys

variable {E : Env} {s s' s₁ : Sys} {a : Act} {c : Cpu} {p q : TaskId} {t t' : TaskStruct}

/-! ## Class changes -/

namespace On

variable {f g : Clocked → Clocked}

theorem takeOff (h : takeOff E p s = .ok s') :
    On p (fun x => if s.isCurrent p = true ∧ (s.task p).schedClass = .hvf
      then x.put E (s.task p).isRunning else x) s s' := by
  obtain ⟨s₁, h₁, hs⟩ := takeOff_cases h
  have hd : SameData s s₁ ∧ (s₁.task p).schedClass = (s.task p).schedClass ∧
      (s₁.task p).isRunning = (s.task p).isRunning := by
    rcases h₁ with ⟨-, b, hr⟩ | ⟨-, h₁⟩
    · obtain ⟨hcls, hstate⟩ := dequeueTask_bits hr p
      refine ⟨.dequeueTask hr, hcls, ?_⟩
      rw [TaskStruct.isRunning, TaskStruct.isRunning, hstate]
    · rw [h₁]
      exact ⟨.refl s, rfl, rfl⟩
  obtain ⟨hsame, hcls, hrun⟩ := hd
  rw [hs]
  by_cases hcurr : s.isCurrent p = true
  · rw [if_pos hcurr]
    refine (after_same hsame (putPrevTask E (s.task p).cpu p s₁)).congr ?_
    simp only [hcurr, hcls, hrun, true_and]
  · rw [if_neg hcurr]
    exact (of_same hsame).congr (if_neg fun hc => hcurr hc.1)

theorem checkClassChanging {cls : SchedClass} (h : checkClassChanging E p cls s = .ok s') :
    On p (fun x => if cls ≠ .hvf ∧ (s.task p).schedClass = .hvf then x.defaults E else x) s s' := by
  rcases checkClassChanging_cases h with ⟨hnew, hg⟩ | ⟨hsame, hs⟩
  · exact (giveDefaults hg).congr (if_pos hnew)
  · rw [hs]
    exact (of_same (.refl s)).congr (if_neg hsame)

theorem putBack {queued running : Bool} {flags : Mask}
    (h : putBack E p queued running flags s = .ok s') :
    On p (fun x => if queued = true ∧ (s.task p).schedClass = .hvf ∧ isEntry flags = true
      then x.enter E else x) s s' := by
  rcases putBack_cases h with ⟨hq, he⟩ | ⟨hq, hs⟩
  · refine (enqueueTask he).congr ?_
    simp only [hq, true_and]
  · rw [hs]
    exact (of_same (.refl s)).congr (if_neg fun hc => Bool.eq_false_iff.mp hq hc.1)

theorem switchedFromHvf (p : TaskId) (s : Sys) :
    On p Clocked.clear s (switchedFromHvf p s) := by
  refine setTask ?_
  unfold clearHvfValues
  split
  next hset =>
    have hx : (s.clocked p).record.parsSet = true := hset
    rw [Clocked.clear, if_pos hx]
    rfl
  next hunset =>
    have hx : ¬ (s.clocked p).record.parsSet = true := hunset
    rw [Clocked.clear, if_neg hx]
    rfl

theorem checkClassChanged {cls : SchedClass} {prio : Int}
    (h : checkClassChanged p cls prio s = .ok s') :
    On p (fun x => if cls = .hvf ∧ (s.task p).schedClass ≠ .hvf then x.clear else x) s s' := by
  rcases checkClassChanged_cases h with ⟨hleft, hs⟩ | ⟨hsame, hs⟩
  · rw [hs]
    exact (switchedFromHvf p s).congr (if_pos hleft)
  · rw [hs]
    exact (of_same (.refl s)).congr (if_neg hsame)
end On

/-- The class change of `p` to `cls` as it reaches the record of `p`. -/
def Sys.changeRecord (E : Env) (s : Sys) (p : TaskId) (cls : SchedClass) (entry : Bool)
    (x : Clocked) : Clocked :=
  x.change E (s.isCurrent p && (s.task p).schedClass == .hvf) (s.task p).isRunning
    ((s.task p).schedClass != .hvf && cls == .hvf)
    ((s.task p).isQueued && cls == .hvf && entry)
    ((s.task p).schedClass == .hvf && cls != .hvf)

theorem schedClass_links (s : Sys) (p : TaskId) :
    (s.task p).schedClass = (s.links.task p).schedClass := rfl

theorem putBack_schedClass {queued running : Bool} {flags : Mask}
    (h : putBack E p queued running flags s = .ok s') :
    (s'.task p).schedClass = (s.task p).schedClass := by
  rw [schedClass_links, schedClass_links, links_putBack h]
  split
  next => exact (Links.enqueue_frame _ p s.links).schedClass p
  next => rfl

/-- The `switching_to` hook leaves the class alone. -/
theorem checkClassChanging_schedClass {cls : SchedClass}
    (h : checkClassChanging E p cls s = .ok s') :
    (s'.task p).schedClass = (s.task p).schedClass := by
  rw [schedClass_links, schedClass_links, links_checkClassChanging h]

/-- The four stages together; the last one is the `switched_from` hook. -/
theorem classChange_on {s₃ : Sys} {flags : Mask} {cls : SchedClass}
    (h : ChangeStages E p cls flags s s₃)
    (hend : On p (fun x => if (s.task p).schedClass = .hvf ∧ (s₃.task p).schedClass ≠ .hvf
      then x.clear else x) s₃ s') :
    On p (s.changeRecord E p cls (isEntry flags)) s s' := by
  obtain ⟨hbody₀, hcls₀, hoff, hbody, hcls, hmid, hback, -⟩ := h
  next t₀ t s₁ s₂ running =>
  -- the two writes of attributes do not reach the record
  have hwrite : ∀ {u : TaskStruct} {σ : Sys}, u.body = (σ.task p).body →
      On p (fun x => x) σ (σ.setTask p u) := by
    intro u σ hu
    have hr : u.record = (σ.task p).record := by
      have hr := congrArg TaskStruct.record hu
      exact hr
    refine .setTask ?_
    rw [hr]
    rfl
  have hcpu : t₀.cpu = (s.task p).cpu := by
    have hc := congrArg TaskStruct.cpu hbody₀
    exact hc
  have hstate : t₀.isRunning = (s.task p).isRunning := by
    have hc := congrArg TaskStruct.isRunning hbody₀
    exact hc
  have hclsₘ : ((s₁.setTask p t).task p).schedClass = cls := by
    rw [setTask_self]
    exact hcls
  have hcls₂ : (s₂.task p).schedClass = cls := (checkClassChanging_schedClass hmid).trans hclsₘ
  have hcls₃ : (s₃.task p).schedClass = cls := (putBack_schedClass hback).trans hcls₂
  have h₁ := ((hwrite hbody₀).trans (On.takeOff hoff)).trans (hwrite hbody)
  have h₂ := On.checkClassChanging hmid
  have h₃ := On.putBack hback
  rw [Sys.isCurrent, setTask_self, hcls₀, hcpu, hstate] at h₁
  rw [hclsₘ] at h₂
  rw [hcls₂] at h₃
  rw [hcls₃] at hend
  refine (((h₁.trans h₂).trans h₃).trans hend).congr ?_
  unfold Sys.changeRecord Clocked.change Sys.isCurrent
  simp only [Bool.and_eq_true, beq_iff_eq, bne_iff_ne, ne_eq, and_assoc, setTask_rq]

theorem setschedulerChange_on {attr : SchedAttr} {policy : Policy} {resetOnFork pi : Bool}
    (h : setschedulerChange E p attr policy resetOnFork pi s = .ok s') :
    On p (s.changeRecord E p (setschedulerNewClass s p attr policy pi)
      (!hasFlag attr.schedFlags schedFlagKeepParams)) s s' := by
  obtain ⟨s₃, hst, hend⟩ := setschedulerChange_stages h
  rw [← setschedulerFlags_isEntry attr pi (s.task p).prio (setschedulerNewprio s p attr policy pi)]
  exact classChange_on hst (.checkClassChanged hend)

theorem schedMoveTask_on (h : schedMoveTask E p s = .ok s') :
    On p (s.changeRecord E p (s.task p).schedClass false) s s' := by
  obtain ⟨s₃, hst, hend⟩ := schedMoveTask_stages h
  have hsame : SameData s₃ s' := by
    rcases hend with hs | ⟨c, hs⟩
    · rw [hs]
      exact .refl s₃
    · rw [hs]
      exact .setRq _ _ _
  -- the class is the old one, so that no hook follows
  have hcls₃ : (s₃.task p).schedClass = (s.task p).schedClass := by
    have hl := congrArg (fun l => (l.task p).schedClass) (hst.classChange (Or.inl rfl)).links
    exact hl.trans (congrArg TaskLink.schedClass Links.change_self)
  have hnone := (On.of_same (p := p) hsame).congr (g := fun x =>
    if (s.task p).schedClass = .hvf ∧ (s₃.task p).schedClass ≠ .hvf then x.clear else x)
    (if_neg fun hc => hc.2 (hcls₃.trans hc.1))
  exact classChange_on hst hnone

/-! ## The kinds of step -/

/-- The classes of all tasks and the running tasks of all CPUs are as before. -/
structure Still (s s' : Sys) : Prop where
  schedClass : ∀ q, (s'.task q).schedClass = (s.task q).schedClass
  curr : ∀ d, (s'.rq d).curr = (s.rq d).curr

theorem Still.of_links (h : s'.links = s.links) : Still s s' where
  schedClass q := congrArg (fun l => (l.task q).schedClass) h
  curr d := congrArg (fun l => (l.rq d).curr) h

theorem Still.setState {v : Mask} (h : s'.links = s.links.setState p v) : Still s s' where
  schedClass q := by
    rw [schedClass_links, schedClass_links, h, Links.setState, Links.setTask_task]
    split
    next hq => rw [hq]
    next => rfl
  curr d := congrArg (fun l => (l.rq d).curr) h

/-- Is the running task `TASK_RUNNING` when it is put? -/
def Links.Leave.running (how : Links.Leave) (running : Bool) : Bool :=
  match how with
  | .stay => running
  | .signalled => true
  | .block => false

inductive RecordStep (E : Env) (s : Sys) (a : Act) (s' : Sys) : Prop
  | same (htarget : classTarget s a = none) (hnew : a.isNew = false)
      (hrec : ∀ q, (s'.task q).record = (s.task q).record) (hreads : s.reads ≤ s'.reads)
      (hstill : Still s s')
  | tick (c : Cpu) (ha : a = .tick c) (hcls : (s.task (s.rq c).curr).schedClass = .hvf)
      (hon : On (s.rq c).curr (fun x => x.tick E (s.value (s.rq c).curr)) s s')
      (hstill : Still s s')
  | params (c : Cpu) (d1 d2 ct : Long) (ha : a = .setParams c d1 d2 ct)
      (hacc : paramsAccepted (s.now E) d1 d2 ct = true)
      (hon : On (s.rq c).curr (fun x =>
        ⟨x.reads + 1, { x.record with params := ⟨d1, d2, ct⟩, parsSet := true }⟩) s s')
      (hstill : Still s s')
  | switch (c : Cpu) (how : Links.Leave) (next : TaskId) (s₁ : Sys)
      (hleave : leaves s a = some (c, how)) (hne : next ≠ (s.rq c).curr)
      (hput : On (s.rq c).curr (fun x => if (s.task (s.rq c).curr).schedClass = .hvf
        then x.put E (how.running (s.task (s.rq c).curr).isRunning) else x) s s₁)
      (hset : On next (fun x => if (s.task next).schedClass = .hvf then x.dispatch E else x) s₁ s')
      (hcls : ∀ q, (s'.task q).schedClass = (s.task q).schedClass)
      (hself : (s'.rq c).curr = next) (hothers : ∀ d, d ≠ c → (s'.rq d).curr = (s.rq d).curr)
  | activate (p : TaskId) (dest : Cpu) (hact : activates s a = some (p, dest))
      (hon : On p (fun x => if (s.task p).schedClass = .hvf ∧ a.isNew = true then x.enter E else x)
        s s')
      (hstill : Still s s')
  | change (p : TaskId) (cls : SchedClass) (htarget : classTarget s a = some (p, cls))
      (hon : On p (s.changeRecord E p cls a.initialises) s s')
      (hself : (s'.task p).schedClass = cls) (hcurr : ∀ d, (s'.rq d).curr = (s.rq d).curr)
  | fork (c : Cpu) (t : TaskStruct) (hfork : forks a = some c)
      (ht : schedFork (s.task (s.rq c).curr) = some t) (hs : s' = addTask (finishChild c t) s)

theorem RecordStep.of_data (htarget : classTarget s a = none) (hnew : a.isNew = false)
    (h : SameData s s') (hstill : Still s s') : RecordStep E s a s' :=
  .same htarget hnew (fun q => record_of_data (h.data q)) (Nat.le_of_eq h.reads.symm) hstill

/-- A write of attributes the record does not show. -/
theorem RecordStep.of_body (htarget : classTarget s a = none) (hnew : a.isNew = false)
    (hbody : t.body = (s.task p).body) (hcls : t.schedClass = (s.task p).schedClass) :
    RecordStep E s a (s.setTask p t) := by
  have hl : (s.setTask p t).links = s.links := by
    apply links_setTask_same
    rw [link_of_body hbody, hcls]
    rfl
  refine .same htarget hnew ?_ (Nat.le_refl _) (.of_links hl)
  intro q
  rw [setTask_task]
  split
  next hq =>
    have hr := congrArg TaskStruct.record hbody
    rw [hq]
    exact hr
  next => rfl

/-- Only `__schedule` switches, and it changes no class. -/
theorem classTarget_of_leaves {how : Links.Leave} (h : leaves s a = some (c, how)) :
    classTarget s a = none ∧ a.isNew = false := by
  cases a with
  | schedule => exact ⟨rfl, rfl⟩
  | doTaskDead => exact ⟨rfl, rfl⟩
  | _ => cases h

theorem leavePrev_isRunning {how : Links.Leave} {mode : SchedMode} {sig : Signals}
    (hhow : how = leaveOf mode sig (s.task (s.rq c).curr))
    (h : leavePrev E c mode sig s = .ok s₁) :
    (s₁.task (s.rq c).curr).isRunning = how.running (s.task (s.rq c).curr).isRunning := by
  have hstate : (s₁.task (s.rq c).curr).state
      = ((s.links.leave c (s.rq c).curr how).task (s.rq c).curr).state := by
    rw [hhow, ← links_leavePrev h]
    rfl
  rw [TaskStruct.isRunning, hstate]
  cases how with
  | stay => rfl
  | signalled =>
    rw [Links.leave, Links.setState, Links.setTask_task, if_pos rfl]
    rfl
  | block =>
    -- a task that blocks is not in `TASK_RUNNING`
    have hne : (s.task (s.rq c).curr).state ≠ taskRunning := by
      intro hrun
      have htry : triesToBlock mode (s.task (s.rq c).curr) = false := by
        unfold triesToBlock
        rw [hrun]
        simp
      rw [leaveOf, if_neg (by rw [htry]; decide)] at hhow
      cases hhow
    have hblock : ((s.links.leave c (s.rq c).curr .block).task (s.rq c).curr).state
        = (s.task (s.rq c).curr).state := by
      have hf := (Links.dequeue_frame c (s.rq c).curr s.links).state (s.rq c).curr
      unfold Links.leave Links.block
      dsimp only
      split
      next =>
        rw [Links.setOnRq, Links.setTask_task, if_pos rfl]
        exact hf
      next => exact hf
    rw [hblock]
    exact beq_false_of_ne hne

/-! ## Every step -/

/-- A reschedule from `s₀`, which is `s` up to the state of the running task. -/
theorem reschedule_record {how : Links.Leave} {next : TaskId} {s₀ s₂ : Sys} {mode : SchedMode}
    {sig : Signals} (hleave : leaves s a = some (c, how)) (h₀ : SameData s s₀)
    (hrq : s₀.rq = s.rq) (hhow : how = leaveOf mode sig (s₀.task (s₀.rq c).curr))
    (hrun : how.running (s₀.task (s.rq c).curr).isRunning
      = how.running (s.task (s.rq c).curr).isRunning)
    (hprev : leavePrev E c mode sig s₀ = .ok s₁)
    (hset : putPrevSetNextTask E c (s.rq c).curr next s₁ = .ok s₂)
    (hs : s' = switchTo c (s.rq c).curr next s₂) : RecordStep E s a s' := by
  have hcurr : (s₀.rq c).curr = (s.rq c).curr := by rw [hrq]
  have hl : s'.links = s₀.links.schedule c how next := by
    refine reschedule_links hcurr ?_ hprev hset hs
    rw [← hcurr]
    exact hhow
  have hcls : ∀ q, (s'.task q).schedClass = (s.task q).schedClass := by
    intro q
    rw [schedClass_links, hl, (Links.schedule_bits q).2]
    exact schedClass_of_data (h₀.data q)
  have hself : (s'.rq c).curr = next := by
    have hc := congrArg (fun l => (l.rq c).curr) hl
    exact hc.trans Links.schedule_curr_self
  have hothers : ∀ d, d ≠ c → (s'.rq d).curr = (s.rq d).curr := by
    intro d hd
    have hc := congrArg (fun l => (l.rq d).curr) hl
    rw [← hrq]
    exact hc.trans (congrArg RqLink.curr (Links.schedule_rq_ne hd))
  have h₁ : SameData s s₁ := h₀.trans (.leavePrev hprev)
  have hrunning := leavePrev_isRunning hhow hprev
  rw [hcurr, hrun] at hrunning
  rcases putPrevSetNextTask_cases hset with ⟨hne, h₂⟩ | ⟨hne, hset⟩
  · -- the running task goes on: no hook is called
    rw [h₂] at hs
    obtain ⟨htarget, hnew⟩ := classTarget_of_leaves hleave
    refine .of_data htarget hnew ?_ ⟨hcls, ?_⟩
    · rw [hs]
      exact h₁.trans (.switchTo ..)
    · intro d
      by_cases hd : d = c
      · rw [hd, hself, hne]
      · exact hothers d hd
  · have hput := On.putPrevTask E c (s.rq c).curr s₁
    have hnext : ((putPrevTask E c (s.rq c).curr s₁).task next).schedClass
        = (s.task next).schedClass := by
      refine (schedClass_of_data (hput.others next hne)).trans ?_
      exact schedClass_of_data (h₁.data next)
    rw [hrunning, schedClass_of_data (h₁.data _)] at hput
    have hend := (On.setNextTask hset).then_same (.switchTo c (s.rq c).curr next s₂)
    rw [hnext, ← hs] at hend
    exact .switch c how next _ hleave hne (.after_same h₁ hput) hend hcls hself hothers

theorem activate_record {dest thisCpu : Cpu} {v flags : Mask}
    (hact : activates s a = some (p, dest))
    (h : activateTask E dest p flags (setTaskCpu p dest (setTaskState p v s)) = .ok s₁)
    (hflags : isEntry flags = a.isNew ∧ isEntry (flags ||| enqueueMigrated) = a.isNew)
    (hs : (v = taskRunning ∧ s' = wakeupPreempt thisCpu dest p s₁) ∨
      s' = setTaskState p taskRunning (wakeupPreempt thisCpu dest p s₁)) :
    RecordStep E s a s' := by
  have hl := activate_links h hs
  have hstill : Still s s' := by
    refine ⟨?_, ?_⟩
    · intro q
      rw [schedClass_links, hl]
      by_cases hq : q = p
      · rw [hq, Links.wake_self]
        rfl
      · rw [Links.wake_task_ne hq]
        rfl
    · intro d
      have hc := congrArg (fun l => (l.rq d).curr) hl
      exact hc.trans Links.wake_curr
  have hstart : SameData s (setTaskCpu p dest (setTaskState p v s)) :=
    (SameData.setTask s (by rfl)).trans (.setTask _ (by rfl))
  have hcls := schedClass_of_data (hstart.data p)
  obtain ⟨s₂, h₂, h₃⟩ := activateTask_cases h
  have hend : SameData s₂ s' := by
    have hon : SameData s₂ s₁ := by
      rw [h₃]
      exact .setTask s₂ (by rfl)
    have hw := hon.trans (.wakeupPreempt thisCpu dest p s₁)
    rcases hs with ⟨-, hs⟩ | hs
    · rw [hs]
      exact hw
    · rw [hs]
      exact hw.trans (.setTask _ (by rfl))
  have hentry : isEntry (if ((setTaskCpu p dest (setTaskState p v s)).task p).onRq = .migrating
      then flags ||| enqueueMigrated else flags) = a.isNew := by
    split
    next => exact hflags.2
    next => exact hflags.1
  have hon := (On.after_same hstart (On.enqueueTask h₂)).then_same hend
  rw [hcls, hentry] at hon
  exact .activate p dest hact hon hstill

theorem finishTaskSwitch_record (h : finishTaskSwitch E c p s = .ok s') :
    RecordStep E s (.finishTaskSwitch c) s' := by
  have hl := links_finishTaskSwitch h
  have hstill : Still s s' := by
    refine ⟨?_, ?_⟩
    · intro q
      have hrest := congrArg TaskLink.schedClass (Links.bury_rest (l := s.links) (c := c) (p := p) q)
      rw [schedClass_links, hl]
      exact hrest
    · intro d
      have hc := congrArg (fun l => (l.rq d).curr) hl
      exact hc.trans Links.bury_curr
  rcases finishTaskSwitch_cases h with ⟨-, s₁, h₁, hs⟩ | ⟨-, hs⟩
  · have hd := SameData.dequeueIfOnRq h₁
    rw [hs] at hstill ⊢
    refine .same rfl rfl ?_ ?_ hstill
    · intro q
      exact record_of_data (hd.data q)
    · show s.reads ≤ s₁.reads
      rw [hd.reads]
      exact Nat.le_succ _
  · rw [hs] at hstill ⊢
    exact .of_data rfl rfl (.setRq s c _) hstill

theorem schedTick_record (c : Cpu) (s : Sys) : RecordStep E s (.tick c) (schedTick E c s) := by
  have hstill : Still s (schedTick E c s) := .of_links (links_schedTick ..)
  by_cases hcls : (s.task (s.rq c).curr).schedClass = .hvf
  · refine .tick c rfl hcls ?_ hstill
    rw [schedTick, if_pos hcls]
    unfold taskTickHvf
    dsimp only
    split
    next hfull =>
      refine On.then_same (.setTask ?_) (.setRq _ c _)
      have hd : decide ((s.task (s.rq c).curr).hvf.runtime + E.tickNsec
          ≥ timeSlice (s.value (s.rq c).curr) * K * K) = true := decide_eq_true hfull
      unfold Clocked.tick Sys.clocked TaskStruct.record
      dsimp only
      rw [hd, Bool.or_true]
      rfl
    next hleft =>
      refine .setTask ?_
      have hd : decide ((s.task (s.rq c).curr).hvf.runtime + E.tickNsec
          ≥ timeSlice (s.value (s.rq c).curr) * K * K) = false := decide_eq_false hleft
      unfold Clocked.tick Sys.clocked TaskStruct.record
      dsimp only
      rw [hd, Bool.or_false]
      rfl
  · rw [schedTick, if_neg hcls] at hstill ⊢
    exact .of_data rfl rfl (.refl s) hstill

theorem setParams_record (c : Cpu) (d1 d2 ct : Long) (s : Sys) :
    RecordStep E s (.setParams c d1 d2 ct) ((s.tickClock).setTask (s.rq c).curr
      (setSchedulingParams (s.now E) d1 d2 ct (s.task (s.rq c).curr)).2) := by
  unfold setSchedulingParams
  split
  next hacc =>
    have hl : ((s.tickClock).setTask (s.rq c).curr { s.task (s.rq c).curr with
        deadline1 := d1, deadline2 := d2, computationTime := ct, parsSet := true }).links
        = s.links := by
      rw [← links_tickClock s]
      exact links_setTask_same rfl
    exact .params c d1 d2 ct rfl hacc (.setTask_tickClock rfl) (.of_links hl)
  next =>
    have hs : (s.tickClock).setTask (s.rq c).curr (s.task (s.rq c).curr) = s.tickClock :=
      setTask_same s.tickClock (s.rq c).curr
    rw [hs]
    exact .same rfl rfl (fun _ => rfl) (Nat.le_succ _) (.of_links (links_tickClock s))

theorem wake_record {thisCpu dest : Cpu} {mask : Mask}
    (h : tryToWakeUp E thisCpu p mask dest s = .ok s') :
    RecordStep E s (.wake thisCpu p mask dest) s' := by
  rcases tryToWakeUp_cases h with hs | ⟨hmatch, hs | hs | ⟨hcur, hoff, hact⟩⟩
  · rw [hs]
    exact .of_data rfl rfl (.refl s) ⟨fun _ => rfl, fun _ => rfl⟩
  · rw [hs]
    exact .of_data rfl rfl (.setTask s (by rfl)) (.setState (links_setTaskState ..))
  · obtain ⟨s₁, heq, hs₁⟩ := ttwuRunnable_eq thisCpu p s
    have hd : SameData s s₁ := by
      rcases hs₁ with h₁ | h₁
      · rw [h₁]
        exact .refl s
      · rw [h₁]
        exact .wakeupPreempt ..
    have hl : s₁.links = s.links := by
      rcases hs₁ with h₁ | h₁
      · rw [h₁]
      · rw [h₁, links_wakeupPreempt]
    rw [hs, heq]
    refine .of_data rfl rfl (hd.trans (.setTask s₁ (by rfl)))
      (.setState (v := taskRunning) (p := p) ?_)
    rw [links_setTaskState, hl]
  · have htarget : activates s (.wake thisCpu p mask dest) = some (p, dest) :=
      if_pos ⟨hmatch, hcur, hoff⟩
    unfold ttwuDoActivate at hact
    obtain ⟨s₁, h₁, h₂⟩ := bind_ok.mp hact
    injection h₂ with h₂
    exact activate_record htarget h₁ (wakeupFlags_isEntry _) (Or.inr h₂.symm)

/-- Every class change, in the classes and the running tasks. -/
theorem change_record {cls : SchedClass} (htarget : classTarget s a = some (p, cls))
    {init : Bool} (hchange : ClassChange E p cls init s s') (hon : On p (s.changeRecord E p cls a.initialises) s s') :
    RecordStep E s a s' := by
  have hl := hchange.links
  refine .change p cls htarget hon ?_ ?_
  · rw [schedClass_links, hl, Links.change_self]
  · intro d
    have hc := congrArg (fun l => (l.rq d).curr) hl
    exact hc.trans Links.change_curr

/-- Every step acts on the records in one of the ways. -/
theorem step_record (h : step E s a = some s') : RecordStep E s a s' := by
  obtain ⟨-, hx⟩ := step_ok h
  cases a with
  | setState c v =>
    injection hx with hx
    rw [← hx]
    exact .of_data rfl rfl (.setTask s (by rfl)) (.setState (links_setTaskState ..))
  | schedule c mode sig picks =>
    rcases schedule_cases hx with ⟨-, hs⟩ | ⟨hbusy, s₁, next, s₂, h₁, -, hset, hs⟩
    · rw [hs]
      exact .of_data rfl rfl (.setRq s c _) (.of_links (links_setRq_same (by rfl)))
    · exact reschedule_record (if_neg hbusy) (.refl s) rfl rfl rfl h₁ hset hs
  | doTaskDead c picks =>
    have hx : doTaskDead E c picks s = .ok s' := hx
    unfold doTaskDead at hx
    rcases schedule_cases hx with ⟨⟨hmode, -⟩, -⟩ | ⟨-, s₁, next, s₂, h₁, -, hset, hs⟩
    · cases hmode
    · -- a dead task is blocked whatever signals are pending
      have hdead : ((setTaskState (s.rq c).curr taskDead s).task (s.rq c).curr).state = taskDead := by
        rw [setTaskState, setTask_self]
      have hleave : leaves s (.doTaskDead c picks) = some (c, .block) := rfl
      exact reschedule_record hleave (.setTask s (by rfl)) rfl
        (leaveOf_dead hdead).symm rfl h₁ hset hs
  | finishTaskSwitch c =>
    unfold exec at hx
    dsimp only at hx
    split at hx
    next =>
      injection hx with hx
      rw [← hx]
      exact .of_data rfl rfl (.refl s) ⟨fun _ => rfl, fun _ => rfl⟩
    next p hp => exact finishTaskSwitch_record hx
  | tick c =>
    injection hx with hx
    rw [← hx]
    exact schedTick_record c s
  | wake thisCpu p mask dest => exact wake_record hx
  | fork c =>
    injection hx with hx
    rw [← hx]
    unfold copyProcess
    split
    next => exact .of_data rfl rfl (.refl s) ⟨fun _ => rfl, fun _ => rfl⟩
    next t ht => exact .fork c t rfl ht rfl
  | wakeNew thisCpu p dest =>
    have hx : wakeUpNewTask E thisCpu p dest s = .ok s' := hx
    unfold wakeUpNewTask at hx
    obtain ⟨s₁, h₁, h₂⟩ := bind_ok.mp hx
    injection h₂ with h₂
    exact activate_record rfl h₁ ⟨rfl, rfl⟩ (Or.inl ⟨rfl, h₂.symm⟩)
  | setscheduler ck p attr user pi =>
    obtain ⟨r, hr, hs⟩ := map_ok.mp hx
    rw [← hs]
    -- refused, or nothing but the reset flag to change: the class stays
    cases ht : setschedulerTarget ck s p attr user pi with
    | none =>
      have htarget : classTarget s (.setscheduler ck p attr user pi) = none :=
        congrArg (Option.map fun cls => (p, cls)) ht
      rcases schedSetscheduler_cases hr with ⟨-, h'⟩ | ⟨-, -, -, h'⟩ | ⟨_, _, _, ht', _⟩
      · rw [h']
        exact .of_data htarget rfl (.refl s) ⟨fun _ => rfl, fun _ => rfl⟩
      · rw [h']
        exact .of_body htarget rfl (by rfl) rfl
      · rw [ht] at ht'
        cases ht'
    | some cls =>
      obtain ⟨policy, rfl, h'⟩ := schedSetscheduler_of_target ht hr
      refine change_record ?_ (setschedulerChange_change h') (setschedulerChange_on h')
      exact congrArg (Option.map fun cls => (p, cls)) ht
  | setprio p piTask =>
    rcases rtMutexSetprio_cases hx with ⟨ht, t, h', hbody, hcls⟩ | ⟨cls, s₃, ht, hst, hend⟩
    · rw [h']
      exact .of_body (congrArg (Option.map fun cls => (p, cls)) ht) rfl hbody hcls
    · have hon := classChange_on hst (.checkClassChanged hend)
      rw [setprioFlags_isEntry] at hon
      exact change_record (congrArg (Option.map fun cls => (p, cls)) ht) (hst.changed hend) hon
  | moveTask p => exact change_record rfl (schedMoveTask_change hx) (schedMoveTask_on hx)
  | setParams c d1 d2 ct =>
    injection hx with hx
    rw [← hx]
    exact setParams_record c d1 d2 ct s

/-! ## The entity of a child -/

theorem revertOnFork_hvf (t : TaskStruct) : (revertOnFork t).hvf = t.hvf := by
  unfold revertOnFork
  split
  next =>
    dsimp only
    split
    next => rfl
    next =>
      split
      next => rfl
      next => rfl
  next => rfl

theorem schedFork_hvf (h : schedFork t = some t') : t'.hvf = t.hvf := by
  unfold schedFork at h
  dsimp only at h
  split at h
  next => cases h
  next =>
    injection h with h
    rw [← h]
    exact revertOnFork_hvf _

/-! ## Clock readings -/

theorem Clocked.reads_defaults (x : Clocked) : x.reads ≤ (x.defaults E).reads := by
  unfold Clocked.defaults
  split
  next => exact Nat.le_refl _
  next => exact Nat.le_succ _

theorem Clocked.reads_enter (x : Clocked) : x.reads < (x.enter E).reads :=
  Nat.lt_succ_of_le x.reads_defaults

theorem Clocked.reads_clear (x : Clocked) : x.clear.reads = x.reads := by
  unfold Clocked.clear
  split
  next => rfl
  next => rfl

theorem Clocked.reads_change (isPut running enters isInit isCleared : Bool) (x : Clocked) :
    x.reads ≤ (x.change E isPut running enters isInit isCleared).reads := by
  have h₁ : ∀ y : Clocked, y.reads ≤ (if isPut then y.put E running else y).reads := by
    intro y
    split
    next => exact Nat.le_succ _
    next => exact Nat.le_refl _
  have h₂ : ∀ y : Clocked, y.reads ≤ (if enters then y.defaults E else y).reads := by
    intro y
    split
    next => exact y.reads_defaults
    next => exact Nat.le_refl _
  have h₃ : ∀ y : Clocked, y.reads ≤ (if isInit then y.enter E else y).reads := by
    intro y
    split
    next => exact Nat.le_of_lt y.reads_enter
    next => exact Nat.le_refl _
  have h₄ : ∀ y : Clocked, y.reads ≤ (if isCleared then y.clear else y).reads := by
    intro y
    split
    next => exact Nat.le_of_eq y.reads_clear.symm
    next => exact Nat.le_refl _
  exact Nat.le_trans (h₁ x) (Nat.le_trans (h₂ _) (Nat.le_trans (h₃ _) (h₄ _)))

theorem On.reads {f : Clocked → Clocked} (h : On p f s s') : s'.reads = (f (s.clocked p)).reads :=
  congrArg Clocked.reads h.self

/-- Clock readings are only ever added. -/
theorem RecordStep.reads_le (h : RecordStep E s a s') : s.reads ≤ s'.reads := by
  cases h with
  | same _ _ _ hreads _ => exact hreads
  | tick _ _ _ hon _ => exact Nat.le_of_eq hon.reads.symm
  | params _ _ _ _ _ _ hon _ =>
    rw [hon.reads]
    exact Nat.le_succ _
  | switch c how next s₁ hleave hne hput hset hcls hself hothers =>
    have h₁ : s.reads ≤ s₁.reads := by
      rw [hput.reads]
      split
      next => exact Nat.le_succ _
      next => exact Nat.le_refl _
    have h₂ : s₁.reads ≤ s'.reads := by
      rw [hset.reads]
      split
      next => exact Nat.le_succ _
      next => exact Nat.le_refl _
    exact Nat.le_trans h₁ h₂
  | activate p dest hact hon hstill =>
    rw [hon.reads]
    split
    next => exact Nat.le_of_lt (s.clocked p).reads_enter
    next => exact Nat.le_refl _
  | change p cls htarget hon hself hcurr =>
    rw [hon.reads]
    exact (s.clocked p).reads_change _ _ _ _ _
  | fork c t hfork ht hs =>
    rw [hs]
    exact Nat.le_refl _

end HvfSched
