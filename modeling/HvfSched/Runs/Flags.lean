import HvfSched.Queue.Trees

/-!
# The `on_rq` flag tells the truth

In a run in which no linked task forks and no linked task is activated on
another CPU, the flag of every entity says whether its node is linked in the
tree of the CPU its task is assigned to, and `nr_hvf_queued` counts the nodes.

Both conditions are needed. `dup_task_struct` copies the flag of the parent
and `__sched_fork`, which clears `se.on_rq` and `rt.on_rq`, leaves
`hvf.on_rq` alone: a task that switched itself to HVF while it was running is
linked, and its child has the flag without the link.

`Base` adds what the other arguments about runs need of the bookkeeping.
-/

namespace HvfSched

open Lib Sys

variable {E : Env} {s s' : Sys} {a : Act} {c : Cpu} {p : TaskId}

/-- No linked task forks, and none is activated on another CPU. -/
def flagsKept (s : Sys) (a : Act) : Prop :=
  (∀ c ∈ forks a, (s.task (s.rq c).curr).hvf.onRq = false) ∧
  ∀ x ∈ activates s a, (s.task x.1).cpu ≠ x.2 → (s.task x.1).hvf.onRq = false

instance (s : Sys) (a : Act) : Decidable (flagsKept s a) := inferInstanceAs (Decidable (_ ∧ _))

structure Base (s : Sys) : Prop where
  trees : Trees s
  sound : s.links.Sound

/-- A running task of the class is a live task of its CPU. -/
theorem Base.running_hvf {s : Sys} {c : Cpu} {p : TaskId} (h : Base s) (hc : (s.rq c).curr = p)
    (hcls : (s.task p).schedClass = .hvf) : s.isLive p = true ∧ (s.task p).cpu = c := by
  subst hc
  exact h.sound.curr_hvf hcls

/-! ## The start -/

theorem boot_trees : Trees boot := by
  have hflag : ∀ p, (boot.task p).hvf.onRq = false := by
    intro p
    cases p with
    | idle c => rfl
    | task n => rfl
  refine ⟨?_, fun _ => List.nodup_nil, fun _ => rfl, ?_⟩
  · intro c p
    rw [hflag]
    exact ⟨fun hm => (List.not_mem_nil hm).elim, fun hm => absurd hm.1 Bool.false_ne_true⟩
  · intro c m hm
    cases hm

theorem boot_sound : boot.links.Sound := by
  refine ⟨fun c => Or.inl rfl, fun c => ⟨rfl, rfl, rfl⟩, fun n _ => ⟨rfl, rfl⟩, ?_⟩
  intro c p hp
  cases hp

theorem boot_base : Base boot := ⟨boot_trees, boot_sound⟩

/-- Nothing is in the class at boot. -/
theorem boot_not_hvf (p : TaskId) : (boot.task p).schedClass ≠ .hvf := by
  cases p with
  | idle c =>
    intro h
    cases h
  | task n =>
    intro h
    cases h

/-! ## One step -/

/-- A step that keeps the queues, the flags and the CPUs of all tasks. -/
theorem Trees.of_links (h : Trees s) (hrq : ∀ c, (s'.rq c).hvf = (s.rq c).hvf)
    (hbits : ∀ p, (s'.links.task p).linked = (s.links.task p).linked ∧
      (s'.links.task p).cpu = (s.links.task p).cpu) : Trees s' := by
  refine h.congr ?_ (fun p => (hbits p).1) (fun p _ => (hbits p).2)
  intro c
  rw [hrq]

theorem setState_bits (l : Links) (p : TaskId) (v : Mask) (q : TaskId) :
    ((l.setState p v).task q).linked = (l.task q).linked ∧
    ((l.setState p v).task q).cpu = (l.task q).cpu := by
  rw [Links.setState, Links.setTask_task]
  split
  next hq =>
    rw [hq]
    exact ⟨rfl, rfl⟩
  next => exact ⟨rfl, rfl⟩

theorem Base.setTaskState (h : Base s) (hlive : s.isLive p = true) (v : Mask) :
    Base (setTaskState p v s) := by
  have hl := links_setTaskState p v s
  refine ⟨h.trees.of_links (fun _ => rfl) ?_, ?_⟩
  · intro q
    rw [hl]
    exact setState_bits s.links p v q
  · rw [hl]
    exact h.sound.setState hlive v

theorem leaveOf_ne_stay {mode : SchedMode} {sig : Signals} {t : TaskStruct}
    (h : leaveOf mode sig t ≠ .stay) : t.state ≠ taskRunning := by
  intro hstate
  apply h
  have htry : triesToBlock mode t = false := by
    unfold triesToBlock
    rw [hstate]
    simp
  rw [leaveOf, if_neg (by rw [htry]; decide)]

/-- What is known in the middle of a reschedule, where the pick is made. -/
structure MidSchedule (s₀ s₁ : Sys) (c : Cpu) (how : Links.Leave) : Prop where
  base : Base s₁
  links : s₁.links = s₀.links.leave c (s₀.rq c).curr how

theorem midSchedule {s₀ s₁ : Sys} {how : Links.Leave} {mode : SchedMode} {sig : Signals}
    (h : Base s₀) (hhow : how = leaveOf mode sig (s₀.task (s₀.rq c).curr))
    (hprev : leavePrev E c mode sig s₀ = .ok s₁) : MidSchedule s₀ s₁ c how := by
  have hl : s₁.links = s₀.links.leave c (s₀.rq c).curr how := by
    rw [links_leavePrev hprev, hhow]
  refine ⟨⟨h.trees.leavePrev hprev, ?_⟩, hl⟩
  rw [hl]
  refine h.sound.leave how ?_
  intro hstay
  rw [hhow] at hstay
  exact leaveOf_ne_stay hstay

/-- Whoever is picked may run on `c`. -/
theorem MidSchedule.mayRun {s₀ s₁ : Sys} {how : Links.Leave} {next : TaskId}
    (h : MidSchedule s₀ s₁ c how)
    (hsame : ∀ q, s₀.isLive q = s.isLive q ∧ (s₀.task q).cpu = (s.task q).cpu)
    (hpicked : Picked s s₁ c how next) : Links.Sound.MayRun s₀.links c next := by
  cases hpicked with
  | idle hi => exact Or.inl hi
  | above hlive _ _ hcpu _ =>
    refine Or.inr ⟨?_, (hsame next).2.trans hcpu⟩
    exact (hsame next).1.trans hlive
  | tree hmax =>
    obtain ⟨hflag, hcpu⟩ := (h.base.trees.mem c next).mp (h.base.trees.max c next hmax)
    have hlive := h.base.sound.live_of_linked (p := next) hflag
    have hcpu' : (s₁.links.task next).cpu = c := hcpu
    rw [h.links] at hlive hcpu'
    refine Or.inr ⟨?_, ?_⟩
    · rw [← hlive]
      exact (Links.isLive_congr (Links.leave_nextPid how) next).symm
    · rw [← hcpu']
      exact (Links.leave_bits how next).1.symm

theorem isLive_links (s : Sys) (p : TaskId) : s.links.isLive p = s.isLive p := by
  cases p with
  | idle c => rfl
  | task n => rfl

/-- The state a reschedule starts from has the CPUs and pids of `s`. -/
theorem start_same {s₀ : Sys} {how : Links.Leave}
    (hstart : (s₀ = s ∧ (s.task (s.rq c).curr).state ≠ taskDead) ∨
      (how = .block ∧ s.isLive (s.rq c).curr = true ∧
        s₀ = setTaskState (s.rq c).curr taskDead s)) :
    (s₀.rq = s.rq ∧ s₀.nextPid = s.nextPid) ∧
    ∀ q, s₀.isLive q = s.isLive q ∧ (s₀.task q).cpu = (s.task q).cpu := by
  rcases hstart with ⟨hs, -⟩ | ⟨-, -, hs⟩
  · rw [hs]
    exact ⟨⟨rfl, rfl⟩, fun _ => ⟨rfl, rfl⟩⟩
  · rw [hs]
    refine ⟨⟨rfl, rfl⟩, fun q => ⟨?_, ?_⟩⟩
    · cases q with
      | idle d => rfl
      | task n => rfl
    · rw [HvfSched.setTaskState, setTask_task]
      split
      next hq => rw [hq]
      next => rfl

theorem Base.start {s₀ : Sys} {how : Links.Leave} (h : Base s)
    (hstart : (s₀ = s ∧ (s.task (s.rq c).curr).state ≠ taskDead) ∨
      (how = .block ∧ s.isLive (s.rq c).curr = true ∧
        s₀ = HvfSched.setTaskState (s.rq c).curr taskDead s)) : Base s₀ := by
  rcases hstart with ⟨hs, -⟩ | ⟨-, hlive, hs⟩
  · rw [hs]
    exact h
  · rw [hs]
    exact h.setTaskState hlive taskDead

theorem step_base (h : Base s) (hok : flagsKept s a) (hstep : step E s a = some s') : Base s' := by
  cases step_case hstep with
  | quiet hl hrq _ =>
    refine ⟨h.trees.of_links hrq ?_, ?_⟩
    · intro p
      rw [hl]
      exact ⟨rfl, rfl⟩
    · rw [hl]
      exact h.sound
  | state p v hlive _ _ hl hrq _ =>
    refine ⟨h.trees.of_links hrq ?_, ?_⟩
    · intro q
      rw [hl]
      exact setState_bits s.links p v q
    · rw [hl]
      exact h.sound.setState ((isLive_links s p).trans hlive) v
  | reschedule c how next s₀ s₁ s₂ mode sig picks _ hstart hhow hprev _ hpicked hset hs =>
    obtain ⟨⟨hrq, -⟩, hsame⟩ := start_same hstart
    have h₀ := h.start hstart
    have hcurr : (s₀.rq c).curr = (s.rq c).curr := by rw [hrq]
    have hhow₀ : how = leaveOf mode sig (s₀.task (s₀.rq c).curr) := by
      rw [hcurr]
      exact hhow
    -- between the dequeue and the switch
    have hmid := midSchedule h₀ hhow₀ hprev
    have hnext := hmid.mayRun hsame hpicked
    refine ⟨?_, ?_⟩
    · rw [hs]
      refine Trees.switchTo (hmid.base.trees.putPrevSetNextTask ?_ hset) _ _
      intro hcls
      have hcurr₁ : (s₁.links.rq c).curr = (s.rq c).curr := by
        rw [hmid.links, Links.leave_curr]
        exact hcurr
      exact (hmid.base.running_hvf hcurr₁ hcls).2
    · rw [reschedule_links hcurr hhow hprev hset hs]
      refine h₀.sound.schedule how ?_ hnext
      intro hstay
      have hstate : (s₀.links.rq c).curr = (s.rq c).curr := hcurr
      rw [hstate]
      rw [hhow] at hstay
      exact leaveOf_ne_stay hstay
  | activate p dest thisCpu v flags s₁ hact hlive _ hon _ ha hs _ =>
    have hmove := hok.2 (p, dest) hact
    refine ⟨h.trees.activate hmove ha hs, ?_⟩
    rw [activate_links ha hs]
    exact h.sound.wake ((isLive_links s p).trans hlive) hon hmove v
  | change p cls _ hlive hc =>
    refine ⟨h.trees.classChange hc, ?_⟩
    rw [hc.links]
    exact h.sound.change ((isLive_links s p).trans hlive) cls
  | bury c p _ _ hf =>
    refine ⟨h.trees.finishTaskSwitch hf, ?_⟩
    rw [links_finishTaskSwitch hf]
    exact h.sound.bury c p
  | fork c t hf _ ht hs =>
    obtain ⟨t', hfork, hl⟩ := schedFork_links ht hs
    have hflag := hok.1 c hf
    refine ⟨?_, ?_⟩
    · rw [hs]
      refine h.trees.addTask (h.sound.fresh s.nextPid (Nat.le_refl _)).1 ?_
      have hl := (schedFork_forked c ht).linked
      exact hl.trans hflag
    · rw [hl]
      exact h.sound.fork (hfork.linked.trans hflag)

/-- `Base` holds in every run whose steps keep the flags. -/
theorem reached_base {ok : Sys → Act → Prop} (hok : ∀ s a, ok s a → flagsKept s a)
    (h : Reached E ok s) : Base s := by
  refine Reach.invariant Base ?_ ?_ h
  · intro s hs
    rw [hs]
    exact boot_base
  · intro s a s' hb hk hstep
    exact step_base hb (hok s a hk) hstep

/-! ## Whole runs -/

/-- In a run with flags kept, `on_rq` of an entity says whether it is linked in the
tree of the CPU of its task, and `nr_hvf_queued` is the size of the tree. -/
theorem on_rq_iff_linked_on_own_cpu (E : Env) (s : Sys) (h : Reached E flagsKept s) :
    (∀ p, (s.task p).hvf.onRq = true ↔ p ∈ s.queue (s.task p).cpu) ∧
    ∀ c, (s.rq c).hvf.nrHvfQueued = (s.queue c).length := by
  have hb := reached_base (fun _ _ hk => hk) h
  refine ⟨?_, hb.trees.count⟩
  intro p
  rw [hb.trees.mem]
  exact ⟨fun hf => ⟨hf, rfl⟩, fun hm => hm.1⟩

/-- A task switches itself to HVF, and back to the fair class. -/
theorem on_rq_iff_linked_on_own_cpu_self_switch :
    ∃ s, Reached sampleEnv flagsKept s ∧ s.queue 0 = [.task 0] ∧
      (∀ p, (s.task p).hvf.onRq = true ↔ p ∈ s.queue (s.task p).cpu) ∧
      ∀ c, (s.rq c).hvf.nrHvfQueued = (s.queue c).length := by
  obtain ⟨s, hs, hq⟩ := Reached.of_check (b := [.task 0]) sampleEnv flagsKept (fun s => s.queue 0)
    (startFirst ++ [.setscheduler permissive (.task 0) (plainAttr 8) true true,
      .setscheduler permissive (.task 0) (plainAttr 0) true true])
    (by decide +kernel)
  exact ⟨s, hs, hq, on_rq_iff_linked_on_own_cpu sampleEnv s hs⟩

/-- A task that switched itself to HVF forks: the child has the flag of its
parent, and no tree holds it. -/
theorem forked_child_has_flag_without_link :
    ∃ s, Reached sampleEnv (fun _ _ => True) s ∧
      (s.task (.task 1)).hvf.onRq = true ∧ .task 1 ∉ s.queue (s.task (.task 1)).cpu := by
  refine Reached.exists_of_eval sampleEnv
    (startFirst ++ [.setscheduler permissive (.task 0) (plainAttr 8) true true, .fork 0]) ?_
  decide +kernel

end HvfSched
