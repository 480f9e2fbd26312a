import HvfSched.Links.Recognised
import HvfSched.Runs.Moves

/-!
# No runnable task is lost

An HVF task that is on the runqueue must be found again: either its CPU runs
it or its entity is linked. `put_prev_task_hvf` re-inserts a task by its
state, the core keeps it runnable by `on_rq` and the preemption mode, and the
two disagree: a task that has set itself `TASK_INTERRUPTIBLE` and is preempted
before it calls `schedule` stays `TASK_ON_RQ_QUEUED`, is put without being
inserted, and no later wakeup inserts it (`ttwu_runnable` only writes the
state).

`keepsTasks` is the condition a step has to meet for the two to agree, and
under it no run loses a task.
-/

namespace HvfSched

open Lib Sys

variable {E : Env} {s s' : Sys} {a : Act} {c : Cpu} {p : TaskId}

namespace Links

variable {l l₀ : Links} {how : Leave} {next : TaskId}

/-- Every runnable HVF task is running or linked. -/
def Found (l : Links) : Prop :=
  ∀ p, (l.task p).schedClass = .hvf → (l.task p).onRq = .queued →
    (l.rq (l.task p).cpu).curr = p ∨ (l.task p).linked = true

/-- What the running HVF task needs, to be found after it left in the way
`how`: blocking has to recognise it, and a task that stays runnable has to be
linked, or re-inserted because of its state. -/
def LeaveFound (l : Links) (c : Cpu) : Leave → Prop
  | .stay => (l.task (l.rq c).curr).linked = true ∨ (l.task (l.rq c).curr).state = taskRunning
  | .signalled => True
  | .block => l.Recognised c

instance (l : Links) (c : Cpu) : (how : Leave) → Decidable (LeaveFound l c how)
  | .stay => inferInstanceAs (Decidable (_ ∨ _))
  | .signalled => inferInstanceAs (Decidable True)
  | .block => inferInstanceAs (Decidable (Recognised l c))

namespace Found

/-- Nothing that counts is changed for the tasks other than `p`. -/
theorem of_task_ne {l' : Links} (h : Found l) (hcurr : ∀ d, (l'.rq d).curr = (l.rq d).curr)
    (htask : ∀ q, q ≠ p → l'.task q = l.task q)
    (hp : (l'.task p).schedClass = .hvf → (l'.task p).onRq = .queued →
      (l'.rq (l'.task p).cpu).curr = p ∨ (l'.task p).linked = true) : Found l' := by
  intro q hcls hq
  by_cases hqp : q = p
  · rw [hqp] at hcls hq ⊢
    exact hp hcls hq
  · rw [htask q hqp] at hcls hq ⊢
    rw [hcurr]
    exact h q hcls hq

theorem setState (h : Found l) (v : Mask) : Found (l.setState p v) := by
  refine h.of_task_ne (p := p) (fun _ => rfl) (fun q hq => if_neg hq) ?_
  have hp : (l.setState p v).task p = { l.task p with state := v } := if_pos rfl
  rw [hp]
  exact h p

/-- The task that is stopped is still found. -/
theorem prev (hcls : (l.task (l.rq c).curr).schedClass = .hvf)
    (hstate : how ≠ .stay → (l.task (l.rq c).curr).state ≠ taskRunning)
    (hleave : l.LeaveFound c how)
    (hq : ((l.leave c (l.rq c).curr how).task (l.rq c).curr).onRq = .queued) :
    (((l.leave c (l.rq c).curr how).put c (l.rq c).curr).task (l.rq c).curr).linked = true := by
  cases how with
  | stay =>
    show ((l.put c (l.rq c).curr).task (l.rq c).curr).linked = true
    by_cases hrun : (l.task (l.rq c).curr).state = taskRunning
    · rw [put_running hcls hrun, setHvfCurr_task, setLinked_self]
    · rw [put_idle (fun h => hrun h.2)]
      exact hleave.resolve_right hrun
  | signalled =>
    have hp : (l.leave c (l.rq c).curr .signalled).task (l.rq c).curr
        = { l.task (l.rq c).curr with state := taskRunning } := if_pos rfl
    rw [put_running (by rw [hp]; exact hcls) (by rw [hp]), setHvfCurr_task, setLinked_self]
  | block =>
    -- a recognised task does not stay on the runqueue
    have hoff : ((l.leave c (l.rq c).curr .block).task (l.rq c).curr).onRq = .off :=
      block_off hcls hleave (hstate (by decide))
    rw [hoff] at hq
    cases hq

theorem schedule (h : Found l) (hl : l.Sound)
    (hstate : how ≠ .stay → (l.task (l.rq c).curr).state ≠ taskRunning)
    (hleave : (l.task (l.rq c).curr).schedClass = .hvf → l.LeaveFound c how)
    (hnext : Sound.MayRun l c next) : Found (l.schedule c how next) := by
  intro q hcls hq
  rw [(schedule_bits q).2] at hcls
  rw [(schedule_bits q).1]
  by_cases hqn : q = next
  · -- the task that starts runs on its CPU
    subst hqn
    rw [(Sound.MayRun.of_hvf hl hnext hcls).2, schedule_curr_self]
    exact Or.inl rfl
  · by_cases hqp : q = (l.rq c).curr
    · subst hqp
      obtain ⟨hlinked, honrq, -⟩ := schedule_prev how (Ne.symm hqn)
      rw [honrq] at hq
      rw [hlinked]
      exact Or.inr (prev hcls hstate (hleave hcls) hq)
    · rw [schedule_task_ne hqp hqn] at hq ⊢
      by_cases hc : (l.task q).cpu = c
      · have hfound := h q hcls hq
        rw [hc] at hfound
        exact Or.inr (hfound.resolve_left (Ne.symm hqp))
      · rw [schedule_rq_ne hc]
        exact h q hcls hq

theorem wake {dest : Cpu} (h : Found l) (v : Mask)
    (hfree : (l.task p).schedClass = .hvf →
      (l.task p).linked = true ∨ (l.rq dest).hvfCurr ≠ some p) : Found (l.wake p dest v) := by
  refine h.of_task_ne (fun _ => wake_curr) (fun q hq => wake_task_ne hq) ?_
  rw [wake_self]
  intro hcls _
  refine Or.inr ?_
  dsimp only at hcls ⊢
  split
  next => rfl
  next hbusy =>
    rcases hfree hcls with hlinked | hcurr
    · exact hlinked
    · exact absurd ⟨hcls, hcurr⟩ hbusy

/-- A runnable task that is not running goes through a dequeue and an
enqueue. -/
theorem change_linked {cls : SchedClass} (hq : (l.task p).onRq = .queued)
    (hcur : (l.rq (l.task p).cpu).curr ≠ p) :
    ((l.change p cls).task p).linked
      = if cls = .hvf ∧ ((l.dequeue (l.task p).cpu p).2.rq (l.task p).cpu).hvfCurr ≠ some p then true
        else ((l.dequeue (l.task p).cpu p).2.task p).linked := by
  have hoff : l.takeOff p = (l.dequeue (l.task p).cpu p).2 := by
    rw [takeOff, if_pos hq, if_neg hcur]
  have hself : ((l.takeOff p).setClass p cls).task p
      = { (l.takeOff p).task p with schedClass := cls } := if_pos rfl
  rw [change, if_pos hq, enqueue_linked_self, hself, hoff]
  rfl

theorem change {cls : SchedClass} (h : Found l) (hl : l.Sound)
    (hfree : cls = .hvf → (l.task p).schedClass ≠ .hvf → (l.task p).onRq = .queued →
      (l.rq (l.task p).cpu).curr ≠ p →
      (l.task p).linked = true ∨ (l.rq (l.task p).cpu).hvfCurr ≠ some p) :
    Found (l.change p cls) := by
  refine h.of_task_ne (fun _ => change_curr) (fun q hq => change_task_ne hq) ?_
  rw [change_self]
  intro hcls hq
  dsimp only at hcls hq ⊢
  rw [change_curr]
  by_cases hcur : (l.rq (l.task p).cpu).curr = p
  · exact Or.inl hcur
  · refine Or.inr ?_
    rw [change_linked hq hcur]
    by_cases hold : (l.task p).schedClass = .hvf
    · -- it was linked, so it is taken out and inserted again
      have hlinked := (h p hold hq).resolve_left hcur
      have hcurr : (l.rq (l.task p).cpu).hvfCurr ≠ some p :=
        fun hc => hl.hvfCurr _ p hc hlinked rfl
      rw [dequeue_linked hold hcurr hlinked, addNr_hvfCurr]
      exact if_pos ⟨hcls, hcurr⟩
    · rw [dequeue_other hold, addNr_hvfCurr, addNr_task]
      split
      next => rfl
      next hbusy =>
        rcases hfree hcls hold hq hcur with hlinked | hcurr
        · exact hlinked
        · exact absurd ⟨hcls, hcurr⟩ hbusy

theorem bury (h : Found l) (c : Cpu) (hoff : (l.task p).onRq ≠ .queued) : Found (l.bury c p) := by
  refine h.of_task_ne (fun _ => bury_curr) (fun q hq => bury_task_ne hq) ?_
  rw [bury_self]
  intro _ hq
  exact absurd hq hoff

theorem fork {t : TaskLink} (h : Found l) (hoff : t.onRq = .off) : Found (l.fork t) := by
  refine h.of_task_ne (fun _ => rfl) (fun q hq => fork_task_ne hq) ?_
  rw [fork_self, hoff]
  intro _ hq
  cases hq

end Found

end Links

/-! ## Runs -/

/-- The running HVF task is found after it left: if it blocks it is
recognised, and if it stays runnable while its state is not `TASK_RUNNING` it
is linked. -/
def leavesFound (s : Sys) (a : Act) : Prop :=
  ∀ x ∈ leaves s a, (s.task (s.rq x.1).curr).schedClass = .hvf → s.links.LeaveFound x.1 x.2

/-- A task that is activated is not taken for `hvf_rq->curr`. -/
def activatesSeen (s : Sys) (a : Act) : Prop :=
  ∀ x ∈ activates s a, (s.task x.1).schedClass = .hvf →
    (s.task x.1).hvf.onRq = true ∨ (s.rq x.2).hvf.curr ≠ some x.1

/-- Nor is one that enters the class while it is queued and not running. -/
def entersSeen (s : Sys) (a : Act) : Prop :=
  ∀ x ∈ classTarget s a, x.2 = .hvf → (s.task x.1).schedClass ≠ .hvf →
    (s.task x.1).onRq = .queued → (s.rq (s.task x.1).cpu).curr ≠ x.1 →
    (s.task x.1).hvf.onRq = true ∨ (s.rq (s.task x.1).cpu).hvf.curr ≠ some x.1

/-- A task that is buried is off the runqueue. -/
def buriesOff (s : Sys) (a : Act) : Prop := ∀ x ∈ buries s a, (s.task x.2).onRq ≠ .queued

instance (s : Sys) (a : Act) : Decidable (leavesFound s a) :=
  inferInstanceAs (Decidable (∀ x ∈ leaves s a, _ → _))

instance (s : Sys) (a : Act) : Decidable (activatesSeen s a) :=
  inferInstanceAs (Decidable (∀ x ∈ activates s a, _ → _))

instance (s : Sys) (a : Act) : Decidable (entersSeen s a) :=
  inferInstanceAs (Decidable (∀ x ∈ classTarget s a, _ → _))

instance (s : Sys) (a : Act) : Decidable (buriesOff s a) :=
  inferInstanceAs (Decidable (∀ x ∈ buries s a, _))

/-- The condition under which a step loses no task. -/
def keepsTasks (s : Sys) (a : Act) : Prop :=
  flagsKept s a ∧ leavesFound s a ∧ activatesSeen s a ∧ entersSeen s a ∧ buriesOff s a

instance (s : Sys) (a : Act) : Decidable (keepsTasks s a) :=
  inferInstanceAs (Decidable (_ ∧ _ ∧ _ ∧ _ ∧ _))

/-- What the running task needs to leave does not depend on whether
`do_task_dead` has written its state. -/
theorem Start.leaveFound {l l₀ : Links} {how : Links.Leave} (h : Start l c how l₀)
    (hleave : l.LeaveFound c how) : l₀.LeaveFound c how := by
  cases h with
  | same h => exact h ▸ hleave
  | dead hhow _ h =>
    subst hhow
    have hrec : l.Recognised c := hleave
    show l₀.Recognised c
    have hself : (l.setState (l.rq c).curr taskDead).task (l.rq c).curr
        = { l.task (l.rq c).curr with state := taskDead } := if_pos rfl
    rw [h, Links.Recognised]
    show ((l.setState (l.rq c).curr taskDead).task (l.rq c).curr).linked = true ∨ _
    rw [hself]
    exact hrec

theorem step_found (hb : Base s) (h : s.links.Found) (hok : keepsTasks s a)
    (hstep : step E s a = some s') : s'.links.Found := by
  obtain ⟨-, hleaves, hacts, hchanges, hburies⟩ := hok
  have hmove := step_move hb hstep
  generalize s'.links = l' at hmove
  cases hmove with
  | quiet => exact h
  | state p v _ => exact h.setState v
  | schedule c how next l₀ hleave hstart hstate hsource =>
    have h₀ : l₀.Found := by
      cases hstart with
      | same he => exact he ▸ h
      | dead _ _ he => exact he ▸ h.setState taskDead
    refine h₀.schedule (hstart.sound hb.sound) hstate ?_ (hsource.mayRun hb.sound hstart hstate)
    intro hcls
    rw [hstart.rq, (hstart.task _).1] at hcls
    exact hstart.leaveFound (hleaves (c, how) hleave hcls)
  | wake p dest v hact _ _ _ => exact h.wake v (hacts (p, dest) hact)
  | change p cls htarget _ => exact h.change hb.sound (hchanges (p, cls) htarget)
  | bury c p hbury => exact h.bury c (hburies (c, p) hbury)
  | fork c t _ ht => exact h.fork ht.onRq

theorem boot_found : boot.links.Found := by
  intro p hcls
  cases p with
  | idle c => cases hcls
  | task n => cases hcls

/-- In every run whose steps meet `keepsTasks`, a runnable HVF task is running
or linked in the tree of its CPU. -/
theorem runnable_hvf_task_running_or_queued (E : Env) (s : Sys) (h : Reached E keepsTasks s)
    (p : TaskId) (hcls : (s.task p).schedClass = .hvf) (hq : (s.task p).onRq = .queued) :
    (s.rq (s.task p).cpu).curr = p ∨ p ∈ s.queue (s.task p).cpu := by
  have hinv : Base s ∧ s.links.Found := by
    refine Reach.invariant (fun s => Base s ∧ s.links.Found) ?_ ?_ h
    · intro s hs
      rw [hs]
      exact ⟨boot_base, boot_found⟩
    · rintro s a s' ⟨hb, hf⟩ hok hstep
      exact ⟨step_base hb hok.1 hstep, step_found hb hf hok hstep⟩
  rcases hinv.2 p hcls hq with hcur | hlinked
  · exact Or.inl hcur
  · exact Or.inr ((hinv.1.trees.mem _ p).mpr ⟨hlinked, rfl⟩)

/-- A task enters the class while another one runs, the other one sleeps, and
the task waits in the tree when the sleeper has come back and preempts it. -/
theorem runnable_hvf_task_running_or_queued_preempted :
    ∃ s, Reached sampleEnv keepsTasks s ∧ s.queue 0 = [.task 1] ∧
      (s.task (.task 1)).schedClass = .hvf ∧ (s.task (.task 1)).onRq = .queued ∧
      ((s.rq (s.task (.task 1)).cpu).curr = .task 1 ∨
        .task 1 ∈ s.queue (s.task (.task 1)).cpu) := by
  obtain ⟨s, hs, hf⟩ := Reached.of_check (b := ([.task 1], SchedClass.hvf, OnRq.queued)) sampleEnv
    keepsTasks
    (fun s => (s.queue 0, (s.task (.task 1)).schedClass, (s.task (.task 1)).onRq))
    (startFirst ++ [.fork 0, .wakeNew 0 (.task 1) 0,
      .setscheduler permissive (.task 1) (plainAttr 8) true true,
      .setState 0 taskInterruptible, .schedule 0 .smNone ⟨false, false⟩ pickNone,
      .wake 1 (.task 0) taskNormal 0,
      .schedule 0 .smPreempt ⟨false, false⟩ (pickFair (.task 0))])
    (by decide +kernel)
  injection hf with hq hf
  injection hf with hcls hon
  exact ⟨s, hs, hq, hcls, hon,
    runnable_hvf_task_running_or_queued sampleEnv s hs (.task 1) hcls hon⟩

/-- The same run, but the task has set its state when it is preempted: it is
runnable, does not run, and is in no tree. -/
theorem preempted_sleeper_is_lost :
    ∃ s, Reached sampleEnv (fun _ _ => True) s ∧
      (s.task (.task 1)).schedClass = .hvf ∧ (s.task (.task 1)).onRq = .queued ∧
      (s.rq (s.task (.task 1)).cpu).curr ≠ .task 1 ∧
      .task 1 ∉ s.queue (s.task (.task 1)).cpu := by
  refine Reached.exists_of_eval sampleEnv
    (startFirst ++ [.fork 0, .wakeNew 0 (.task 1) 0,
      .setscheduler permissive (.task 1) (plainAttr 8) true true,
      .setState 0 taskInterruptible, .schedule 0 .smNone ⟨false, false⟩ pickNone,
      .setState 0 taskInterruptible, .wake 1 (.task 0) taskNormal 0,
      .schedule 0 .smPreempt ⟨false, false⟩ (pickFair (.task 0))]) ?_
  decide +kernel

end HvfSched
