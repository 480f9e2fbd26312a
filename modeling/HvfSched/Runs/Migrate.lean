import HvfSched.Queue.Recompute
import HvfSched.Runs.Conserve

/-!
# Migration of a queued task

`move_queued_task` takes a task out of one tree and links it into another.
In between its value is computed anew, and punished. Two things can go wrong.

* The hook that enqueues the task skips it if `hvf_rq->curr` of the new CPU
  points to it. The pointer is only compared, so it does not matter that the
  task is not running there: the task is in no tree afterwards.
* The division that computes the value traps if the distance of the deadlines
  wraps to zero, which `set_scheduling_params` accepts.

Over trees in order these are the only two (`migration_conserves_tasks_iff`).
-/

namespace HvfSched

open Lib Sys

variable {E : Env} {s s' s₁ : Sys} {c d thisCpu : Cpu} {p q : TaskId}

/-- An HVF task waits on `src`; both runqueues are in order, and its entity,
which is one node, is not in the tree of `dst`. -/
structure ReadyToMove (s : Sys) (src dst : Cpu) (p : TaskId) : Prop where
  distinct : src ≠ dst
  srcInv : QueueInv s src
  dstInv : QueueInv s dst
  hvf : (s.task p).schedClass = .hvf
  queued : p ∈ s.queue src
  absent : p ∉ s.queue dst

instance (s : Sys) (src dst : Cpu) (p : TaskId) : Decidable (ReadyToMove s src dst p) :=
  decidable_of_iff
    (src ≠ dst ∧ QueueInv s src ∧ QueueInv s dst ∧ (s.task p).schedClass = .hvf ∧
      p ∈ s.queue src ∧ p ∉ s.queue dst)
    ⟨fun ⟨h₁, h₂, h₃, h₄, h₅, h₆⟩ => ⟨h₁, h₂, h₃, h₄, h₅, h₆⟩,
      fun ⟨h₁, h₂, h₃, h₄, h₅, h₆⟩ => ⟨h₁, h₂, h₃, h₄, h₅, h₆⟩⟩

/-- `p`, and nobody else, has gone from `src` to `dst`. -/
structure Migrated (s : Sys) (src dst : Cpu) (p : TaskId) (s' : Sys) : Prop where
  srcInv : QueueInv s' src
  dstInv : QueueInv s' dst
  removed : s'.queue src = (s.queue src).erase p
  added : (s'.queue dst).Perm (p :: s.queue dst)
  values : ∀ q, q ≠ p → s'.value q = s.value q
  srcQueued : (s'.rq src).hvf.nrHvfQueued = (s.rq src).hvf.nrHvfQueued - 1
  srcRunning : (s'.rq src).nrRunning = (s.rq src).nrRunning - 1
  dstQueued : (s'.rq dst).hvf.nrHvfQueued = (s.rq dst).hvf.nrHvfQueued + 1
  dstRunning : (s'.rq dst).nrRunning = (s.rq dst).nrRunning + 1

/-! ## Off the old runqueue -/

/-- `p` is off the runqueue of `c`, on its way to another one. -/
structure Deactivated (E : Env) (s : Sys) (c : Cpu) (p : TaskId) (s₁ : Sys) : Prop where
  task : ∀ q, s₁.task q
    = if q = p then { unlinkedTask (s.task p) with onRq := .migrating } else s.task q
  rq_ne : ∀ d, d ≠ c → s₁.rq d = s.rq d
  inv : QueueInv s₁ c
  queue : s₁.queue c = (s.queue c).erase p
  nrHvfQueued : (s₁.rq c).hvf.nrHvfQueued = (s.rq c).hvf.nrHvfQueued - 1
  nrRunning : (s₁.rq c).nrRunning = (s.rq c).nrRunning - 1

/-- `on_rq` of the task is no concern of the tree. -/
theorem TreeInv.setOnRq (h : TreeInv s c) (p : TaskId) (x : OnRq) :
    TreeInv (HvfSched.setOnRq p x s) c := by
  refine h.congr rfl ?_
  intro q _
  unfold HvfSched.setOnRq Sys.value
  rw [setTask_task]
  split
  next hq =>
    rw [hq]
    exact ⟨rfl, rfl⟩
  next => exact ⟨rfl, rfl⟩

theorem TreeInv.addNrRunning (h : TreeInv s c) (d : Cpu) (n : Int) :
    TreeInv (s.addNrRunning d n) c := by
  refine h.congr ?_ fun _ _ => ⟨rfl, rfl⟩
  rw [Sys.addNrRunning, setRq_rq]
  split
  next hd => rw [hd]
  next => rfl

theorem deactivateTask_queued (E : Env) (h : QueueInv s c) (hcls : (s.task p).schedClass = .hvf)
    (hmem : p ∈ s.queue c) :
    ∃ s₁, deactivateTask E c p s = .ok s₁ ∧ Deactivated E s c p s₁ := by
  have hcurr : (s.rq c).hvf.curr ≠ some p := fun e => h.curr p e hmem
  obtain ⟨s₁, h₁⟩ := dequeueHvfEntity_of_mem (s := setOnRq p .migrating s) E hmem
  have hu := dequeueHvfEntity_unlinked h₁
  have hrq : (s₁.rq c).link = (s.rq c).link :=
    congrArg (fun l : Links => l.rq c) (dequeueHvfEntity_ok h₁).2
  -- linked and not `curr`: the first branch of `dequeue_task_hvf`
  have hdeq : dequeueTask E c p (setOnRq p .migrating s) = .ok (true, s₁.addNrRunning c (-1)) := by
    have hself : (setOnRq p .migrating s).task p = { s.task p with onRq := .migrating } :=
      setTask_self ..
    rw [dequeueTask, if_pos (by rw [hself]; exact hcls), dequeueTaskHvf,
      if_pos ⟨hcurr, by rw [hself]; exact h.flag p hmem⟩, h₁]
    rfl
  have hdeact : deactivateTask E c p s = .ok (s₁.addNrRunning c (-1)) := by
    rw [deactivateTask, hdeq]
    rfl
  have hinv : TreeInv (s₁.addNrRunning c (-1)) c :=
    ((h.toTreeInv.setOnRq p .migrating).unlink hu).addNrRunning c (-1)
  have hself : (s₁.addNrRunning c (-1)).rq c
      = { s₁.rq c with nrRunning := (s₁.rq c).nrRunning + -1 } := setRq_self ..
  have hqueue : (s₁.addNrRunning c (-1)).queue c = (s.queue c).erase p := by
    unfold Sys.queue
    rw [hself]
    exact hu.queue
  refine ⟨_, hdeact, ?_, ?_, ⟨hinv, ?_⟩, hqueue, ?_, ?_⟩
  · intro q
    rw [Sys.addNrRunning, setRq_task, hu.task]
    unfold HvfSched.setOnRq
    split
    next => rw [setTask_self]; rfl
    next hq => rw [setTask_ne _ _ hq]
  · intro d hd
    rw [Sys.addNrRunning, setRq_ne _ _ hd, hu.rq_ne d hd]
    rfl
  · intro q hq
    have hsame : (s₁.rq c).hvf.curr = (s.rq c).hvf.curr := congrArg RqLink.hvfCurr hrq
    rw [hself, hsame] at hq
    rw [hqueue]
    exact fun hin => h.curr q hq (List.mem_of_mem_erase hin)
  · rw [hself, hu.nr]
    rfl
  · have hsame : (s₁.rq c).nrRunning = (s.rq c).nrRunning := congrArg RqLink.nrRunning hrq
    rw [hself, hsame]
    rfl

/-! ## Onto the new runqueue -/

/-- `p` as it arrives on `dst`: off every tree, with a new value. -/
def arriving (s : Sys) (dst : Cpu) (p : TaskId) : TaskStruct :=
  TaskStruct.renewed { unlinkedTask (s.task p) with onRq := .migrating, cpu := dst }

/-- What is left to do on `dst`, and where it fails. -/
theorem moveQueuedTask_eq {src dst : Cpu} (h : ReadyToMove s src dst p)
    (hoff : deactivateTask E src p s = .ok s₁) (hd : Deactivated E s src p s₁) :
    moveQueuedTask E thisCpu src p dst s =
      if DivisorOk (s.task p) then
        .ok (wakeupPreempt thisCpu dst p (setOnRq p .queued
          (if (s.rq dst).hvf.curr ≠ some p
            then (enqueueHvfEntity E dst p (s₁.setTask p (arriving s dst p))).addNrRunning dst 1
            else s₁.setTask p (arriving s dst p))))
      else .error .divide := by
  have hself : (setTaskCpu p dst s₁).task p
      = { unlinkedTask (s.task p) with onRq := .migrating, cpu := dst } := by
    rw [setTaskCpu, setTask_self, hd.task, if_pos rfl]
  have hrq : (setTaskCpu p dst s₁).rq dst = s.rq dst := hd.rq_ne dst (Ne.symm h.distinct)
  have hcls : ((setTaskCpu p dst s₁).task p).schedClass = .hvf := by
    rw [hself]
    exact h.hvf
  have hset : (setTaskCpu p dst s₁).setTask p ((setTaskCpu p dst s₁).task p).renewed
      = s₁.setTask p (arriving s dst p) := by
    rw [hself, setTaskCpu, setTask_setTask]
    rfl
  have henq : enqueueTask E dst p (0 ||| enqueueMigrated) (setTaskCpu p dst s₁) = _ :=
    enqueueTask_renews hcls (by decide)
  rw [hset, hrq] at henq
  -- `task_on_rq_migrating` is what adds `ENQUEUE_MIGRATED`
  have hmigrating : ((setTaskCpu p dst s₁).task p).onRq = .migrating := by rw [hself]
  rw [moveQueuedTask, hoff]
  show (activateTask E dst p 0 (setTaskCpu p dst s₁) >>= _) = _
  rw [activateTask, hmigrating]
  show ((enqueueTask E dst p (0 ||| enqueueMigrated) (setTaskCpu p dst s₁) >>= _) >>= _) = _
  have hdivisor : DivisorOk ((setTaskCpu p dst s₁).task p) ↔ DivisorOk (s.task p) := by
    rw [hself]
    rfl
  have hflag : ((setTaskCpu p dst s₁).task p).hvf.onRq = false := by
    rw [hself]
    rfl
  rw [henq, hflag]
  by_cases hok : DivisorOk (s.task p)
  · rw [if_pos hok, if_pos (hdivisor.mpr hok)]
    by_cases hcurr : (s.rq dst).hvf.curr ≠ some p
    · rw [if_pos ⟨hcurr, rfl⟩, if_pos hcurr]
      rfl
    · rw [if_neg (fun e => hcurr e.1), if_neg hcurr]
      rfl
  · rw [if_neg hok, if_neg (fun e => hok (hdivisor.mp e))]
    rfl

/-- The end of the move leaves the trees and the values as they are. -/
theorem finish_frame (thisCpu dst : Cpu) (p : TaskId) (s : Sys) :
    (∀ d, ((wakeupPreempt thisCpu dst p (setOnRq p .queued s)).rq d).hvf = (s.rq d).hvf) ∧
    (∀ d, ((wakeupPreempt thisCpu dst p (setOnRq p .queued s)).rq d).nrRunning
      = (s.rq d).nrRunning) ∧
    ∀ q, ((wakeupPreempt thisCpu dst p (setOnRq p .queued s)).task q).hvf = (s.task q).hvf := by
  refine ⟨?_, ?_, ?_⟩
  · intro d
    rw [wakeupPreempt_hvf]
    rfl
  · intro d
    have hl := links_wakeupPreempt thisCpu dst p (setOnRq p .queued s)
    exact congrArg (fun l : Links => (l.rq d).nrRunning) hl
  · intro q
    rw [wakeupPreempt_task, HvfSched.setOnRq, setTask_task]
    split
    next hq => rw [hq]
    next => rfl

/-- `p` is on the runqueue of `c`, and the other runqueues are as before. -/
structure Activated (s : Sys) (c : Cpu) (p : TaskId) (s' : Sys) : Prop where
  entity : ∀ q, q ≠ p → (s'.task q).hvf = (s.task q).hvf
  rq_ne : ∀ d, d ≠ c →
    (s'.rq d).hvf = (s.rq d).hvf ∧ (s'.rq d).nrRunning = (s.rq d).nrRunning
  inv : QueueInv s' c
  queue : (s'.queue c).Perm (p :: s.queue c)
  nrHvfQueued : (s'.rq c).hvf.nrHvfQueued = (s.rq c).hvf.nrHvfQueued + 1
  nrRunning : (s'.rq c).nrRunning = (s.rq c).nrRunning + 1

theorem activated_of_free (E : Env) (h : QueueInv s c) (hcurr : (s.rq c).hvf.curr ≠ some p)
    (habsent : p ∉ s.queue c) (hnear : ∀ q ∈ s.queue c, Near (linkValue (s.task p)) (s.value q)) :
    Activated s c p ((enqueueHvfEntity E c p s).addNrRunning c 1) := by
  have hinv : TreeInv (enqueueHvfEntity E c p s) c := h.toTreeInv.link habsent hnear
  have hperm := enqueueHvfEntity_perm E c p s
  have hlink : ((enqueueHvfEntity E c p s).rq c).link = (s.rq c).link :=
    congrArg (fun l : Links => l.rq c) (links_enqueueHvfEntity E c p s)
  have hrq : ((enqueueHvfEntity E c p s).addNrRunning c 1).rq c
      = { (enqueueHvfEntity E c p s).rq c with
          nrRunning := ((enqueueHvfEntity E c p s).rq c).nrRunning + 1 } := setRq_self ..
  have hqueue : ((enqueueHvfEntity E c p s).addNrRunning c 1).queue c
      = (enqueueHvfEntity E c p s).queue c := by
    unfold Sys.queue
    rw [hrq]
  refine ⟨?_, ?_, ⟨hinv.addNrRunning c 1, ?_⟩, ?_, ?_, ?_⟩
  · intro q hq
    rw [Sys.addNrRunning, setRq_task, enqueueHvfEntity_task, if_neg hq]
  · intro d hd
    rw [Sys.addNrRunning, setRq_ne _ _ hd, enqueueHvfEntity_rq_ne E p s hd]
    exact ⟨rfl, rfl⟩
  · -- `hvf_rq->curr` is as before: not `p`, and not in the old tree
    intro q hq
    have hsame : ((enqueueHvfEntity E c p s).rq c).hvf.curr = (s.rq c).hvf.curr :=
      congrArg RqLink.hvfCurr hlink
    rw [hrq, hsame] at hq
    rw [hqueue, hperm.mem_iff, List.mem_cons]
    intro hin
    rcases hin with heq | hin
    · rw [heq] at hq
      exact hcurr hq
    · exact h.curr q hq hin
  · rw [hqueue]
    exact hperm
  · rw [hrq]
    exact enqueueHvfEntity_nr E c p s
  · have hsame : ((enqueueHvfEntity E c p s).rq c).nrRunning = (s.rq c).nrRunning :=
      congrArg RqLink.nrRunning hlink
    rw [hrq, hsame]

theorem Activated.finish {c : Cpu} (h : Activated s c p s') (thisCpu : Cpu) :
    Activated s c p (wakeupPreempt thisCpu c p (setOnRq p .queued s')) := by
  obtain ⟨hhvf, hrun, hent⟩ := finish_frame thisCpu c p s'
  generalize wakeupPreempt thisCpu c p (setOnRq p .queued s') = s₂ at hhvf hrun hent
  have hqueue : s₂.queue c = s'.queue c := by
    unfold Sys.queue
    rw [hhvf]
  refine ⟨?_, ?_, ⟨?_, ?_⟩, ?_, ?_, ?_⟩
  · intro q hq
    rw [hent, h.entity q hq]
  · intro d hd
    rw [hhvf, hrun]
    exact h.rq_ne d hd
  · apply h.inv.toTreeInv.congr
    · rw [hhvf]
    · intro q _
      rw [Sys.value, hent]
      exact ⟨rfl, rfl⟩
  · intro q hq
    rw [hhvf] at hq
    rw [hqueue]
    exact h.inv.curr q hq
  · rw [hqueue]
    exact h.queue
  · rw [hhvf, h.nrHvfQueued]
  · rw [hrun, h.nrRunning]

/-- Off one runqueue and onto the other. -/
theorem Deactivated.migrated {src dst : Cpu} {t : TaskStruct} (h : ReadyToMove s src dst p)
    (hd : Deactivated E s src p s₁) (ha : Activated (s₁.setTask p t) dst p s') :
    Migrated s src dst p s' := by
  have hdst : (s₁.setTask p t).rq dst = s.rq dst := hd.rq_ne dst (Ne.symm h.distinct)
  obtain ⟨hsrc, hsrcRun⟩ := ha.rq_ne src h.distinct
  rw [setTask_rq] at hsrc hsrcRun
  have hent : ∀ q, q ≠ p → (s'.task q).hvf = (s.task q).hvf := by
    intro q hq
    rw [ha.entity q hq, setTask_ne _ _ hq, hd.task, if_neg hq]
  have hqueue : s'.queue src = s₁.queue src := by
    unfold Sys.queue
    rw [hsrc]
  refine ⟨⟨?_, ?_⟩, ha.inv, hqueue.trans hd.queue, ?_, ?_, ?_, ?_, ?_, ?_⟩
  · -- `p` is not in the tree it left, so that none of its members has changed
    apply hd.inv.toTreeInv.congr
    · rw [hsrc]
    · intro q hq
      rw [hd.queue, h.srcInv.ordered.nodup.mem_erase_iff] at hq
      rw [Sys.value, Sys.value, hent q hq.1, hd.task, if_neg hq.1]
      exact ⟨rfl, rfl⟩
  · intro q hq
    rw [hsrc] at hq
    rw [hqueue]
    exact hd.inv.curr q hq
  · have hperm := ha.queue
    unfold Sys.queue at hperm ⊢
    rw [hdst] at hperm
    exact hperm
  · intro q hq
    rw [Sys.value, hent q hq]
    rfl
  · rw [hsrc, hd.nrHvfQueued]
  · rw [hsrcRun, hd.nrRunning]
  · rw [ha.nrHvfQueued, hdst]
  · rw [ha.nrRunning, hdst]

/-- The task arrives. -/
theorem migrated_of_linked {src dst : Cpu} (h : ReadyToMove s src dst p)
    (hd : Deactivated E s src p s₁) (hcurr : (s.rq dst).hvf.curr ≠ some p)
    (hnear : ∀ q ∈ s.queue dst, Near (relinkValue (s.task p) (s.task p).hvf.timeUsed) (s.value q)) :
    Migrated s src dst p (wakeupPreempt thisCpu dst p (setOnRq p .queued
      ((enqueueHvfEntity E dst p (s₁.setTask p (arriving s dst p))).addNrRunning dst 1))) := by
  have hrq : (s₁.setTask p (arriving s dst p)).rq dst = s.rq dst :=
    hd.rq_ne dst (Ne.symm h.distinct)
  have hqueue : (s₁.setTask p (arriving s dst p)).queue dst = s.queue dst := by
    unfold Sys.queue
    rw [hrq]
  have htask : ∀ q ∈ s.queue dst, (s₁.setTask p (arriving s dst p)).task q = s.task q := by
    intro q hq
    have hne : q ≠ p := fun e => h.absent (e ▸ hq)
    rw [setTask_ne _ _ hne, hd.task, if_neg hne]
  have hinv : QueueInv (s₁.setTask p (arriving s dst p)) dst := by
    refine ⟨h.dstInv.toTreeInv.congr ?_ ?_, ?_⟩
    · rw [hrq]
    · intro q hq
      rw [Sys.value, htask q hq]
      exact ⟨rfl, rfl⟩
    · rw [hrq, hqueue]
      exact h.dstInv.curr
  have hvalue : linkValue ((s₁.setTask p (arriving s dst p)).task p)
      = relinkValue (s.task p) (s.task p).hvf.timeUsed := by
    rw [setTask_self, arriving, linkValue_renewed]
    rfl
  refine hd.migrated h (Activated.finish (activated_of_free E hinv ?_ ?_ ?_) thisCpu)
  · rw [hrq]
    exact hcurr
  · rw [hqueue]
    exact h.absent
  · intro q hq
    rw [hqueue] at hq
    rw [hvalue, Sys.value, htask q hq]
    exact hnear q hq

/-- A queued task is moved, and nothing else happens, exactly if the new CPU
does not take it for its running task and its value can be computed. -/
theorem migration_conserves_tasks_iff (E : Env) (s : Sys) (thisCpu src dst : Cpu) (p : TaskId)
    (h : ReadyToMove s src dst p)
    (hnear : ∀ q ∈ s.queue dst, Near (relinkValue (s.task p) (s.task p).hvf.timeUsed) (s.value q)) :
    (∃ s', moveQueuedTask E thisCpu src p dst s = .ok s' ∧ Migrated s src dst p s') ↔
      (s.rq dst).hvf.curr ≠ some p ∧ DivisorOk (s.task p) := by
  obtain ⟨s₁, hoff, hd⟩ := deactivateTask_queued E h.srcInv h.hvf h.queued
  rw [moveQueuedTask_eq h hoff hd]
  constructor
  · rintro ⟨s', hs', hm⟩
    split at hs'
    next hok =>
      refine ⟨?_, hok⟩
      intro hcurr
      -- the tree of `dst` stays as it is
      rw [if_neg (not_not.mpr hcurr)] at hs'
      have hqueue : s'.queue dst = s.queue dst := by
        obtain ⟨hhvf, -⟩ := finish_frame thisCpu dst p (s₁.setTask p (arriving s dst p))
        rw [← Except.ok.inj hs']
        unfold Sys.queue
        rw [hhvf, setTask_rq, hd.rq_ne dst (Ne.symm h.distinct)]
      have hmem := hm.added.mem_iff.mpr List.mem_cons_self
      rw [hqueue] at hmem
      exact h.absent hmem
    next => cases hs'
  · rintro ⟨hcurr, hok⟩
    rw [if_pos hok, if_pos hcurr]
    exact ⟨_, rfl, migrated_of_linked h hd hcurr hnear⟩

/-- A task of the class waits on CPU 0, and another one on CPU 1. -/
def waitOnBoth : List Act :=
  startFirst ++ [.fork 0, .wakeNew 0 (.task 1) 0, .fork 0, .wakeNew 0 (.task 2) 1,
    .setscheduler permissive (.task 1) (plainAttr 8) true true,
    .setscheduler permissive (.task 2) (plainAttr 8) true true]

/-- The task that waits on CPU 0 is moved to CPU 1, where another one waits. -/
theorem migration_conserves_waiting_task :
    ∃ s, (ReadyToMove s 0 1 (.task 1) ∧ s.queue 1 = [.task 2]) ∧
      (∀ q ∈ s.queue 1, Near (relinkValue (s.task (.task 1)) (s.task (.task 1)).hvf.timeUsed)
        (s.value q)) ∧
      ∃ s', moveQueuedTask sampleEnv 0 0 (.task 1) 1 s = .ok s' ∧ Migrated s 0 1 (.task 1) s' := by
  obtain ⟨s, -, hf⟩ := Reached.of_eval (b := (true, true)) sampleEnv
    (fun s => (decide (ReadyToMove s 0 1 (.task 1) ∧ s.queue 1 = [.task 2]),
      decide (((s.rq 1).hvf.curr ≠ some (.task 1) ∧ DivisorOk (s.task (.task 1))) ∧
        Near (relinkValue (s.task (.task 1)) (s.task (.task 1)).hvf.timeUsed) (s.value (.task 2)))))
    waitOnBoth (by decide +kernel)
  injection hf with hready hkept
  obtain ⟨hready, hqueue⟩ := of_decide_eq_true hready
  obtain ⟨hkept, hclose⟩ := of_decide_eq_true hkept
  have hnear : ∀ q ∈ s.queue 1,
      Near (relinkValue (s.task (.task 1)) (s.task (.task 1)).hvf.timeUsed) (s.value q) := by
    intro q hq
    rw [hqueue] at hq
    rw [List.mem_singleton.mp hq]
    exact hclose
  exact ⟨s, ⟨hready, hqueue⟩, hnear,
    (migration_conserves_tasks_iff sampleEnv s 0 0 1 (.task 1) hready hnear).mpr hkept⟩

/-- The second task sets the deadlines 1004 and `1004 + 2^61` seconds while it
runs, and is displaced. -/
def waitWithWrappedDeadlines : List Act :=
  dispatchSecond ++ [.setParams 0 1004 2305843009213694956 3999, .wake 0 (.task 0) taskNormal 0,
    .schedule 0 .smPreempt ⟨false, false⟩ (pickFair (.task 0))]

/-- The second task is preempted on its way to sleep, so that `hvf_rq->curr`
goes on pointing to it. It becomes a fair task, runs, sleeps, wakes up on the
other CPU and comes back into the class. -/
def leaveStaleCurr : List Act :=
  dispatchSecond ++ [.setState 0 taskInterruptible, .wake 0 (.task 0) taskNormal 0,
    .schedule 0 .smPreempt ⟨false, false⟩ (pickFair (.task 0)), .wake 0 (.task 1) taskNormal 0,
    .setscheduler permissive (.task 1) (plainAttr 0) true true, .setState 0 taskInterruptible,
    .schedule 0 .smNone ⟨false, false⟩ (pickFair (.task 1))] ++ sleepOn 0 ++
    [.wake 0 (.task 1) taskNormal 1, .setscheduler permissive (.task 1) (plainAttr 8) true true]

/-- In the first run the move stops the kernel with a divide error; in the
second one the task is in neither tree afterwards. -/
theorem migration_loses_task :
    (∃ s, Reached sampleEnv (fun _ _ => True) s ∧ ReadyToMove s 0 1 (.task 1) ∧ s.queue 1 = [] ∧
      moveQueuedTask sampleEnv 0 0 (.task 1) 1 s = .error .divide) ∧
    ∃ s s', Reached sampleEnv (fun _ _ => True) s ∧ ReadyToMove s 1 0 (.task 1) ∧
      s.queue 0 = [] ∧ moveQueuedTask sampleEnv 0 1 (.task 1) 0 s = .ok s' ∧
      s'.queue 0 = [] ∧ s'.queue 1 = [] := by
  constructor
  · obtain ⟨s, hs, hf⟩ := Reached.of_eval (b := (true, true)) sampleEnv
      (fun s => (decide (ReadyToMove s 0 1 (.task 1) ∧ s.queue 1 = []),
        match moveQueuedTask sampleEnv 0 0 (.task 1) 1 s with
        | .error .divide => true
        | _ => false))
      waitWithWrappedDeadlines (by decide +kernel)
    injection hf with hready hmove
    obtain ⟨hready, hempty⟩ := of_decide_eq_true hready
    refine ⟨s, hs, hready, hempty, ?_⟩
    split at hmove
    next h => exact h
    next => cases hmove
  · obtain ⟨s, hs, hf⟩ := Reached.of_eval (b := (true, some true)) sampleEnv
      (fun s => (decide (ReadyToMove s 1 0 (.task 1) ∧ s.queue 0 = []),
        (moveQueuedTask sampleEnv 0 1 (.task 1) 0 s).toOption.map fun s' : Sys =>
          decide (s'.queue 0 = [] ∧ s'.queue 1 = [])))
      leaveStaleCurr (by decide +kernel)
    injection hf with hready hmove
    obtain ⟨hready, hempty⟩ := of_decide_eq_true hready
    obtain ⟨s', hs', hlost⟩ := toOption_map_eq_some hmove
    obtain ⟨hout₀, hout₁⟩ := of_decide_eq_true hlost
    exact ⟨s, s', hs, hready, hempty, hs', hout₀, hout₁⟩

end HvfSched
