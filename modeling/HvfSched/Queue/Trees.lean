import HvfSched.Links.Sound
import HvfSched.Links.Steps
import HvfSched.Queue.Entity

/-!
# The flags and the trees agree

`Trees s`: the tree of a CPU holds exactly the entities whose flag is set and
whose task is assigned to that CPU, each once; `nr_hvf_queued` is their
number; the cached maximum is one of them. Values do not matter here, and a
tree need not be sorted.

Every hook keeps this, provided that it is called for a task on the task's
own CPU. What can break it is a write from outside the class: a flag that
appears without a link, or a linked task that is assigned to another CPU.
-/

namespace HvfSched

open Lib Sys

variable {E : Env} {s s' : Sys} {c d : Cpu} {p q : TaskId}

/-- The trees, the flags, the counters and the cached maxima of all CPUs
agree. -/
structure Trees (s : Sys) : Prop where
  mem : ∀ c p, p ∈ s.queue c ↔ (s.task p).hvf.onRq = true ∧ (s.task p).cpu = c
  nodup : ∀ c, (s.queue c).Nodup
  count : ∀ c, (s.rq c).hvf.nrHvfQueued = (s.queue c).length
  max : ∀ c m, (s.rq c).hvf.maxValueEntity = some m → m ∈ s.queue c

/-- The queue of a CPU without `hvf_rq->curr`. -/
def HvfRq.content (h : HvfRq) : HvfRq := { h with curr := none }

/-- Same queues, same flags, and linked tasks where they were. -/
theorem Trees.congr (h : Trees s) (hq : ∀ c, (s'.rq c).hvf.content = (s.rq c).hvf.content)
    (hflag : ∀ p, (s'.task p).hvf.onRq = (s.task p).hvf.onRq)
    (hcpu : ∀ p, (s.task p).hvf.onRq = true → (s'.task p).cpu = (s.task p).cpu) : Trees s' := by
  have htree : ∀ c, s'.queue c = s.queue c := by
    intro c
    have ht := congrArg (fun h : HvfRq => h.hvfTaskQueue.toList) (hq c)
    exact ht
  refine ⟨?_, ?_, ?_, ?_⟩
  · intro c p
    rw [htree, h.mem, hflag]
    constructor
    · rintro ⟨hf, hc⟩
      exact ⟨hf, (hcpu p hf).trans hc⟩
    · rintro ⟨hf, hc⟩
      exact ⟨hf, (hcpu p hf).symm.trans hc⟩
  · intro c
    rw [htree]
    exact h.nodup c
  · intro c
    have hn := congrArg HvfRq.nrHvfQueued (hq c)
    rw [htree, ← h.count c]
    exact hn
  · intro c m hm
    have hmax := congrArg HvfRq.maxValueEntity (hq c)
    rw [htree]
    exact h.max c m (hmax.symm.trans hm)

/-- A function that writes only values, times and parameters. -/
theorem Trees.rewrite (h : Trees s) (hrq : s'.rq = s.rq) (hl : s'.links = s.links) : Trees s' := by
  have hbit : ∀ p, (s'.task p).link = (s.task p).link := fun p => congrArg (fun l => l.task p) hl
  refine h.congr ?_ ?_ ?_
  · intro c
    rw [hrq]
  · intro p
    have hb := congrArg TaskLink.linked (hbit p)
    exact hb
  · intro p _
    have hb := congrArg TaskLink.cpu (hbit p)
    exact hb

/-- A write to a task that keeps flag and CPU. -/
theorem Trees.setTask (h : Trees s) {t : TaskStruct} (hflag : t.hvf.onRq = (s.task p).hvf.onRq)
    (hcpu : (s.task p).hvf.onRq = true → t.cpu = (s.task p).cpu) : Trees (s.setTask p t) := by
  refine h.congr (fun c => rfl) ?_ ?_
  · intro q
    rw [setTask_task]
    split
    next hq =>
      rw [hq]
      exact hflag
    next => rfl
  · intro q hf
    rw [setTask_task]
    split
    next hq =>
      rw [hq] at hf ⊢
      exact hcpu hf
    next => rfl

/-- Reading the clock. -/
theorem Trees.tickClock (h : Trees s) : Trees s.tickClock := ⟨h.mem, h.nodup, h.count, h.max⟩

/-- A write to a runqueue that keeps the queue. -/
theorem Trees.setRq (h : Trees s) {r : Rq} (hr : r.hvf.content = (s.rq c).hvf.content) :
    Trees (s.setRq c r) := by
  refine h.congr ?_ (fun _ => rfl) (fun _ _ => rfl)
  intro d
  rw [setRq_rq]
  split
  next hd =>
    rw [hd]
    exact hr
  next => rfl

/-! ## Linking and unlinking -/

theorem linkedTask_cpu (t : TaskStruct) : (linkedTask t).cpu = t.cpu := by
  unfold linkedTask
  have h := congrArg TaskLink.cpu (penaltyIfExceeded_link t)
  exact h

/-- `enqueue_hvf_entity` of an entity that is not linked, on the CPU of its
task. -/
theorem Trees.enqueueHvfEntity (h : Trees s) (hflag : (s.task p).hvf.onRq = false)
    (hcpu : (s.task p).cpu = c) : Trees (enqueueHvfEntity E c p s) := by
  have hp : p ∉ s.queue c := by
    intro hm
    rw [((h.mem c p).mp hm).1] at hflag
    cases hflag
  refine ⟨?_, ?_, ?_, ?_⟩
  · intro d q
    rw [enqueueHvfEntity_task]
    by_cases hd : d = c
    · subst hd
      rw [(enqueueHvfEntity_perm E d p s).mem_iff, List.mem_cons, h.mem]
      split
      next hq =>
        subst hq
        exact ⟨fun _ => ⟨rfl, (linkedTask_cpu _).trans hcpu⟩, fun _ => Or.inl rfl⟩
      next hq => exact ⟨fun hm => hm.resolve_left hq, Or.inr⟩
    · rw [queue_eq_of_rq (enqueueHvfEntity_rq_ne E p s hd), h.mem]
      split
      next hq =>
        subst hq
        -- `p` is on `c`, so it is in the tree of no other CPU
        rw [linkedTask_cpu, hcpu]
        exact ⟨fun hm => absurd hm.2.symm hd, fun hm => absurd hm.2.symm hd⟩
      next => exact Iff.rfl
  · intro d
    by_cases hd : d = c
    · subst hd
      rw [(enqueueHvfEntity_perm E d p s).nodup_iff]
      exact List.nodup_cons.mpr ⟨hp, h.nodup d⟩
    · rw [queue_eq_of_rq (enqueueHvfEntity_rq_ne E p s hd)]
      exact h.nodup d
  · intro d
    by_cases hd : d = c
    · subst hd
      rw [enqueueHvfEntity_nr, h.count, (enqueueHvfEntity_perm E d p s).length_eq,
        List.length_cons]
      omega
    · rw [queue_eq_of_rq (enqueueHvfEntity_rq_ne E p s hd), enqueueHvfEntity_rq_ne E p s hd]
      exact h.count d
  · intro d m hm
    by_cases hd : d = c
    · subst hd
      exact enqueueHvfEntity_max_mem (h.max d) hm
    · rw [enqueueHvfEntity_rq_ne E p s hd] at hm
      rw [queue_eq_of_rq (enqueueHvfEntity_rq_ne E p s hd)]
      exact h.max d m hm

/-- `dequeue_hvf_entity`. That it succeeds says that the entity was in the
tree of `c`, so its task is on `c`. If it was the cached maximum, its
predecessor takes its place. -/
theorem Trees.dequeueHvfEntity (h : Trees s) (hd : dequeueHvfEntity E c p s = .ok s') :
    Trees s' := by
  have hu := dequeueHvfEntity_unlinked hd
  have hcpu := ((h.mem c p).mp hu.mem).2
  refine ⟨?_, ?_, ?_, ?_⟩
  · intro d q
    rw [hu.task]
    by_cases hd : d = c
    · subst hd
      rw [hu.queue, (h.nodup d).mem_erase_iff, h.mem]
      split
      next hq => exact ⟨fun hm => absurd hq hm.1, fun hm => absurd hm.1 Bool.false_ne_true⟩
      next hq => exact ⟨fun hm => hm.2, fun hm => ⟨hq, hm⟩⟩
    · rw [queue_eq_of_rq (hu.rq_ne d hd), h.mem]
      split
      next hq =>
        rw [hq]
        exact ⟨fun hm => absurd (hcpu.symm.trans hm.2).symm hd, fun hm => absurd hm.1 Bool.false_ne_true⟩
      next => exact Iff.rfl
  · intro d
    by_cases hd : d = c
    · subst hd
      rw [hu.queue]
      exact (h.nodup d).erase p
    · rw [queue_eq_of_rq (hu.rq_ne d hd)]
      exact h.nodup d
  · intro d
    by_cases hd : d = c
    · subst hd
      rw [hu.nr, h.count, hu.queue, List.length_erase_of_mem hu.mem]
      have hpos := List.length_pos_of_mem hu.mem
      omega
    · rw [queue_eq_of_rq (hu.rq_ne d hd), hu.rq_ne d hd]
      exact h.count d
  · intro d m hm
    by_cases hd : d = c
    · subst hd
      rw [hu.queue]
      rw [hu.max] at hm
      split at hm
      -- the maximum itself is unlinked: its neighbour stays
      next => exact predIn_mem_erase (h.nodup d) hm
      next hne =>
        refine (h.nodup d).mem_erase_iff.mpr ⟨?_, h.max d m hm⟩
        intro e
        rw [e] at hm
        exact hne hm
    · rw [hu.rq_ne d hd] at hm
      rw [queue_eq_of_rq (hu.rq_ne d hd)]
      exact h.max d m hm

/-! ## Functions that do not touch a runqueue -/

theorem giveDefaults_rq (h : giveDefaults E p s = .ok s') : s'.rq = s.rq := by
  rcases giveDefaults_cases h with ⟨-, hs⟩ | ⟨-, t, -, hs⟩
  · rw [hs]
  · rw [hs]
    rfl

theorem computeInit_rq (h : computeInit p s = .ok s') : s'.rq = s.rq := by
  obtain ⟨t, -, hs⟩ := computeInit_cases h
  rw [hs]
  rfl

/-- The writes of `enqueue_task_hvf` before the link go to the task. -/
theorem refreshValue_rq {flags : Mask} (h : refreshValue E p flags s = .ok s') :
    s'.rq = s.rq := by
  rcases refreshValue_cases h with ⟨-, s₁, h₁, h₂⟩ | ⟨-, h₁ | hs⟩
  · have hg := giveDefaults_rq h₁
    rw [computeInit_rq h₂]
    exact hg
  · exact computeInit_rq h₁
  · rw [hs]

/-! ## Hooks -/

/-- `enqueue_task` on the CPU of the task. -/
theorem Trees.enqueueTask {flags : Mask} (h : Trees s) (hcpu : (s.task p).cpu = c)
    (he : enqueueTask E c p flags s = .ok s') : Trees s' := by
  rcases enqueueTask_cases he with ⟨-, he⟩ | ⟨-, hs⟩
  · obtain ⟨s₁, h₁, h₂⟩ := enqueueTaskHvf_cases he
    have hl := links_refreshValue h₁
    have ht₁ := h.rewrite (refreshValue_rq h₁) hl
    have hcpu₁ : (s₁.task p).cpu = c := by
      have hb := congrArg (fun l => (l.task p).cpu) hl
      exact hb.trans hcpu
    rcases h₂ with ⟨hfree, hs⟩ | ⟨-, hs⟩
    · rw [hs]
      exact (ht₁.enqueueHvfEntity hfree.2 hcpu₁).setRq rfl
    · rw [hs]
      exact ht₁
  · rw [hs]
    exact h.setRq rfl

theorem Trees.dequeueIfOnRq (h : Trees s) (hd : dequeueIfOnRq E c p s = .ok s') : Trees s' := by
  rcases dequeueIfOnRq_cases hd with ⟨-, hd⟩ | ⟨-, hs⟩
  · exact h.dequeueHvfEntity hd
  · rw [hs]
    exact h

/-- `dequeue_task`, on any CPU: `rb_erase` of a node of another tree is a
fault. -/
theorem Trees.dequeueTask {r : Bool × Sys} (h : Trees s) (hd : dequeueTask E c p s = .ok r) :
    Trees r.2 := by
  rcases dequeueTask_cases hd with ⟨-, hd⟩ | ⟨-, hr⟩
  · rcases dequeueTaskHvf_cases hd with ⟨-, s₁, h₁, hr⟩ | ⟨-, s₁, h₁, hr⟩ | ⟨-, -, hr⟩
    · rw [hr]
      exact (h.dequeueHvfEntity h₁).setRq rfl
    · rw [hr]
      refine Trees.setRq ?_ rfl
      exact (h.dequeueIfOnRq h₁).setRq rfl
    · rw [hr]
      exact h
  · rw [hr]
    exact h.setRq rfl

theorem Trees.setEntity (h : Trees s) {e : SchedHvfEntity} (he : e.onRq = (s.task p).hvf.onRq) :
    Trees (s.setEntity p e) := h.setTask he fun _ => rfl

/-- `put_prev_hvf_entity` on the CPU of the task. -/
theorem Trees.putPrevHvfEntity (h : Trees s) (hcpu : (s.task p).cpu = c) :
    Trees (putPrevHvfEntity E c p s) := by
  unfold HvfSched.putPrevHvfEntity
  dsimp only
  split
  next => exact h.setRq rfl
  next hflag => exact (h.enqueueHvfEntity (Bool.eq_false_iff.mpr hflag) hcpu).setRq rfl

/-- `put_prev_task`: a task of the class is put on its own CPU. -/
theorem Trees.putPrevTask (h : Trees s)
    (hcpu : (s.task p).schedClass = .hvf → (s.task p).cpu = c) : Trees (putPrevTask E c p s) := by
  unfold HvfSched.putPrevTask
  split
  next hcls =>
    have hc := hcpu hcls
    unfold putPrevTaskHvf
    dsimp only
    have hused : Trees ((s.tickClock).setEntity p (updateUsedSeHvf (s.now E) (s.task p).hvf)) :=
      h.tickClock.setEntity rfl
    have hc₁ : (((s.tickClock).setEntity p (updateUsedSeHvf (s.now E) (s.task p).hvf)).task p).cpu
        = c := by
      rw [Sys.setEntity, setTask_self]
      exact hc
    generalize (s.tickClock).setEntity p (updateUsedSeHvf (s.now E) (s.task p).hvf) = s₁ at hused hc₁
    split
    next =>
      refine Trees.putPrevHvfEntity (hused.setEntity (reduceIfExpired_onRq _)) ?_
      rw [Sys.setEntity, setTask_self]
      exact hc₁
    next => exact hused
  next => exact h

/-- `set_next_task` with `first` set takes the task off the tree. -/
theorem Trees.setNextTask (h : Trees s) (hn : setNextTask E c p true s = .ok s') : Trees s' := by
  rcases setNextTask_cases hn with ⟨-, s₁, h₁, hs⟩ | ⟨-, hs⟩
  · rw [hs]
    refine Trees.setRq ?_ rfl
    exact (h.dequeueIfOnRq h₁).tickClock.setEntity rfl
  · rw [hs]
    exact h

/-! ## The core -/

/-- `activate_task` on the CPU of the task. -/
theorem Trees.activateTask {flags : Mask} (h : Trees s) (hcpu : (s.task p).cpu = c)
    (ha : activateTask E c p flags s = .ok s') : Trees s' := by
  obtain ⟨s₁, h₁, hs⟩ := activateTask_cases ha
  rw [hs]
  exact (h.enqueueTask hcpu h₁).setTask rfl fun _ => rfl

/-- The first part of `__schedule`: `prev` blocks, gets its state back or
stays. -/
theorem Trees.leavePrev {mode : SchedMode} {sig : Signals} (h : Trees s)
    (hl : leavePrev E c mode sig s = .ok s') : Trees s' := by
  rcases leavePrev_cases hl with ⟨-, ⟨-, hs⟩ | ⟨-, hb⟩⟩ | ⟨-, hs⟩
  · rw [hs]
    exact h.setTask rfl fun _ => rfl
  · obtain ⟨b, s₁, h₁, hs⟩ := blockTask_cases hb
    have ht₁ : Trees s₁ := h.dequeueTask h₁
    rw [hs]
    split
    next => exact ht₁.setTask rfl fun _ => rfl
    next => exact ht₁
  · rw [hs]
    exact h

/-- `put_prev_set_next_task`, where `prev` is on this CPU. -/
theorem Trees.putPrevSetNextTask {prev next : TaskId} (h : Trees s)
    (hcpu : (s.task prev).schedClass = .hvf → (s.task prev).cpu = c)
    (hs : putPrevSetNextTask E c prev next s = .ok s') : Trees s' := by
  rcases putPrevSetNextTask_cases hs with ⟨-, hs⟩ | ⟨-, hset⟩
  · rw [hs]
    exact h
  · exact (h.putPrevTask hcpu).setNextTask hset

/-- The switch itself writes `on_cpu` and `rq->curr` only. -/
theorem Trees.switchTo (h : Trees s) (prev next : TaskId) : Trees (switchTo c prev next s) := by
  unfold HvfSched.switchTo
  split
  next => exact h.setRq rfl
  next =>
    dsimp only
    have h₁ : Trees (setOnCpu prev false s) := h.setTask rfl fun _ => rfl
    have h₂ : Trees (setOnCpu next true (setOnCpu prev false s)) := h₁.setTask rfl fun _ => rfl
    exact h₂.setRq rfl

theorem switchTo_queue (c : Cpu) (prev next : TaskId) (s : Sys) (d : Cpu) :
    (switchTo c prev next s).queue d = s.queue d := by
  unfold switchTo Sys.queue
  split
  next =>
    rw [setRq_rq]
    split
    next hd => rw [hd]
    next => rfl
  next =>
    dsimp only
    rw [setRq_rq]
    split
    next hd =>
      rw [hd]
      rfl
    next => rfl

/-- `finish_task_switch` with the `task_dead` hook of the dead task. -/
theorem Trees.finishTaskSwitch (h : Trees s) (hf : finishTaskSwitch E c p s = .ok s') :
    Trees s' := by
  have hdead : Trees (s.setRq c { s.rq c with deadPrev := none }) := h.setRq rfl
  rcases finishTaskSwitch_cases hf with ⟨-, s₁, h₁, hs⟩ | ⟨-, hs⟩
  · rw [hs]
    exact (hdead.tickClock.dequeueIfOnRq h₁).setRq rfl
  · rw [hs]
    exact hdead

theorem Trees.reschedCurr (h : Trees s) : Trees (reschedCurr c s) := h.setRq rfl

theorem Trees.wakeupPreempt (h : Trees s) (thisCpu : Cpu) :
    Trees (wakeupPreempt thisCpu c p s) := by
  rcases wakeupPreempt_cases thisCpu c p s with hs | hs
  · rw [hs]
    exact h
  · rw [hs]
    exact h.reschedCurr

/-- Only an unlinked task may change its CPU. -/
theorem Trees.place {dest : Cpu} {v : Mask} (h : Trees s)
    (hmove : (s.task p).cpu ≠ dest → (s.task p).hvf.onRq = false) :
    Trees (setTaskCpu p dest (setTaskState p v s)) := by
  have hst : Trees (setTaskState p v s) := h.setTask rfl fun _ => rfl
  refine hst.setTask rfl ?_
  intro hflag
  rw [setTaskState, setTask_self] at hflag ⊢
  by_contra hne
  have hf := hmove fun e => hne e.symm
  dsimp only at hflag
  rw [hf] at hflag
  cases hflag

/-- A wakeup, or the first wakeup of a child: the task is placed, enqueued and
running again. -/
theorem Trees.activate {dest thisCpu : Cpu} {v flags : Mask} {s₁ : Sys} (h : Trees s)
    (hmove : (s.task p).cpu ≠ dest → (s.task p).hvf.onRq = false)
    (ha : HvfSched.activateTask E dest p flags (setTaskCpu p dest (setTaskState p v s)) = .ok s₁)
    (hs : (v = taskRunning ∧ s' = HvfSched.wakeupPreempt thisCpu dest p s₁) ∨
      s' = setTaskState p taskRunning (HvfSched.wakeupPreempt thisCpu dest p s₁)) : Trees s' := by
  have hact : Trees (HvfSched.wakeupPreempt thisCpu dest p s₁) := by
    refine Trees.wakeupPreempt ((h.place hmove).activateTask ?_ ha) thisCpu
    rw [setTaskCpu, setTask_self]
  rcases hs with ⟨-, hs⟩ | hs
  · rw [hs]
    exact hact
  · rw [hs]
    exact hact.setTask rfl fun _ => rfl

/-! ## Class changes and forks -/

/-- The first half of a class change: dequeue a queued task, put a running
one. The dequeue leaves the CPU of the task alone, so the put is on its own
CPU. -/
theorem Trees.takeOff (h : Trees s) (ht : takeOff E p s = .ok s') : Trees s' := by
  obtain ⟨s₁, h₁, hs⟩ := takeOff_cases ht
  have hd : Trees s₁ ∧ (s₁.task p).cpu = (s.task p).cpu := by
    rcases h₁ with ⟨-, b, hr⟩ | ⟨-, h₁⟩
    · refine ⟨h.dequeueTask hr, ?_⟩
      have hl := congrArg (fun x => (x.2.task p).cpu) (links_dequeueTask hr)
      exact hl.trans ((Links.dequeue_frame _ p s.links).cpu p)
    · rw [h₁]
      exact ⟨h, rfl⟩
  rw [hs]
  split
  next => exact hd.1.putPrevTask fun _ => hd.2
  next => exact hd.1

/-- The second half of a class change enqueues on the CPU of the task. -/
theorem Trees.putBack {queued running : Bool} {flags : Mask} (h : Trees s)
    (hp : putBack E p queued running flags s = .ok s') : Trees s' := by
  rcases putBack_cases hp with ⟨-, he⟩ | ⟨-, hs⟩
  · exact h.enqueueTask rfl he
  · rw [hs]
    exact h

theorem Trees.checkClassChanging {cls : SchedClass} (h : Trees s)
    (hc : checkClassChanging E p cls s = .ok s') : Trees s' := by
  refine h.rewrite ?_ (links_checkClassChanging hc)
  rcases checkClassChanging_cases hc with ⟨-, hg⟩ | ⟨-, hs⟩
  · exact giveDefaults_rq hg
  · rw [hs]

/-- A write that is confined to policy, class and priorities. -/
theorem Trees.setTask_body (h : Trees s) {t : TaskStruct} (ht : t.body = (s.task p).body) :
    Trees (s.setTask p t) := by
  have hflag := congrArg (fun u : TaskStruct => u.hvf.onRq) ht
  have hcpu := congrArg TaskStruct.cpu ht
  exact h.setTask hflag fun _ => hcpu

/-- A class change as a whole: off the runqueue, new class, defaults, back,
and the `switched_from` hook or a reschedule. -/
theorem Trees.classChange {cls : SchedClass} {init : Bool} (h : Trees s)
    (hc : ClassChange E p cls init s s') :
    Trees s' := by
  obtain ⟨hbody₀, -, hoff, hbody, -, hmid, hback, hend, -, -⟩ := hc
  next t₀ t s₁ s₂ s₃ running flags =>
  have h₁ := (h.setTask_body hbody₀).takeOff hoff
  have h₂ := (h₁.setTask_body hbody).checkClassChanging hmid
  have h₃ := h₂.putBack hback
  rcases hend with h' | ⟨-, h'⟩ | ⟨c, h'⟩
  · rw [h']
    exact h₃
  · rw [h']
    exact h₃.rewrite rfl (links_switchedFromHvf p s₃)
  · rw [h']
    exact h₃.reschedCurr

/-- A new task starts unlinked. -/
theorem Trees.addTask {t : TaskStruct} (h : Trees s)
    (hold : (s.task (.task s.nextPid)).hvf.onRq = false) (hnew : t.hvf.onRq = false) :
    Trees (addTask t s) := by
  have hset : Trees (s.setTask (.task s.nextPid) t) := by
    refine h.setTask (hnew.trans hold.symm) ?_
    intro hf
    rw [hold] at hf
    cases hf
  exact ⟨hset.mem, hset.nodup, hset.count, hset.max⟩

end HvfSched
