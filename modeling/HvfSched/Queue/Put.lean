import HvfSched.Queue.Ordered
import HvfSched.Values.Calls

/-!
# Putting the running task back, and setting the next one

What `put_prev_task_hvf` and `set_next_task_hvf` do to the tree and to the
values. The running task is charged, reduced if its slice is used up, and
linked again under its new value (`requeueValue`); the next one is unlinked.
-/

namespace HvfSched

open Lib Sys

variable {E : Env} {s s' s₁ : Sys} {c : Cpu} {p q m : TaskId}

/-! ## `put_prev_task` -/

/-- The running task as it is put: the time used is added, and the value is
reduced if the slice is used up. -/
def putTask (E : Env) (s : Sys) (p : TaskId) : TaskStruct :=
  { s.task p with hvf := reduceIfExpired (updateUsedSeHvf (s.now E) (s.task p).hvf) }

/-- What the running task is worth when it is put back: less a share for the
time used if its slice is used up, and less a share for the square of the
overrun if it overran and is not linked. -/
def requeueValue (E : Env) (s : Sys) (p : TaskId) : Long :=
  let t := s.task p
  let used := t.hvf.timeUsed + (stampMs (s.now E) - t.hvf.latestTime)
  let overrun := used - t.computationTime
  let v := t.hvf.currSchedValue
  let v := if t.hvf.sliceExpired then settleValue v (v - used * v / 100) else v
  if t.hvf.onRq = false ∧ t.computationTime < used then
    settleValue v (v - overrun * overrun * v / 100)
  else v

theorem withUsed_task (E : Env) (p : TaskId) (s : Sys) (q : TaskId) :
    (withUsed E p s).task q
      = if q = p then { s.task p with hvf := updateUsedSeHvf (s.now E) (s.task p).hvf }
        else s.task q := rfl

theorem reduced_withUsed_task (E : Env) (p : TaskId) (s : Sys) (q : TaskId) :
    (reduced p (withUsed E p s)).task q = if q = p then putTask E s p else s.task q := by
  unfold Sys.reduced
  rw [Sys.setEntity, setTask_task, withUsed_task, withUsed_task, if_pos rfl]
  split
  next => rfl
  next => rfl

theorem putPrevTask_task_ne (hq : q ≠ p) : (putPrevTask E c p s).task q = s.task q := by
  unfold putPrevTask
  split
  next =>
    rw [putPrevTaskHvf_eq]
    split
    next =>
      have hred : (reduced p (withUsed E p s)).task q = s.task q := by
        rw [reduced_withUsed_task, if_neg hq]
      unfold putPrevHvfEntity
      dsimp only
      split
      next => exact hred
      next =>
        show (enqueueHvfEntity E c p (reduced p (withUsed E p s))).task q = s.task q
        rw [enqueueHvfEntity_task, if_neg hq, hred]
    next => exact if_neg hq
  next => rfl

theorem putTask_onRq (E : Env) (s : Sys) (p : TaskId) :
    (putTask E s p).hvf.onRq = (s.task p).hvf.onRq := by
  unfold putTask
  rw [reduceIfExpired_onRq]
  rfl

theorem queue_setHvf_curr (s : Sys) (c : Cpu) (x : Option TaskId) :
    (s.setHvf c { (s.rq c).hvf with curr := x }).queue c = s.queue c := by
  unfold Sys.queue
  rw [Sys.setHvf, setRq_self]

/-- An entity that is linked already is reduced, but not punished. -/
theorem requeueValue_eq (E : Env) (s : Sys) (p : TaskId) :
    requeueValue E s p = if (s.task p).hvf.onRq then (putTask E s p).hvf.currSchedValue
      else linkValue (putTask E s p) := by
  have hused : (putTask E s p).hvf.timeUsed
      = (s.task p).hvf.timeUsed + (stampMs (s.now E) - (s.task p).hvf.latestTime) := by
    unfold putTask reduceIfExpired
    split
    next => rfl
    next => rfl
  have hvalue : (putTask E s p).hvf.currSchedValue
      = if (s.task p).hvf.sliceExpired then settleValue (s.task p).hvf.currSchedValue
          ((s.task p).hvf.currSchedValue
            - (putTask E s p).hvf.timeUsed * (s.task p).hvf.currSchedValue / 100)
        else (s.task p).hvf.currSchedValue := by
    rw [hused]
    unfold putTask reduceIfExpired
    show (if (s.task p).hvf.sliceExpired = true then _ else _ : SchedHvfEntity).currSchedValue = _
    split
    next => rfl
    next => rfl
  unfold requeueValue linkValue penaltyIfExceeded
  dsimp only
  rw [← hused, ← hvalue]
  by_cases hflag : (s.task p).hvf.onRq = true
  · rw [if_pos hflag, if_neg]
    rintro ⟨hunlinked, -⟩
    exact Bool.false_ne_true (hunlinked.symm.trans hflag)
  · rw [if_neg hflag]
    by_cases hover : (s.task p).computationTime < (putTask E s p).hvf.timeUsed
    · have hex : exceededTime (putTask E s p) = true := decide_eq_true hover
      rw [if_pos ⟨Bool.eq_false_iff.mpr hflag, hover⟩, if_pos hex]
      rfl
    · rw [if_neg (fun h => hover h.2), if_neg]
      intro hex
      exact hover (of_decide_eq_true hex)

/-- A task that goes to sleep, or is of another class, leaves the tree and the
values as they are. -/
theorem putPrevTask_quiet (h : ¬ ((s.task p).schedClass = .hvf ∧ (s.task p).isRunning = true)) :
    (putPrevTask E c p s).rq = s.rq ∧ ∀ q, (putPrevTask E c p s).value q = s.value q := by
  unfold putPrevTask
  split
  next hcls =>
    rw [putPrevTaskHvf_eq, if_neg (fun hrun => h ⟨hcls, hrun⟩)]
    refine ⟨rfl, ?_⟩
    intro q
    rw [Sys.value, withUsed_task]
    split
    next hq => rw [hq]; rfl
    next => rfl
  next => exact ⟨rfl, fun _ => rfl⟩

/-- `put_prev_task` of a task that is not linked: the task as it is charged
and reduced, linked. -/
theorem putPrevTask_eq_link (E : Env) (c : Cpu) (hcls : (s.task p).schedClass = .hvf)
    (hrun : (s.task p).isRunning = true) (hflag : (s.task p).hvf.onRq = false) :
    ∃ s₀, s₀.rq = s.rq ∧ (∀ q, s₀.task q = if q = p then putTask E s p else s.task q) ∧
      putPrevTask E c p s = (enqueueHvfEntity E c p s₀).setHvf c
        { ((enqueueHvfEntity E c p s₀).rq c).hvf with curr := none } := by
  refine ⟨reduced p (withUsed E p s), rfl, reduced_withUsed_task E p s, ?_⟩
  have hflag₀ : ((reduced p (withUsed E p s)).task p).hvf.onRq = false := by
    rw [reduced_withUsed_task, if_pos rfl, putTask_onRq]
    exact hflag
  rw [putPrevTask, if_pos hcls, putPrevTaskHvf_eq, if_pos hrun, putPrevHvfEntity]
  dsimp only
  rw [hflag₀]
  rfl

/-- The value under which the running task is put back. -/
theorem putPrevTaskHvf_value (hrun : (s.task p).isRunning = true) :
    (putPrevTaskHvf E c p s).value p = requeueValue E s p := by
  rw [putPrevTaskHvf_eq, if_pos hrun]
  have hself := reduced_withUsed_task E p s p
  rw [if_pos rfl] at hself
  generalize reduced p (withUsed E p s) = s₁ at hself
  have hflag : (s₁.task p).hvf.onRq = (s.task p).hvf.onRq := by
    rw [hself, putTask_onRq]
  rw [requeueValue_eq]
  unfold putPrevHvfEntity
  rw [hflag]
  dsimp only
  split
  next =>
    show (s₁.task p).hvf.currSchedValue = _
    rw [hself]
  next =>
    have hv := enqueueHvfEntity_value_self E c p s₁
    rw [hself] at hv
    exact hv

/-- A task that could go on is in the tree afterwards, under its new value. -/
theorem putPrevTask_requeue (hcls : (s.task p).schedClass = .hvf)
    (hrun : (s.task p).isRunning = true)
    (hmem : (s.task p).hvf.onRq = true → p ∈ s.queue c) :
    (∀ q, q ∈ (putPrevTask E c p s).queue c ↔ q = p ∨ q ∈ s.queue c) ∧
    (putPrevTask E c p s).value p = requeueValue E s p ∧
    ∀ q, q ≠ p → (putPrevTask E c p s).value q = s.value q := by
  refine ⟨?_, ?_, ?_⟩
  · intro q
    rw [putPrevTask, if_pos hcls, putPrevTaskHvf_eq, if_pos hrun]
    have hqueue : (reduced p (withUsed E p s)).queue c = s.queue c := rfl
    have hflag : ((reduced p (withUsed E p s)).task p).hvf.onRq = (s.task p).hvf.onRq := by
      rw [reduced_withUsed_task, if_pos rfl, putTask_onRq]
    generalize reduced p (withUsed E p s) = s₁ at hqueue hflag
    unfold putPrevHvfEntity
    rw [hflag]
    dsimp only
    rw [queue_setHvf_curr]
    split
    next hf =>
      -- linked already
      rw [hqueue]
      refine ⟨Or.inr, ?_⟩
      rintro (hq | hq)
      · rw [hq]
        exact hmem hf
      · exact hq
    next => rw [(enqueueHvfEntity_perm E c p s₁).mem_iff, List.mem_cons, hqueue]
  · rw [putPrevTask, if_pos hcls]
    exact putPrevTaskHvf_value hrun
  · intro q hq
    rw [Sys.value, putPrevTask_task_ne hq, Sys.value]

/-! ## `set_next_task` -/

/-- `set_next_task` of a member of the tree. -/
theorem setNextTask_eq_unlink (E : Env) (hcls : (s.task m).schedClass = .hvf)
    (hflag : (s.task m).hvf.onRq = true) (hmem : m ∈ s.queue c) :
    ∃ s₁, Unlinked E c m s s₁ ∧ setNextTask E c m true s
      = .ok ((s₁.tickClock.setEntity m (updateLatestSeHvf (s₁.now E) (s₁.task m).hvf)).setHvf c
          { (s₁.rq c).hvf with curr := some m }) := by
  obtain ⟨s₁, h₁⟩ := dequeueHvfEntity_of_mem E hmem
  have hdeq : dequeueIfOnRq E c m s = .ok s₁ := by
    rw [dequeueIfOnRq, if_pos hflag]
    exact h₁
  refine ⟨s₁, dequeueHvfEntity_unlinked h₁, ?_⟩
  rw [setNextTask, if_pos hcls, setNextTaskHvf, if_pos rfl, setNextHvfEntity, hdeq]
  rfl

/-- An HVF task that is in the tree, and no other, leaves it. -/
theorem setNextTask_of_mem (hcls : (s.task m).schedClass = .hvf)
    (hflag : (s.task m).hvf.onRq = true) (hmem : m ∈ s.queue c) (hnodup : (s.queue c).Nodup) :
    ∃ s', setNextTask E c m true s = .ok s' ∧
      ∀ q, q ∈ s'.queue c ↔ q ≠ m ∧ q ∈ s.queue c := by
  obtain ⟨s₁, hu, hset⟩ := setNextTask_eq_unlink E hcls hflag hmem
  refine ⟨_, hset, ?_⟩
  intro q
  have hq := queue_setHvf_curr
    (s₁.tickClock.setEntity m (updateLatestSeHvf (s₁.now E) (s₁.task m).hvf)) c (some m)
  have hq' := hq.trans hu.queue
  rw [← hnodup.mem_erase_iff, ← hq']
  rfl

end HvfSched
