import HvfSched.Model.Value

/-!
# The HVF scheduling class

`kernel/sched/hvf.c`, function by function. A hook takes the machine state
and returns the next one, or the fault that stops the kernel. A pointer to a
`struct rq` is a CPU number and a pointer to a task or to its entity is a
`TaskId`.

Two places deserve attention when reading this against the source:
- `rb_entry` of a null node is a null entity (`run_node` is the first member
  of the entity), so `max_value_entity` becomes null when `rb_next` or
  `rb_prev` find no neighbour, and `pick_task_hvf` then follows a null
  pointer if the tree is not empty.
- `rb_erase` is only defined on a node that is linked in the tree it is
  given. `dequeueHvfEntity` faults on any other node.
-/

namespace HvfSched

open Lib

/-- Run arithmetic of the machine inside the kernel: a trap is a divide
error (`wrapv` reports nothing else). -/
def liftTrap {α : Type} : Except Trap α → Except Fault α
  | .ok a => .ok a
  | .error _ => .error .divide

/-! ## The queue of a CPU -/

/-- `init_hvf_rq`. -/
def initHvfRq : HvfRq where
  hvfTaskQueue := .nil
  maxValueEntity := none
  curr := none
  nrHvfQueued := 0

/-- `pick_task_hvf` (with `pick_entity_hvf` and `hvf_rq_empty`). -/
def pickTaskHvf (s : Sys) (c : Cpu) : Except Fault TaskId :=
  if (s.rq c).hvf.hvfTaskQueue.isEmpty then .ok (.idle c)
  else
    match (s.rq c).hvf.maxValueEntity with
    | some p => .ok p
    | none => .error .nullEntity

/-- The turn the insertion loop takes at a node: the difference of the two
values is stored in an `int`, and a tie goes left. -/
def goesLeft (s : Sys) (p q : TaskId) : Bool := diffInt (s.value p) (s.value q) ≤ 0

/-- `hvf_rq_rbtree_insert`. -/
def hvfRqRbtreeInsert (E : Env) (s : Sys) (p : TaskId) (root : OrdTree TaskId) : OrdTree TaskId :=
  E.rb.insertColor p (root.linkLeaf (goesLeft s p) p)

/-- The penalty an enqueue starts with when the task has exceeded its time. -/
def penaltyIfExceeded (t : TaskStruct) : TaskStruct :=
  if exceededTime t then { t with hvf := penaltyHvfEntity t.hvf t.computationTime } else t

/-- `enqueue_hvf_entity`. -/
def enqueueHvfEntity (E : Env) (c : Cpu) (p : TaskId) (s : Sys) : Sys :=
  let s := s.setTask p (penaltyIfExceeded (s.task p))
  let h := (s.rq c).hvf
  let root := hvfRqRbtreeInsert E s p h.hvfTaskQueue
  let s := s.setEntity p { (s.task p).hvf with onRq := true }
  let maxEntity :=
    match h.maxValueEntity with
    | none => root.toList.getLast?
    | some m => if s.value m < s.value p then succIn m root.toList else some m
  s.setHvf c
    { h with
      hvfTaskQueue := root
      nrHvfQueued := h.nrHvfQueued + 1
      maxValueEntity := maxEntity }

/-- `dequeue_hvf_entity` (it always returns true). -/
def dequeueHvfEntity (E : Env) (c : Cpu) (p : TaskId) (s : Sys) : Except Fault Sys :=
  let h := (s.rq c).hvf
  if p ∈ h.hvfTaskQueue.toList then
    let maxEntity :=
      if h.maxValueEntity = some p then predIn p h.hvfTaskQueue.toList else h.maxValueEntity
    let s := s.setEntity p { (s.task p).hvf with onRq := false }
    .ok (s.setHvf c
      { h with
        hvfTaskQueue := E.rb.erase p h.hvfTaskQueue
        nrHvfQueued := h.nrHvfQueued - 1
        maxValueEntity := maxEntity })
  else .error .rbUnlinked

/-- `if (se->on_rq) dequeue_hvf_entity(..)`. -/
def dequeueIfOnRq (E : Env) (c : Cpu) (p : TaskId) (s : Sys) : Except Fault Sys :=
  if (s.task p).hvf.onRq then dequeueHvfEntity E c p s else .ok s

/-! ## Enqueue and dequeue -/

/-- `give_default_hvf_values`, at the next clock reading. -/
def giveDefaults (E : Env) (p : TaskId) (s : Sys) : Except Fault Sys :=
  if (s.task p).parsSet then .ok s
  else do
    let t ← liftTrap (giveDefaultHvfValues (s.now E) (s.task p))
    return (s.tickClock).setTask p t

/-- `compute_init_sched_value`, on a task of the machine. -/
def computeInit (p : TaskId) (s : Sys) : Except Fault Sys := do
  let t ← liftTrap (computeInitSchedValue wrapv (s.task p))
  return s.setTask p t

/-- The refresh of the value at the start of `enqueue_task_hvf`. -/
def refreshValue (E : Env) (p : TaskId) (flags : Mask) (s : Sys) : Except Fault Sys :=
  if hasAny flags (enqueueInitial ||| enqueueChanged) then do
    let s ← giveDefaults E p s
    let s := (s.tickClock).setEntity p (initSchedHvfEntity (s.now E) (s.task p).hvf)
    computeInit p s
  else if hasAny flags (enqueueWakeup ||| enqueueMigrated ||| enqueueRestore) then
    computeInit p s
  else .ok s

/-- `enqueue_task_hvf`. -/
def enqueueTaskHvf (E : Env) (c : Cpu) (p : TaskId) (flags : Mask) (s : Sys) :
    Except Fault Sys := do
  let s ← refreshValue E p flags s
  if (s.rq c).hvf.curr ≠ some p ∧ (s.task p).hvf.onRq = false then
    return (enqueueHvfEntity E c p s).addNrRunning c 1
  else
    return s

/-- `dequeue_task_hvf`; no branch looks at the flags. -/
def dequeueTaskHvf (E : Env) (c : Cpu) (p : TaskId) (s : Sys) : Except Fault (Bool × Sys) :=
  if (s.rq c).hvf.curr ≠ some p ∧ (s.task p).hvf.onRq = true then do
    let s ← dequeueHvfEntity E c p s
    return (true, s.addNrRunning c (-1))
  else if (s.rq c).hvf.curr = some p ∧ (s.task p).isRunning = false then do
    let s ← dequeueIfOnRq E c p s
    let s := s.addNrRunning c (-1)
    return (true, s.setHvf c { (s.rq c).hvf with curr := none })
  else
    return (false, s)

/-! ## Taking and giving up the CPU -/

/-- `set_next_hvf_entity`. -/
def setNextHvfEntity (E : Env) (c : Cpu) (p : TaskId) (s : Sys) : Except Fault Sys := do
  let s ← dequeueIfOnRq E c p s
  let s := (s.tickClock).setEntity p (updateLatestSeHvf (s.now E) (s.task p).hvf)
  return s.setHvf c { (s.rq c).hvf with curr := some p }

/-- `set_next_task_hvf`. -/
def setNextTaskHvf (E : Env) (c : Cpu) (p : TaskId) (first : Bool) (s : Sys) :
    Except Fault Sys :=
  if first then setNextHvfEntity E c p s else .ok s

/-- `put_prev_hvf_entity`. -/
def putPrevHvfEntity (E : Env) (c : Cpu) (p : TaskId) (s : Sys) : Sys :=
  let s := if (s.task p).hvf.onRq then s else enqueueHvfEntity E c p s
  s.setHvf c { (s.rq c).hvf with curr := none }

/-- The decay `put_prev_task_hvf` applies to a used-up slice. -/
def reduceIfExpired (se : SchedHvfEntity) : SchedHvfEntity :=
  if se.sliceExpired then { reduceSchedValue se with sliceExpired := false } else se

/-- `put_prev_task_hvf` (`next` is not looked at). -/
def putPrevTaskHvf (E : Env) (c : Cpu) (p : TaskId) (s : Sys) : Sys :=
  let s := (s.tickClock).setEntity p (updateUsedSeHvf (s.now E) (s.task p).hvf)
  if (s.task p).isRunning then
    putPrevHvfEntity E c p (s.setEntity p (reduceIfExpired (s.task p).hvf))
  else s

/-! ## Class changes, ticks, death -/

/-- `switching_to_hvf`. -/
def switchingToHvf (E : Env) (p : TaskId) (s : Sys) : Except Fault Sys := giveDefaults E p s

/-- `switched_from_hvf` and `task_fork_hvf`: the parameters are cleared. -/
def switchedFromHvf (p : TaskId) (s : Sys) : Sys := s.setTask p (clearHvfValues (s.task p))

/-- `resched_curr`. -/
def reschedCurr (c : Cpu) (s : Sys) : Sys := s.setRq c { s.rq c with needResched := true }

/-- `task_tick_hvf`. -/
def taskTickHvf (E : Env) (c : Cpu) (p : TaskId) (s : Sys) : Sys :=
  let se := (s.task p).hvf
  let slice := timeSlice se.currSchedValue
  let runtime := se.runtime + E.tickNsec
  if runtime ≥ slice * K * K then
    reschedCurr c (s.setEntity p { se with runtime := runtime, sliceExpired := true })
  else s.setEntity p { se with runtime := runtime }

/-- `task_dead_hvf`, on the runqueue of the dead task. The report of
`register_entity_info` reads the clock and changes nothing. -/
def taskDeadHvf (E : Env) (p : TaskId) (s : Sys) : Except Fault Sys := do
  let c := (s.task p).cpu
  let s := s.tickClock
  let s ← dequeueIfOnRq E c p s
  return s.setHvf c { (s.rq c).hvf with curr := none }

/-- `wakeup_preempt_hvf`: `current` is the task running on the CPU that
executes the wakeup, not the one running on `c`. -/
def wakeupPreemptHvf (thisCpu c : Cpu) (p : TaskId) (s : Sys) : Sys :=
  let current := s.task (s.rq thisCpu).curr
  if current.schedClass = .hvf ∧ exceededTime current = true
      ∧ (s.task p).hvf.currSchedValue > current.hvf.currSchedValue then
    reschedCurr c s
  else s

end HvfSched
