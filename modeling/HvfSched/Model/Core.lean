import HvfSched.Model.Hvf

/-!
# The scheduler core around the class

The functions of `kernel/sched/core.c` and `kernel/sched/sched.h` that call
the hooks: enqueueing and dequeueing through the class of a task, blocking,
picking, `__schedule`, wakeups, ticks, forks and the burial of dead tasks.

A task is often taken off its runqueue, changed, and put back, with the same
four hook calls: `dequeue_task` if it is queued, `put_prev_task` if it is
running, then `enqueue_task` and `set_next_task` under the same two conditions.
`takeOff` and `putBack` are those halves.

The files of the other classes are not part of the repository. What the core
relies on is stated here once:
- they count their own tasks: an enqueue adds one to `rq->nr_running` (and
  the fair class one to `cfs.h_nr_queued`), a dequeue takes one away and
  succeeds;
- the task they pick, if any, is a queued task of their class on that CPU;
  which one, and whether there is one, is left open and supplied as `Picks`;
- their other hooks touch nothing the HVF class looks at.
-/

namespace HvfSched

open Lib

/-! ## Dispatch through the class -/

/-- What an enqueue of another class does to the counters of the runqueue. -/
def otherEnqueue (cls : SchedClass) (c : Cpu) (s : Sys) : Sys :=
  let r := s.rq c
  s.setRq c
    { r with
      nrRunning := r.nrRunning + 1
      cfsNrQueued := if cls = .fair then r.cfsNrQueued + 1 else r.cfsNrQueued }

/-- What a dequeue of another class does to the counters of the runqueue. -/
def otherDequeue (cls : SchedClass) (c : Cpu) (s : Sys) : Sys :=
  let r := s.rq c
  s.setRq c
    { r with
      nrRunning := r.nrRunning - 1
      cfsNrQueued := if cls = .fair then r.cfsNrQueued - 1 else r.cfsNrQueued }

/-- `enqueue_task`. -/
def enqueueTask (E : Env) (c : Cpu) (p : TaskId) (flags : Mask) (s : Sys) : Except Fault Sys :=
  if (s.task p).schedClass = .hvf then enqueueTaskHvf E c p flags s
  else .ok (otherEnqueue (s.task p).schedClass c s)

/-- `dequeue_task`. -/
def dequeueTask (E : Env) (c : Cpu) (p : TaskId) (s : Sys) : Except Fault (Bool × Sys) :=
  if (s.task p).schedClass = .hvf then dequeueTaskHvf E c p s
  else .ok (true, otherDequeue (s.task p).schedClass c s)

/-- `prev->sched_class->put_prev_task`. -/
def putPrevTask (E : Env) (c : Cpu) (p : TaskId) (s : Sys) : Sys :=
  if (s.task p).schedClass = .hvf then putPrevTaskHvf E c p s else s

/-- `next->sched_class->set_next_task`. -/
def setNextTask (E : Env) (c : Cpu) (p : TaskId) (first : Bool) (s : Sys) : Except Fault Sys :=
  if (s.task p).schedClass = .hvf then setNextTaskHvf E c p first s else .ok s

/-- Write `p->on_rq`. -/
def setOnRq (p : TaskId) (v : OnRq) (s : Sys) : Sys := s.setTask p { s.task p with onRq := v }

/-- Write `p->on_cpu`. -/
def setOnCpu (p : TaskId) (v : Bool) (s : Sys) : Sys := s.setTask p { s.task p with onCpu := v }

/-- Write `p->__state`. -/
def setTaskState (p : TaskId) (v : Mask) (s : Sys) : Sys :=
  s.setTask p { s.task p with state := v }

/-- `activate_task`. -/
def activateTask (E : Env) (c : Cpu) (p : TaskId) (flags : Mask) (s : Sys) :
    Except Fault Sys := do
  let flags := if (s.task p).onRq = .migrating then flags ||| enqueueMigrated else flags
  let s ← enqueueTask E c p flags s
  return setOnRq p .queued s

/-- `deactivate_task`; the answer of `dequeue_task` is not looked at. -/
def deactivateTask (E : Env) (c : Cpu) (p : TaskId) (s : Sys) : Except Fault Sys := do
  let (_, s) ← dequeueTask E c p (setOnRq p .migrating s)
  return s

/-- `block_task` (with `__block_task`). -/
def blockTask (E : Env) (c : Cpu) (p : TaskId) (s : Sys) : Except Fault Sys := do
  let (done, s) ← dequeueTask E c p s
  return if done then setOnRq p .off s else s

/-! ## Picking the next task -/

/-- What `pick_next_task_fair` may answer. -/
inductive FairPick
  | retry
  | none
  | task (p : TaskId)
  deriving DecidableEq

/-- What `__schedule` asks of code that is not modelled: the answers of
`pick_next_task_fair` on the fast path and of the classes above HVF on the
ordered walk, and whether `prev` has its migration disabled with `cpus_ptr`
still at its own mask. -/
structure Picks where
  fast : FairPick
  above : Option TaskId
  pinned : Bool
  deriving DecidableEq

/-- The ordered walk of `__pick_next_task` over the active classes. The HVF
class always answers, so the idle class is never asked. -/
def pickFromClasses (s : Sys) (c : Cpu) (picks : Picks) : Except Fault TaskId :=
  match picks.above with
  | some p => .ok p
  | none => pickTaskHvf s c

/-- The choice made by `__pick_next_task`. -/
def pickNext (s : Sys) (c : Cpu) (prev : TaskId) (picks : Picks) : Except Fault TaskId :=
  if schedClassAbove (s.task prev).schedClass .fair = false
      ∧ (s.rq c).nrRunning = (s.rq c).cfsNrQueued then
    match picks.fast with
    | .retry => pickFromClasses s c picks
    | .none => .ok (.idle c)
    | .task p => .ok p
  else pickFromClasses s c picks

/-- `put_prev_set_next_task`. -/
def putPrevSetNextTask (E : Env) (c : Cpu) (prev next : TaskId) (s : Sys) : Except Fault Sys :=
  if next = prev then .ok s
  else setNextTask E c next true (putPrevTask E c prev s)

/-- `__pick_next_task`: the choice, and the state after the old task was put
and the new one set. -/
def pickNextTask (E : Env) (c : Cpu) (prev : TaskId) (picks : Picks) (s : Sys) :
    Except Fault (TaskId × Sys) := do
  let next ← pickNext s c prev picks
  let s ← putPrevSetNextTask E c prev next s
  return (next, s)

/-! ## Taking a task off its runqueue and putting it back -/

/-- `task_current_donor`, on the CPU of the task. -/
def Sys.isCurrent (s : Sys) (p : TaskId) : Bool := (s.rq (s.task p).cpu).curr == p

/-- `if (queued) dequeue_task(..); if (running) put_prev_task(..);` -/
def takeOff (E : Env) (p : TaskId) (s : Sys) : Except Fault Sys := do
  let c := (s.task p).cpu
  let running := s.isCurrent p
  let s ← (if (s.task p).isQueued then (dequeueTask E c p s).map Prod.snd else .ok s)
  return if running then putPrevTask E c p s else s

/-- `if (queued) enqueue_task(..); if (running) set_next_task(..);` -/
def putBack (E : Env) (p : TaskId) (queued running : Bool) (flags : Mask) (s : Sys) :
    Except Fault Sys := do
  let c := (s.task p).cpu
  let s ← (if queued then enqueueTask E c p flags s else .ok s)
  if running then setNextTask E c p false s else .ok s

/-- Hooks the core calls without asking whether the class has them. -/
inductive Hook
  | prioChanged
  | yieldTask
  | setCpusAllowed
  | updateCurr
  deriving DecidableEq, Repr

/-- `DEFINE_SCHED_CLASS(hvf)` names none of them. -/
def SchedClass.hasHook (cls : SchedClass) : Hook → Bool
  | .prioChanged => cls != .hvf
  | .yieldTask => cls != .hvf
  | .setCpusAllowed => cls != .hvf
  | .updateCurr => cls != .hvf

/-- A call through the class of a task. -/
def callHook (h : Hook) (p : TaskId) (s : Sys) : Except Fault Sys :=
  if (s.task p).schedClass.hasHook h then .ok s else .error .nullHook

/-- `__do_set_cpus_allowed`. -/
def doSetCpusAllowed (E : Env) (p : TaskId) (s : Sys) : Except Fault Sys := do
  let queued := (s.task p).isQueued
  let running := s.isCurrent p
  let s ← takeOff E p s
  let s ← callHook .setCpusAllowed p s
  putBack E p queued running (enqueueRestore ||| enqueueNoclock) s

/-! ## `__schedule` -/

inductive SchedMode
  | smIdle | smNone | smPreempt | smRtlockWait
  deriving DecidableEq

/-- Whether signals are pending for the task, and a fatal one among them. -/
structure Signals where
  pending : Bool
  fatal : Bool
  deriving DecidableEq

/-- `signal_pending_state`. -/
def signalPendingState (state : Mask) (sig : Signals) : Bool :=
  hasAny state (taskInterruptible ||| taskWakekill) && sig.pending
    && (hasAny state taskInterruptible || sig.fatal)

/-- Does `__schedule` in this mode try to block `prev`? -/
def triesToBlock (mode : SchedMode) (prev : TaskStruct) : Bool :=
  mode != .smIdle && mode != .smPreempt && prev.state != taskRunning

/-- `try_to_block_task`. -/
def tryToBlockTask (E : Env) (c : Cpu) (p : TaskId) (sig : Signals) (s : Sys) :
    Except Fault Sys :=
  if signalPendingState (s.task p).state sig then .ok (setTaskState p taskRunning s)
  else blockTask E c p s

/-- The bookkeeping of a context switch: `rq->curr`, `on_cpu`, and a dead
`prev` left for `finish_task_switch`. -/
def switchTo (c : Cpu) (prev next : TaskId) (s : Sys) : Sys :=
  if next = prev then s.setRq c { s.rq c with needResched := false }
  else
    let s := setOnCpu next true (setOnCpu prev false s)
    let dead := if (s.task prev).state = taskDead then some prev else none
    s.setRq c { s.rq c with curr := next, needResched := false, deadPrev := dead }

/-- `migrate_disable_switch`. The masks are not part of the state; `pinned` says
that both of its tests are passed. -/
def migrateDisableSwitch (E : Env) (p : TaskId) (pinned : Bool) (s : Sys) : Except Fault Sys :=
  if pinned then doSetCpusAllowed E p s else .ok s

/-- `__schedule` returns in the task that is current then. A dead one comes back
from the call in `do_task_dead`, and what follows there is `BUG()`. -/
def returnToCurr (c : Cpu) (s : Sys) : Except Fault Sys :=
  if (s.task (s.rq c).curr).state = taskDead then .error .bug else .ok s

/-- `__schedule` from the pick on. -/
def scheduleTail (E : Env) (c : Cpu) (prev : TaskId) (picks : Picks) (s : Sys) :
    Except Fault Sys := do
  let (next, s) ← pickNextTask E c prev picks s
  -- `rq->curr` is `next` before `migrate_disable_switch`, so `prev` is not put again
  let s := switchTo c prev next s
  let s ← (if next = prev then .ok s else migrateDisableSwitch E prev picks.pinned s)
  returnToCurr c s

/-- What `__schedule` does with the running task before the pick. -/
def leavePrev (E : Env) (c : Cpu) (mode : SchedMode) (sig : Signals) (s : Sys) :
    Except Fault Sys :=
  let prev := (s.rq c).curr
  if triesToBlock mode (s.task prev) then tryToBlockTask E c prev sig s else .ok s

/-- `__schedule`. -/
def schedule (E : Env) (c : Cpu) (mode : SchedMode) (sig : Signals) (picks : Picks) (s : Sys) :
    Except Fault Sys :=
  let prev := (s.rq c).curr
  if mode = .smIdle ∧ (s.rq c).nrRunning = 0 then
    .ok (s.setRq c { s.rq c with needResched := false })
  else do
    let s ← leavePrev E c mode sig s
    scheduleTail E c prev picks s

/-- `do_task_dead`: the last `__schedule` of a task. The `BUG()` behind it is that
of `returnToCurr`. -/
def doTaskDead (E : Env) (c : Cpu) (picks : Picks) (s : Sys) : Except Fault Sys :=
  schedule E c .smNone ⟨false, false⟩ picks (setTaskState (s.rq c).curr taskDead s)

/-- The part of `finish_task_switch` that buries a dead `prev`. -/
def finishTaskSwitch (E : Env) (c : Cpu) (p : TaskId) (s : Sys) : Except Fault Sys := do
  let s := s.setRq c { s.rq c with deadPrev := none }
  if (s.task p).schedClass = .hvf then taskDeadHvf E p s else .ok s

/-- `sched_tick`. -/
def schedTick (E : Env) (c : Cpu) (s : Sys) : Sys :=
  let p := (s.rq c).curr
  if (s.task p).schedClass = .hvf then taskTickHvf E c p s else s

/-! ## Wakeups -/

/-- `wakeup_preempt`, executed on `thisCpu` for a task on `c`. -/
def wakeupPreempt (thisCpu c : Cpu) (p : TaskId) (s : Sys) : Sys :=
  let donor := s.task (s.rq c).curr
  let cls := (s.task p).schedClass
  if cls = donor.schedClass then
    if cls = .hvf then wakeupPreemptHvf thisCpu c p s else s
  else if schedClassAbove cls donor.schedClass then reschedCurr c s
  else s

/-- `ttwu_do_activate`. -/
def ttwuDoActivate (E : Env) (thisCpu c : Cpu) (p : TaskId) (migrated : Bool) (s : Sys) :
    Except Fault Sys := do
  let flags := enqueueWakeup ||| enqueueNoclock ||| (if migrated then enqueueMigrated else 0)
  let s ← activateTask E c p flags s
  return setTaskState p taskRunning (wakeupPreempt thisCpu c p s)

/-- `ttwu_runnable`, on a task that is queued. -/
def ttwuRunnable (thisCpu : Cpu) (p : TaskId) (s : Sys) : Sys :=
  let s := if (s.task p).onCpu then s else wakeupPreempt thisCpu (s.task p).cpu p s
  setTaskState p taskRunning s

/-- `set_task_cpu`. The `migrate_task_rq` hook of the class writes `curr_cpu` of
the entity and prints a trace; no scheduling decision reads either. -/
def setTaskCpu (p : TaskId) (c : Cpu) (s : Sys) : Sys := s.setTask p { s.task p with cpu := c }

/-- `move_queued_task`, executed on `thisCpu`: `p` goes from `c` to `newCpu`. -/
def moveQueuedTask (E : Env) (thisCpu c : Cpu) (p : TaskId) (newCpu : Cpu) (s : Sys) :
    Except Fault Sys := do
  let s ← deactivateTask E c p s
  let s ← activateTask E newCpu p 0 (setTaskCpu p newCpu s)
  return wakeupPreempt thisCpu newCpu p s

/-- `try_to_wake_up`, executed on `thisCpu`; `dest` is the answer of
`select_task_rq`. -/
def tryToWakeUp (E : Env) (thisCpu : Cpu) (p : TaskId) (mask : Mask) (dest : Cpu) (s : Sys) :
    Except Fault Sys :=
  if hasAny (s.task p).state mask = false then .ok s
  else if p = (s.rq thisCpu).curr then .ok (setTaskState p taskRunning s)
  else if (s.task p).onRq = .queued then .ok (ttwuRunnable thisCpu p s)
  else
    let migrated := (s.task p).cpu != dest
    ttwuDoActivate E thisCpu dest p migrated (setTaskCpu p dest (setTaskState p taskWaking s))

/-! ## Fork -/

def maxDlPrio : Int := 0
def maxRtPrio : Int := 100
def defaultPrio : Int := 120

/-- `dl_prio` -/
def dlPrio (prio : Int) : Bool := prio < maxDlPrio
/-- `rt_prio` -/
def rtPrio (prio : Int) : Bool := maxDlPrio ≤ prio && prio < maxRtPrio
/-- `NICE_TO_PRIO` -/
def niceToPrio (nice : Int) : Int := nice + defaultPrio
/-- `PRIO_TO_NICE` -/
def prioToNice (prio : Int) : Int := prio - defaultPrio

/-- The reversion of `sched_fork` to the default policy, when it was asked
for with `SCHED_RESET_ON_FORK`. -/
def revertOnFork (t : TaskStruct) : TaskStruct :=
  if t.schedResetOnFork then
    let t :=
      if dlPolicy t.policy || rtPolicy t.policy then
        { t with policy := .normal, staticPrio := niceToPrio 0, rtPriority := 0 }
      else if prioToNice t.staticPrio < 0 then { t with staticPrio := niceToPrio 0 }
      else t
    { t with prio := t.staticPrio, normalPrio := t.staticPrio, schedResetOnFork := false }
  else t

/-- `sched_fork` (with `__sched_fork`) on the copy of the parent; `none` is
`-EAGAIN`. The class is chosen from the priority alone. -/
def schedFork (parent : TaskStruct) : Option TaskStruct :=
  let p := { parent with onRq := .off, state := taskNew, prio := parent.normalPrio }
  let p := revertOnFork p
  if dlPrio p.prio then none
  else
    some { p with
      schedClass := if rtPrio p.prio then .rt else .fair
      onCpu := false }

/-- What `copy_process` does to the child after `sched_fork`:
`rt_mutex_init_task` clears the donor, `sched_cgroup_fork` sets the CPU (the
`task_fork` hook of HVF is never the child's), and at the end the parameters
are cleared. -/
def finishChild (c : Cpu) (p : TaskStruct) : TaskStruct :=
  { p with
    cpu := c
    piTopTask := none
    deadline1 := 0
    deadline2 := 0
    computationTime := 0
    parsSet := false }

/-- A new task under the next pid. -/
def addTask (t : TaskStruct) (s : Sys) : Sys :=
  { s.setTask (.task s.nextPid) t with nextPid := s.nextPid + 1 }

/-- `copy_process`: the child of the task running on `c`. `dup_task_struct`
copies the parent whole. -/
def copyProcess (c : Cpu) (s : Sys) : Sys :=
  match schedFork (s.task (s.rq c).curr) with
  | none => s
  | some p => addTask (finishChild c p) s

/-- `wake_up_new_task`; `dest` is the answer of `select_task_rq`. -/
def wakeUpNewTask (E : Env) (thisCpu : Cpu) (p : TaskId) (dest : Cpu) (s : Sys) :
    Except Fault Sys := do
  let s := setTaskCpu p dest (setTaskState p taskRunning s)
  let s ← activateTask E dest p (enqueueNoclock ||| enqueueInitial) s
  return wakeupPreempt thisCpu dest p s

end HvfSched
