import HvfSched.Lib.LongArith
import HvfSched.Lib.OrdTree

/-!
# Tasks, runqueues and the state of the machine

The data the HVF class and the parts of the core that call it work on:
`struct sched_hvf_entity` and the fields of `struct task_struct`
(`include/linux/sched.h`), `struct hvf_rq` and the fields of `struct rq`
(`kernel/sched/sched.h`), and the bit masks and policy numbers the code
tests.

Conventions:
- A task is named by a `TaskId`; `task_hvf_of` is the identity, since an
  entity lives inside its task. Every CPU has its own idle task.
- `long` is `Long` (64 bits, wrap-around), `unsigned int __state` and the
  queue flags are `UInt32`. Priorities and counters are `Int`. `nr_running` and
  `h_nr_queued` are `unsigned int` in the source, and an unmatched dequeue takes
  them below zero: there the code holds `2^32 + n` for `n`. They are only
  compared for equality, so the two agree as long as less than `2^31` dequeues
  are unmatched.
- The `rb_node` of an entity is its occurrence in the tree of its runqueue.
- `rq->donor` and `rq->curr` share a union, so there is one field.
- The wall clock is a stream of readings; `reads` counts the readings taken,
  so two calls of `ktime_get_real_ts64` inside one step may differ.
-/

namespace HvfSched

open Lib

/-! ## Identities and enumerations -/

abbrev Cpu := Nat

inductive TaskId
  | idle (cpu : Cpu)
  | task (pid : Nat)
  deriving DecidableEq, Repr

/-- The scheduling classes, highest first, in the order of the linker script
(`SCHED_DATA` in `vmlinux.lds.h`). -/
inductive SchedClass
  | stop | dl | rt | fair | ext | hvf | idle
  deriving DecidableEq, Repr

def SchedClass.addr : SchedClass → Nat
  | stop => 0
  | dl => 1
  | rt => 2
  | fair => 3
  | ext => 4
  | hvf => 5
  | idle => 6

/-- `sched_class_above`. -/
def schedClassAbove (a b : SchedClass) : Bool := a.addr < b.addr

inductive Policy
  | normal | fifo | rr | batch | idle | deadline | ext | hvf
  deriving DecidableEq, Repr

/-- `valid_policy`, with the policy the number stands for. -/
def Policy.ofInt (n : Int) : Option Policy :=
  if n = 0 then some normal
  else if n = 1 then some fifo
  else if n = 2 then some rr
  else if n = 3 then some batch
  else if n = 5 then some idle
  else if n = 6 then some deadline
  else if n = 7 then some ext
  else if n = 8 then some hvf
  else none

def idlePolicy (p : Policy) : Bool := p == .idle
def fairPolicy (p : Policy) : Bool := p == .normal || p == .ext || p == .batch
def rtPolicy (p : Policy) : Bool := p == .fifo || p == .rr
def dlPolicy (p : Policy) : Bool := p == .deadline
def hvfPolicy (p : Policy) : Bool := p == .hvf

/-- `p->on_rq`: 0, `TASK_ON_RQ_QUEUED` or `TASK_ON_RQ_MIGRATING`. -/
inductive OnRq
  | off | queued | migrating
  deriving DecidableEq, Repr

/-! ## Bit masks -/

abbrev Mask := UInt32

/-- `flags & mask`, as a condition. -/
def hasAny (flags mask : Mask) : Bool := flags &&& mask != 0

def taskRunning : Mask := 0x0
def taskInterruptible : Mask := 0x1
def taskUninterruptible : Mask := 0x2
def taskDead : Mask := 0x80
def taskWakekill : Mask := 0x100
def taskWaking : Mask := 0x200
def taskNew : Mask := 0x800
def taskNormal : Mask := taskInterruptible ||| taskUninterruptible

def dequeueSave : Mask := 0x2
def dequeueMove : Mask := 0x4
def dequeueNoclock : Mask := 0x8
def enqueueWakeup : Mask := 0x1
def enqueueRestore : Mask := 0x2
def enqueueNoclock : Mask := 0x8
def enqueueHead : Mask := 0x10
def enqueueMigrated : Mask := 0x40
def enqueueInitial : Mask := 0x80
def enqueueChanged : Mask := 0x800

/-! ## Entities, tasks, runqueues -/

/-- `struct timespec64`. -/
structure Timespec64 where
  tvSec : Long
  tvNsec : Long
  deriving DecidableEq, Repr

/-- `struct sched_hvf_entity` (`prev_cpu` and `curr_cpu` are only traced). -/
structure SchedHvfEntity where
  initSchedValue : Long
  currSchedValue : Long
  firstTime : Long
  latestTime : Long
  timeUsed : Long
  runtime : Long
  onRq : Bool
  cpuAnswers : Int32
  cpuFirstAnswer : Long
  sliceExpired : Bool
  deriving DecidableEq, Repr

/-- The fields of `struct task_struct` the modelled functions read. -/
structure TaskStruct where
  state : Mask
  onRq : OnRq
  onCpu : Bool
  cpu : Cpu
  prio : Int
  staticPrio : Int
  normalPrio : Int
  rtPriority : Nat
  schedClass : SchedClass
  policy : Policy
  schedResetOnFork : Bool
  piTopTask : Option TaskId
  hvf : SchedHvfEntity
  deadline1 : Long
  deadline2 : Long
  computationTime : Long
  parsSet : Bool
  deriving DecidableEq, Repr

/-- `task_is_running`. -/
def TaskStruct.isRunning (t : TaskStruct) : Bool := t.state == taskRunning

/-- `task_on_rq_queued`. -/
def TaskStruct.isQueued (t : TaskStruct) : Bool := t.onRq == .queued

/-- `struct hvf_rq`. -/
structure HvfRq where
  hvfTaskQueue : OrdTree TaskId
  maxValueEntity : Option TaskId
  curr : Option TaskId
  nrHvfQueued : Int

/-- `struct rq`. `cfsNrQueued` is `cfs.h_nr_queued`; `deadPrev` is the task
`finish_task_switch` still has to bury on this CPU. -/
structure Rq where
  nrRunning : Int
  cfsNrQueued : Int
  hvf : HvfRq
  curr : TaskId
  needResched : Bool
  deadPrev : Option TaskId

/-- The machine: all tasks, all runqueues, the clock readings taken so far
and the next unused pid. -/
structure Sys where
  task : TaskId → TaskStruct
  rq : Cpu → Rq
  reads : Nat
  nextPid : Nat

/-- What stops the kernel: a divide error, `rb_erase` of a node that is not
linked in that tree, a task taken from a null entity pointer, a call through a
hook the class leaves null, and `BUG()`. -/
inductive Fault
  | divide
  | rbUnlinked
  | nullEntity
  | nullHook
  | bug
  deriving DecidableEq, Repr

/-- What the repository takes from elsewhere: `lib/rbtree`, the wall clock
(its successive readings) and the length of a timer tick. -/
structure Env where
  rb : RbLib TaskId
  clock : Nat → Timespec64
  tickNsec : Long

namespace Sys

/-- Rewrite one task. -/
def setTask (s : Sys) (p : TaskId) (t : TaskStruct) : Sys :=
  { s with task := fun q => if q = p then t else s.task q }

/-- Rewrite one runqueue. -/
def setRq (s : Sys) (c : Cpu) (r : Rq) : Sys :=
  { s with rq := fun d => if d = c then r else s.rq d }

/-- Rewrite the HVF entity of one task. -/
def setEntity (s : Sys) (p : TaskId) (e : SchedHvfEntity) : Sys :=
  s.setTask p { s.task p with hvf := e }

/-- Rewrite the HVF part of one runqueue. -/
def setHvf (s : Sys) (c : Cpu) (h : HvfRq) : Sys :=
  s.setRq c { s.rq c with hvf := h }

/-- Add to `rq->nr_running`. -/
def addNrRunning (s : Sys) (c : Cpu) (n : Int) : Sys :=
  s.setRq c { s.rq c with nrRunning := (s.rq c).nrRunning + n }

/-- `ktime_get_real_ts64`: the reading, and the state after it. -/
def now (E : Env) (s : Sys) : Timespec64 := E.clock s.reads

def tickClock (s : Sys) : Sys := { s with reads := s.reads + 1 }

/-- The in-order sequence of the HVF tree of a CPU. -/
def queue (s : Sys) (c : Cpu) : List TaskId := (s.rq c).hvf.hvfTaskQueue.toList

/-- `curr_sched_value` of a task. -/
def value (s : Sys) (p : TaskId) : Long := (s.task p).hvf.currSchedValue

/-! ## Reading after a write -/

theorem setTask_task (s : Sys) (p : TaskId) (t : TaskStruct) (q : TaskId) :
    (s.setTask p t).task q = if q = p then t else s.task q := rfl

@[simp] theorem setTask_self (s : Sys) (p : TaskId) (t : TaskStruct) :
    (s.setTask p t).task p = t := if_pos rfl

@[simp] theorem setTask_rq (s : Sys) (p : TaskId) (t : TaskStruct) :
    (s.setTask p t).rq = s.rq := rfl

@[simp] theorem setTask_reads (s : Sys) (p : TaskId) (t : TaskStruct) :
    (s.setTask p t).reads = s.reads := rfl

@[simp] theorem setTask_nextPid (s : Sys) (p : TaskId) (t : TaskStruct) :
    (s.setTask p t).nextPid = s.nextPid := rfl

theorem setTask_ne (s : Sys) {p q : TaskId} (t : TaskStruct) (h : q ≠ p) :
    (s.setTask p t).task q = s.task q := if_neg h

@[simp] theorem setTask_same (s : Sys) (p : TaskId) : s.setTask p (s.task p) = s := by
  have h : (fun q => if q = p then s.task p else s.task q) = s.task := by
    funext q
    split
    next hq => rw [hq]
    next => rfl
  rw [setTask, h]

@[simp] theorem setTask_setTask (s : Sys) (p : TaskId) (t t' : TaskStruct) :
    (s.setTask p t).setTask p t' = s.setTask p t' := by
  have h : (fun q => if q = p then t' else (s.setTask p t).task q)
      = fun q => if q = p then t' else s.task q := by
    funext q
    split
    next => rfl
    next hq => rw [setTask_ne s t hq]
  rw [setTask, h]
  rfl

@[simp] theorem setRq_task (s : Sys) (c : Cpu) (r : Rq) : (s.setRq c r).task = s.task := rfl

@[simp] theorem setRq_self (s : Sys) (c : Cpu) (r : Rq) : (s.setRq c r).rq c = r := if_pos rfl

@[simp] theorem setRq_reads (s : Sys) (c : Cpu) (r : Rq) : (s.setRq c r).reads = s.reads := rfl

@[simp] theorem setRq_nextPid (s : Sys) (c : Cpu) (r : Rq) :
    (s.setRq c r).nextPid = s.nextPid := rfl

theorem setRq_rq (s : Sys) (c : Cpu) (r : Rq) (d : Cpu) :
    (s.setRq c r).rq d = if d = c then r else s.rq d := rfl

theorem setRq_ne (s : Sys) {c d : Cpu} (r : Rq) (h : d ≠ c) : (s.setRq c r).rq d = s.rq d :=
  if_neg h

@[simp] theorem tickClock_task (s : Sys) : s.tickClock.task = s.task := rfl

@[simp] theorem tickClock_rq (s : Sys) : s.tickClock.rq = s.rq := rfl

@[simp] theorem tickClock_nextPid (s : Sys) : s.tickClock.nextPid = s.nextPid := rfl

end Sys

end HvfSched
