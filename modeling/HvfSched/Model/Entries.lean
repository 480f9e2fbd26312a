import HvfSched.Model.System

/-!
# More calls into the core

The machine of `Model.System` has the entry points a task of the class cannot
do without. There are others a user can reach: `set_user_nice`, `sched_yield`
and `sched_setnuma`, a change of the allowed CPUs, and the run time of a task as
`clock_gettime` asks for it. They are modelled here, and `Call` is the machine
with all of them.

What matters about them is the hooks. Most calls through a class ask first
whether the class has the hook (`reweight_task`, `yield_to_task`,
`get_rr_interval`, `task_woken` and so on); the four of `Hook` do not ask.

* The mask of allowed CPUs, the NUMA node and the run time of the fair class are
  not part of the state: nothing here reads them. `__do_set_cpus_allowed` is what
  it does around the hook.
* As before, the other classes have all the hooks, and these touch nothing the
  HVF class looks at.
-/

namespace HvfSched

open Lib

/-- `effective_prio`, with the write of `normal_prio`. -/
def effectivePrio (t : TaskStruct) : TaskStruct :=
  let normalPrio := normalPrioOf t.policy t.rtPriority (prioToNice t.staticPrio)
  { t with
    normalPrio := normalPrio
    prio := if dlPrio t.prio || rtPrio t.prio then t.prio else normalPrio }

/-- `set_user_nice`. -/
def setUserNice (E : Env) (p : TaskId) (nice : Int) (s : Sys) : Except Fault Sys :=
  let t := s.task p
  if prioToNice t.staticPrio = nice ∨ nice < minNice ∨ maxNice < nice then .ok s
  else if dlPolicy t.policy || rtPolicy t.policy then
    .ok (s.setTask p { t with staticPrio := niceToPrio nice })
  else do
    let running := s.isCurrent p
    let s ← takeOff E p s
    let s := s.setTask p (effectivePrio { s.task p with staticPrio := niceToPrio nice })
    let s ← putBack E p t.isQueued running (enqueueRestore ||| enqueueNoclock) s
    callHook .prioChanged p s

/-- `do_sched_yield`. -/
def doSchedYield (E : Env) (c : Cpu) (sig : Signals) (picks : Picks) (s : Sys) :
    Except Fault Sys := do
  let s ← callHook .yieldTask (s.rq c).curr s
  schedule E c .smNone sig picks s

/-- `task_sched_runtime`, up to the number it returns. -/
def taskSchedRuntime (p : TaskId) (s : Sys) : Except Fault Sys :=
  if (s.task p).onCpu = false ∨ (s.task p).isQueued = false then .ok s
  else if s.isCurrent p && (s.task p).isQueued then callHook .updateCurr p s
  else .ok s

/-- `sched_setnuma`. -/
def schedSetnuma (E : Env) (p : TaskId) (s : Sys) : Except Fault Sys := do
  let queued := (s.task p).isQueued
  let running := s.isCurrent p
  let s ← takeOff E p s
  putBack E p queued running (enqueueRestore ||| enqueueNoclock) s

/-- The entry points of the machine, and these. -/
inductive Call
  | act (a : Act)
  | setUserNice (p : TaskId) (nice : Int)
  | schedYield (c : Cpu) (sig : Signals) (picks : Picks)
  | setCpusAllowed (p : TaskId)
  | taskSchedRuntime (p : TaskId)
  | setnuma (p : TaskId)

def Call.enabled (s : Sys) : Call → Bool
  | .act a => HvfSched.enabled s a
  | .setUserNice p _ => s.isLive p
  | .schedYield c sig picks =>
    s.isLive (s.rq c).curr && HvfSched.enabled s (.schedule c .smNone sig picks)
  | .setCpusAllowed p => s.isLive p
  | .taskSchedRuntime p => s.isLive p
  | .setnuma p => s.isLive p

def Call.exec (E : Env) (s : Sys) : Call → Except Fault Sys
  | .act a => HvfSched.exec E s a
  | .setUserNice p nice => HvfSched.setUserNice E p nice s
  | .schedYield c sig picks => doSchedYield E c sig picks s
  | .setCpusAllowed p => doSetCpusAllowed E p s
  | .taskSchedRuntime p => HvfSched.taskSchedRuntime p s
  | .setnuma p => schedSetnuma E p s

/-- One step of the wider machine. -/
def Call.step (E : Env) (s : Sys) (k : Call) : Option Sys :=
  if k.enabled s then (k.exec E s).toOption else none

end HvfSched
