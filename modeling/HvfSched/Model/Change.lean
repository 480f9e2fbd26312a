import HvfSched.Model.Core

/-!
# Changing the attributes of a task

`__sched_setscheduler` (`kernel/sched/syscalls.c`), `rt_mutex_setprio` and
`sched_move_task` (`kernel/sched/core.c`). The three take a task off its
runqueue, change it, and put it back.

Answers that depend on code outside the repository (capabilities, resource
limits, security modules, deadline bandwidth, the slice of the fair class)
come in a `Checks` record.
-/

namespace HvfSched

open Lib

/-- `check_class_changing`. -/
def checkClassChanging (E : Env) (p : TaskId) (prevClass : SchedClass) (s : Sys) :
    Except Fault Sys :=
  if prevClass ≠ (s.task p).schedClass ∧ (s.task p).schedClass = .hvf then switchingToHvf E p s
  else .ok s

/-- `check_class_changed`. The HVF class has no `prio_changed` hook. -/
def checkClassChanged (p : TaskId) (prevClass : SchedClass) (oldprio : Int) (s : Sys) :
    Except Fault Sys :=
  let t := s.task p
  if prevClass ≠ t.schedClass then
    .ok (if prevClass = .hvf then switchedFromHvf p s else s)
  else if oldprio ≠ t.prio ∨ dlPrio t.prio = true then
    if t.schedClass = .hvf then .error .nullHook else .ok s
  else .ok s

/-- `__setscheduler_class`, with `sched_ext` disabled. -/
def setschedulerClass (policy : Policy) (prio : Int) : SchedClass :=
  if dlPrio prio then .dl
  else if rtPrio prio then .rt
  else if hvfPolicy policy then .hvf
  else .fair

/-- `__normal_prio`. -/
def normalPrioOf (policy : Policy) (rtPriority : Nat) (nice : Int) : Int :=
  if dlPolicy policy then maxDlPrio - 1
  else if rtPolicy policy then maxRtPrio - 1 - rtPriority
  else niceToPrio nice

/-- `__rt_effective_prio`. -/
def rtEffectivePrioOf (s : Sys) (piTask : Option TaskId) (prio : Int) : Int :=
  match piTask with
  | none => prio
  | some q => min prio (s.task q).prio

/-! ## `__sched_setscheduler` -/

def EPERM : Int := 1
def EBUSY : Int := 16

def schedFlagResetOnFork : UInt64 := 0x01
def schedFlagKeepParams : UInt64 := 0x10
def schedFlagUtilClamp : UInt64 := 0x60
def schedFlagAll : UInt64 := 0x7f
def schedFlagSugov : UInt64 := 0x10000000

/-- `attr->sched_flags & mask`, as a condition. -/
def hasFlag (flags mask : UInt64) : Bool := flags &&& mask != 0

/-- `struct sched_attr`, as far as it is read here. -/
structure SchedAttr where
  schedPolicy : Int
  schedFlags : UInt64
  schedNice : Int
  schedPriority : Nat
  deriving DecidableEq

/-- The answers of the code outside the repository. -/
structure Checks where
  rlimitNice : Int
  rlimitRtprio : Nat
  sameOwner : Bool
  capSysNice : Bool
  checkparamDl : Bool
  security : Int
  uclampValidate : Int
  scxCheck : Int
  sliceChanged : Bool
  dlParamChanged : Bool
  rtGroupDenied : Bool
  dlBandwidthDenied : Bool
  dlOverflow : Bool
  deriving DecidableEq

/-- `is_nice_reduction` -/
def isNiceReduction (ck : Checks) (nice : Int) : Bool := 20 - nice ≤ ck.rlimitNice

/-- The conditions of `user_check_sched_setscheduler` that lead to
`req_priv`. -/
def needsPrivilege (ck : Checks) (t : TaskStruct) (attr : SchedAttr) (policy : Policy)
    (resetOnFork : Bool) : Bool :=
  let nice := prioToNice t.staticPrio
  (fairPolicy policy && attr.schedNice < nice && !isNiceReduction ck attr.schedNice)
    || (rtPolicy policy
        && ((policy != t.policy && ck.rlimitRtprio == 0)
            || (attr.schedPriority > t.rtPriority && attr.schedPriority > ck.rlimitRtprio)))
    || dlPolicy policy
    || (idlePolicy t.policy && !idlePolicy policy && !isNiceReduction ck nice)
    || !ck.sameOwner
    || (t.schedResetOnFork && !resetOnFork)

/-- `user_check_sched_setscheduler`. -/
def userCheckSchedSetscheduler (ck : Checks) (t : TaskStruct) (attr : SchedAttr)
    (policy : Policy) (resetOnFork : Bool) : Int :=
  if needsPrivilege ck t attr policy resetOnFork && !ck.capSysNice then -EPERM else 0

/-- The checks before the runqueue lock is taken, and the two right after
it: the first error, or 0. -/
def setschedulerRefusal (ck : Checks) (t : TaskStruct) (attr : SchedAttr) (policy : Policy)
    (resetOnFork user : Bool) : Int :=
  if hasFlag attr.schedFlags (~~~(schedFlagAll ||| schedFlagSugov)) then -EINVAL
  else if attr.schedPriority > 99 then -EINVAL
  else if (dlPolicy policy && !ck.checkparamDl)
      || (rtPolicy policy != (attr.schedPriority != 0)) then -EINVAL
  else if user && userCheckSchedSetscheduler ck t attr policy resetOnFork != 0 then
    userCheckSchedSetscheduler ck t attr policy resetOnFork
  else if user && hasFlag attr.schedFlags schedFlagSugov then -EINVAL
  else if user && ck.security != 0 then ck.security
  else if hasFlag attr.schedFlags schedFlagUtilClamp && ck.uclampValidate != 0 then
    ck.uclampValidate
  else if t.schedClass = .stop then -EINVAL
  else ck.scxCheck

/-- The test of the early return: nothing but `sched_reset_on_fork` can
change. -/
def setschedulerUnchanged (ck : Checks) (t : TaskStruct) (attr : SchedAttr) (policy : Policy) :
    Bool :=
  policy == t.policy
    && !(fairPolicy policy
          && (attr.schedNice != prioToNice t.staticPrio || ck.sliceChanged))
    && !(rtPolicy policy && attr.schedPriority != t.rtPriority)
    && !(dlPolicy policy && ck.dlParamChanged)
    && !hasFlag attr.schedFlags schedFlagUtilClamp

/-- The refusals after `change:`. -/
def setschedulerDenied (ck : Checks) (t : TaskStruct) (attr : SchedAttr) (policy : Policy)
    (user : Bool) : Int :=
  if user && rtPolicy policy && ck.rtGroupDenied then -EPERM
  else if user && dlPolicy policy && !hasFlag attr.schedFlags schedFlagSugov
      && ck.dlBandwidthDenied then -EPERM
  else if (dlPolicy policy || dlPrio t.prio) && ck.dlOverflow then -EBUSY
  else 0

/-- `__setscheduler_params`. `__setparam_fair` stores the nice value. -/
def setschedulerParams (attr : SchedAttr) (policy : Policy) (t : TaskStruct) : TaskStruct :=
  let staticPrio := if fairPolicy policy then niceToPrio attr.schedNice else t.staticPrio
  { t with
    policy := policy
    staticPrio := staticPrio
    rtPriority := attr.schedPriority
    normalPrio := normalPrioOf policy attr.schedPriority (prioToNice staticPrio) }

/-- The new effective priority. -/
def setschedulerNewprio (s : Sys) (p : TaskId) (attr : SchedAttr) (policy : Policy) (pi : Bool) :
    Int :=
  let newprio := normalPrioOf policy attr.schedPriority attr.schedNice
  if pi then rtEffectivePrioOf s (s.task p).piTopTask newprio else newprio

/-- The task between the two halves: `sched_reset_on_fork` and, unless the
parameters are to be kept, policy, class and priority. -/
def setschedulerUpdate (attr : SchedAttr) (policy : Policy) (resetOnFork : Bool) (newprio : Int)
    (t : TaskStruct) : TaskStruct :=
  let t := { t with schedResetOnFork := resetOnFork }
  if hasFlag attr.schedFlags schedFlagKeepParams then t
  else
    { setschedulerParams attr policy t with
      schedClass := setschedulerClass policy newprio
      prio := newprio }

/-- `queue_flags` as passed to `enqueue_task`. -/
def setschedulerFlags (attr : SchedAttr) (pi : Bool) (oldprio newprio : Int) : Mask :=
  let move := if pi ∧ newprio = oldprio then 0 else dequeueMove
  if hasFlag attr.schedFlags schedFlagKeepParams then dequeueSave ||| move ||| dequeueNoclock
  else
    dequeueSave ||| move ||| dequeueNoclock ||| enqueueChanged
      ||| (if oldprio < newprio then enqueueHead else 0)

/-- `__sched_setscheduler` from `change:` on. -/
def setschedulerChange (E : Env) (p : TaskId) (attr : SchedAttr) (policy : Policy)
    (resetOnFork pi : Bool) (s : Sys) : Except Fault Sys := do
  let t := s.task p
  let newprio := setschedulerNewprio s p attr policy pi
  let running := s.isCurrent p
  let s ← takeOff E p s
  let s := s.setTask p (setschedulerUpdate attr policy resetOnFork newprio (s.task p))
  let s ← checkClassChanging E p t.schedClass s
  let s ← putBack E p t.isQueued running (setschedulerFlags attr pi t.prio newprio) s
  checkClassChanged p t.schedClass t.prio s

/-- The policy asked for: a negative number keeps the one the task has. -/
def requestedPolicy (t : TaskStruct) (attr : SchedAttr) : Option Policy :=
  if attr.schedPolicy < 0 then some t.policy else Policy.ofInt attr.schedPolicy

/-- `reset_on_fork`. -/
def requestedReset (t : TaskStruct) (attr : SchedAttr) : Bool :=
  if attr.schedPolicy < 0 then t.schedResetOnFork
  else hasFlag attr.schedFlags schedFlagResetOnFork

/-- `__sched_setscheduler`: the return value and the state after it. -/
def schedSetscheduler (E : Env) (ck : Checks) (p : TaskId) (attr : SchedAttr) (user pi : Bool)
    (s : Sys) : Except Fault (Int × Sys) :=
  let t := s.task p
  let resetOnFork := requestedReset t attr
  match requestedPolicy t attr with
  | none => .ok (-EINVAL, s)
  | some policy =>
    let refusal := setschedulerRefusal ck t attr policy resetOnFork user
    let denied := setschedulerDenied ck t attr policy user
    if refusal ≠ 0 then .ok (refusal, s)
    else if setschedulerUnchanged ck t attr policy then
      .ok (0, s.setTask p { t with schedResetOnFork := resetOnFork })
    else if denied ≠ 0 then .ok (denied, s)
    else do
      let s ← setschedulerChange E p attr policy resetOnFork pi s
      return (0, s)

/-- `_sched_setscheduler`, the form behind the `sched_setscheduler` system
call: the nice value is the one the task has (the `SCHED_RESET_ON_FORK` bit of
the policy is passed in `resetOnFork`). -/
def schedSetschedulerAttr (t : TaskStruct) (policy : Policy) (priority : Nat)
    (resetOnFork : Bool) : SchedAttr where
  schedPolicy :=
    match policy with
    | .normal => 0
    | .fifo => 1
    | .rr => 2
    | .batch => 3
    | .idle => 5
    | .deadline => 6
    | .ext => 7
    | .hvf => 8
  schedFlags := if resetOnFork then schedFlagResetOnFork else 0
  schedNice := prioToNice t.staticPrio
  schedPriority := priority

/-! ## `rt_mutex_setprio` and `sched_move_task` -/

/-- `rt_mutex_setprio`. -/
def rtMutexSetprio (E : Env) (p : TaskId) (piTask : Option TaskId) (s : Sys) :
    Except Fault Sys :=
  let t := s.task p
  let prio := rtEffectivePrioOf s piTask t.normalPrio
  if t.piTopTask = piTask ∧ prio = t.prio ∧ dlPrio prio = false then .ok s
  else
    let s := s.setTask p { t with piTopTask := piTask }
    if (prio = t.prio ∧ dlPrio prio = false) ∨ p = .idle t.cpu then .ok s
    else do
      let running := s.isCurrent p
      let move := if t.prio = prio then 0 else dequeueMove
      let head := if rtPrio prio ∧ t.prio < prio then enqueueHead else 0
      let s ← takeOff E p s
      let s := s.setTask p
        { s.task p with schedClass := setschedulerClass t.policy prio, prio := prio }
      let s ← checkClassChanging E p t.schedClass s
      let s ← putBack E p t.isQueued running (dequeueSave ||| move ||| dequeueNoclock ||| head) s
      checkClassChanged p t.schedClass t.prio s

/-- `sched_move_task`. -/
def schedMoveTask (E : Env) (p : TaskId) (s : Sys) : Except Fault Sys := do
  let queued := (s.task p).isQueued
  let running := s.isCurrent p
  let s ← takeOff E p s
  let s ← putBack E p queued running (dequeueSave ||| dequeueMove ||| dequeueNoclock) s
  return if running then reschedCurr (s.task p).cpu s else s

end HvfSched
