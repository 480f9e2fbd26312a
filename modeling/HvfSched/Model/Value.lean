import HvfSched.Model.Task

/-!
# Scheduling values and time accounting

The pure part of `kernel/sched/hvf.c` and `my_sched_syscalls/sched_sys.c`:
how the value of a task is computed from its deadlines, decayed when a slice
is used up, and punished for an overrun; the time stamps of an entity; and
the two system calls that take and use the parameters.

`computeInitValue` is written over an `ops : LongOps`, so the same text is
both the function the kernel runs (`wrapv`) and the one that reports an
overflow (`strict`). `reduce_sched_value` and `penalty_hvf_entity` divide by
a constant only and cannot trap; they use the wrap-around operators of
`Long` directly.
-/

namespace HvfSched

open Lib

/-- `#define K 1000` -/
def K : Long := 1000

/-- `#define H 100` -/
def H : Long := 100

/-- A clock reading in milliseconds: `now.tv_sec*K + now.tv_nsec/(K*K)`. -/
def stampMs (now : Timespec64) : Long := now.tvSec * K + now.tvNsec / (K * K)

/-! ## The value of a task -/

/-- The value `V` of `compute_init_sched_value`. -/
def computeInitValue (ops : LongOps) (firstTime computationTime deadline1 deadline2 : Long) :
    Except Trap Long := do
  let x ← ops.add firstTime computationTime
  if x < (← ops.mul deadline1 K) then
    return H
  if (← ops.mul deadline2 K) < x then
    return 0
  let num ← ops.mul (← ops.sub (← ops.mul deadline2 K) x) H
  let den ← ops.mul (← ops.sub deadline2 deadline1) K
  ops.div num den

/-- `compute_init_sched_value`: both values of the entity become `V`. -/
def computeInitSchedValue (ops : LongOps) (t : TaskStruct) : Except Trap TaskStruct := do
  let v ← computeInitValue ops t.hvf.firstTime t.computationTime t.deadline1 t.deadline2
  return { t with hvf := { t.hvf with initSchedValue := v, currSchedValue := v } }

/-- The clamp both updates end with: a value that would not stay positive
becomes 0, and a value that was 0 is lifted to 10. -/
def settleValue (oldValue newValue : Long) : Long :=
  if newValue > 0 then newValue else if oldValue = 0 then 10 else 0

/-- `reduce_sched_value`. -/
def reduceSchedValue (se : SchedHvfEntity) : SchedHvfEntity :=
  let rate := se.timeUsed
  let oldValue := se.currSchedValue
  { se with currSchedValue := settleValue oldValue (oldValue - rate * oldValue / 100) }

/-- `penalty_hvf_entity`. -/
def penaltyHvfEntity (se : SchedHvfEntity) (ctime : Long) : SchedHvfEntity :=
  let diff := se.timeUsed - ctime
  let oldValue := se.currSchedValue
  { se with currSchedValue := settleValue oldValue (oldValue - diff * diff * oldValue / 100) }

/-- `exceeded_time`. -/
def exceededTime (t : TaskStruct) : Bool := t.hvf.timeUsed > t.computationTime

/-- `time_slice`, in milliseconds. -/
def timeSlice (schedValue : Long) : Long :=
  let maxSlice : Long := K
  let minSlice : Long := 10
  let v := if schedValue < 1 then 1 else schedValue
  let v := if v > K then K else v
  let range := maxSlice - minSlice
  v * range / K + minSlice

/-! ## Time stamps -/

/-- `init_sched_hvf_entity`. -/
def initSchedHvfEntity (now : Timespec64) (se : SchedHvfEntity) : SchedHvfEntity :=
  { se with
    firstTime := stampMs now
    latestTime := stampMs now
    timeUsed := 0
    cpuAnswers := 0
    sliceExpired := false }

/-- `update_latest_se_hvf`. -/
def updateLatestSeHvf (now : Timespec64) (se : SchedHvfEntity) : SchedHvfEntity :=
  let answers := se.cpuAnswers + 1
  { se with
    latestTime := stampMs now
    runtime := 0
    cpuAnswers := answers
    cpuFirstAnswer := if answers = 1 then stampMs now else se.cpuFirstAnswer }

/-- `update_used_se_hvf`. -/
def updateUsedSeHvf (now : Timespec64) (se : SchedHvfEntity) : SchedHvfEntity :=
  { se with timeUsed := se.timeUsed + (stampMs now - se.latestTime) }

/-- What `register_entity_info` reports of a task that has ended. -/
structure EntityInfo where
  pid : Nat
  initValue : Long
  turnaroundTime : Long
  waitTime : Long
  compTime : Long
  responseTime : Long
  deriving DecidableEq

/-- `register_entity_info`. -/
def registerEntityInfo (now : Timespec64) (se : SchedHvfEntity) (pid : Nat) : EntityInfo :=
  let turnaroundTime := stampMs now - se.firstTime
  { pid := pid
    initValue := se.initSchedValue
    turnaroundTime := turnaroundTime
    waitTime := turnaroundTime - se.timeUsed
    compTime := se.timeUsed
    responseTime := se.cpuFirstAnswer - se.firstTime }

/-! ## Parameters -/

/-- `give_default_hvf_values`: a task without parameters gets deadlines four
and six seconds ahead and one second of computation time. -/
def giveDefaultHvfValues (now : Timespec64) (t : TaskStruct) : Except Trap TaskStruct :=
  if t.parsSet then .ok t
  else
    let currTime := now.tvSec + now.tvNsec / (K * K * K)
    computeInitSchedValue wrapv
      { t with
        deadline1 := currTime + 4
        deadline2 := currTime + 6
        computationTime := K
        parsSet := true }

/-- `clear_hvf_values`. -/
def clearHvfValues (t : TaskStruct) : TaskStruct :=
  if t.parsSet then
    { t with deadline1 := 0, deadline2 := 0, computationTime := 0, parsSet := false }
  else t

def EINVAL : Int := 22

/-- `condition_1 && condition_2` of `set_scheduling_params`. -/
def paramsAccepted (now : Timespec64) (deadline1 deadline2 computationTime : Long) : Bool :=
  let condition1 := (deadline1 > 0 && deadline2 > 0) && deadline1 < deadline2
  let condition2 := now.tvSec * K + computationTime < deadline2 * K
  condition1 && condition2

/-- `set_scheduling_params`, on the calling task. -/
def setSchedulingParams (now : Timespec64) (deadline1 deadline2 computationTime : Long)
    (t : TaskStruct) : Int × TaskStruct :=
  if paramsAccepted now deadline1 deadline2 computationTime then
    (0, { t with
          deadline1 := deadline1
          deadline2 := deadline2
          computationTime := computationTime
          parsSet := true })
  else (-EINVAL, t)

/-- `get_scheduling_score`, of the calling task. -/
def getSchedulingScore (ops : LongOps) (now : Timespec64) (t : TaskStruct) :
    Except Trap Long := do
  let d1 := t.deadline1
  let d2 := t.deadline2
  let d3 := now.tvSec
  if d3 < d1 then
    return H
  else if d2 < d3 then
    return 0
  else
    let num ← ops.mul (← ops.sub d2 d3) 100
    let den ← ops.sub d2 d1
    ops.div num den

end HvfSched
