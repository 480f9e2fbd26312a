import HvfSched.Lib.Run
import HvfSched.Model.Change

/-!
# The machine as a transition system

Every entry point of the scheduler is one action of the system: it runs under
the runqueue lock and is atomic here. The machine starts in `boot`, where
`sched_init` has set up every runqueue and the first task waits for
`wake_up_new_task`; every other task is created by a fork.

`enabled` states what the callers guarantee and the code does not check:
- only a real task writes its own state, forks, or makes a system call;
  `TASK_DEAD` is written by `do_task_dead` alone, which runs the last
  `__schedule` with preemption off;
- a CPU does not schedule again before `finish_task_switch` has buried the
  task it switched from;
- `SM_IDLE` is used by the idle loop only;
- no wakeup names `TASK_DEAD`, `TASK_NEW` or `TASK_WAKING`, and a wakeup of a
  task that left the runqueue waits until it is off its CPU;
- `sched_copy_attr` has clamped the nice value;
- a class above HVF picks a queued task of its own on that CPU.
-/

namespace HvfSched

open Lib

/-- The entry points. -/
inductive Act
  | setState (c : Cpu) (state : Mask)
  | schedule (c : Cpu) (mode : SchedMode) (sig : Signals) (picks : Picks)
  | doTaskDead (c : Cpu) (picks : Picks)
  | finishTaskSwitch (c : Cpu)
  | tick (c : Cpu)
  | wake (thisCpu : Cpu) (p : TaskId) (mask : Mask) (dest : Cpu)
  | fork (c : Cpu)
  | wakeNew (thisCpu : Cpu) (p : TaskId) (dest : Cpu)
  | setscheduler (ck : Checks) (p : TaskId) (attr : SchedAttr) (user pi : Bool)
  | setprio (p : TaskId) (piTask : Option TaskId)
  | moveTask (p : TaskId)
  | setParams (c : Cpu) (deadline1 deadline2 computationTime : Long)

namespace Sys

/-- A task created by a fork (or the first one). -/
def isLive (s : Sys) : TaskId → Bool
  | .idle _ => false
  | .task n => n < s.nextPid

/-- The next task to be created does not exist yet. -/
theorem ne_next_of_live {s : Sys} {p : TaskId} (h : s.isLive p = true) : p ≠ .task s.nextPid := by
  intro e
  rw [e] at h
  exact absurd (of_decide_eq_true h) (Nat.lt_irrefl _)

/-- Does `__schedule` in this mode block the running task of `c`? -/
def blocks (s : Sys) (c : Cpu) (mode : SchedMode) (sig : Signals) : Bool :=
  let prev := s.task (s.rq c).curr
  triesToBlock mode prev && !signalPendingState prev.state sig

/-- A class above HVF may answer `p`, when `blocked` says that the running
task is leaving the runqueue. -/
def pickable (s : Sys) (c : Cpu) (blocked : Bool) (p : TaskId) : Bool :=
  s.isLive p && schedClassAbove (s.task p).schedClass .hvf && (s.task p).isQueued
    && (s.task p).cpu == c && !(blocked && p == (s.rq c).curr)

/-- The answers of the classes above HVF are possible ones. -/
def picksOk (s : Sys) (c : Cpu) (blocked : Bool) (picks : Picks) : Bool :=
  (match picks.fast with
    | .task p => (s.task p).schedClass == .fair && s.pickable c blocked p
    | _ => true)
  && (match picks.above with
    | some p => s.pickable c blocked p
    | none => true)

end Sys

def minNice : Int := -20
def maxNice : Int := 19

/-- What the callers of an entry point guarantee. -/
def enabled (s : Sys) : Act → Bool
  | .setState c state => s.isLive (s.rq c).curr && state != taskDead
  | .schedule c mode sig picks =>
    (s.rq c).deadPrev == none && (s.task (s.rq c).curr).state != taskDead
      && (mode != .smIdle || (s.rq c).curr == .idle c)
      && s.picksOk c (s.blocks c mode sig) picks
  | .doTaskDead c picks =>
    s.isLive (s.rq c).curr && (s.rq c).deadPrev == none && s.picksOk c true picks
  | .finishTaskSwitch c => (s.rq c).deadPrev != none
  | .tick _ => true
  | .wake _ p mask _ =>
    s.isLive p && !hasAny mask (taskDead ||| taskNew ||| taskWaking)
      && ((s.task p).onRq == .queued || (s.task p).onCpu == false)
  | .fork c => s.isLive (s.rq c).curr
  | .wakeNew _ p _ =>
    s.isLive p && (s.task p).state == taskNew && (s.task p).onRq == .off
      && (s.task p).onCpu == false
  | .setscheduler _ p attr _ _ => s.isLive p && minNice ≤ attr.schedNice && attr.schedNice ≤ maxNice
  | .setprio p _ => s.isLive p
  | .moveTask p => s.isLive p
  | .setParams c _ _ _ => s.isLive (s.rq c).curr

/-- What an entry point does. -/
def exec (E : Env) (s : Sys) : Act → Except Fault Sys
  | .setState c state => .ok (setTaskState (s.rq c).curr state s)
  | .schedule c mode sig picks => schedule E c mode sig picks s
  | .doTaskDead c picks => doTaskDead E c picks s
  | .finishTaskSwitch c =>
    match (s.rq c).deadPrev with
    | none => .ok s
    | some p => finishTaskSwitch E c p s
  | .tick c => .ok (schedTick E c s)
  | .wake thisCpu p mask dest => tryToWakeUp E thisCpu p mask dest s
  | .fork c => .ok (copyProcess c s)
  | .wakeNew thisCpu p dest => wakeUpNewTask E thisCpu p dest s
  | .setscheduler ck p attr user pi => (schedSetscheduler E ck p attr user pi s).map Prod.snd
  | .setprio p piTask => rtMutexSetprio E p piTask s
  | .moveTask p => schedMoveTask E p s
  | .setParams c d1 d2 ct =>
    let p := (s.rq c).curr
    .ok ((s.tickClock).setTask p (setSchedulingParams (s.now E) d1 d2 ct (s.task p)).2)

/-- One step of the machine; a fault stops it. -/
def step (E : Env) (s : Sys) (a : Act) : Option Sys :=
  if enabled s a then (exec E s a).toOption else none

/-! ## The start -/

def zeroEntity : SchedHvfEntity where
  initSchedValue := 0
  currSchedValue := 0
  firstTime := 0
  latestTime := 0
  timeUsed := 0
  runtime := 0
  onRq := false
  cpuAnswers := 0
  cpuFirstAnswer := 0
  sliceExpired := false

/-- The first task, as `copy_process` leaves it. -/
def firstTask : TaskStruct where
  state := taskNew
  onRq := .off
  onCpu := false
  cpu := 0
  prio := defaultPrio
  staticPrio := defaultPrio
  normalPrio := defaultPrio
  rtPriority := 0
  schedClass := .fair
  policy := .normal
  schedResetOnFork := false
  piTopTask := none
  hvf := zeroEntity
  deadline1 := 0
  deadline2 := 0
  computationTime := 0
  parsSet := false

/-- The idle task of a CPU, after `init_idle`. -/
def idleTask (c : Cpu) : TaskStruct :=
  { firstTask with
    state := taskRunning
    onRq := .queued
    onCpu := true
    cpu := c
    schedClass := .idle }

/-- A runqueue after `sched_init`. -/
def initRq (c : Cpu) : Rq where
  nrRunning := 0
  cfsNrQueued := 0
  hvf := initHvfRq
  curr := .idle c
  needResched := false
  deadPrev := none

/-- The machine after `sched_init`, with the first task not yet woken. -/
def boot : Sys where
  task
    | .idle c => idleTask c
    | .task _ => firstTask
  rq := initRq
  reads := 0
  nextPid := 1

/-- An environment to run the machine in: trees that are never rebalanced,
one millisecond between clock readings, five ticks a second. -/
def sampleEnv : Env where
  rb := RbLib.plain TaskId
  clock i := ⟨1000, Int64.ofNat i * 1000000⟩
  tickNsec := 200000000

/-- The same in the year 2023: a clock that is set. -/
def wallEnv : Env :=
  { sampleEnv with clock := fun i => ⟨1700000000, Int64.ofNat i * 1000000⟩ }

/-- Checks outside the repository that find nothing to object to. -/
def permissive : Checks where
  rlimitNice := 0
  rlimitRtprio := 0
  sameOwner := true
  capSysNice := true
  checkparamDl := true
  security := 0
  uclampValidate := 0
  scxCheck := 0
  sliceChanged := false
  dlParamChanged := false
  rtGroupDenied := false
  dlBandwidthDenied := false
  dlOverflow := false

/-- The attributes that ask for a policy and nothing else. -/
def plainAttr (policy : Int) : SchedAttr := ⟨policy, 0, 0, 0⟩

/-- The fair class answers `p`. -/
def pickFair (p : TaskId) : Picks := ⟨.task p, some p, false⟩

/-- The classes above HVF have nothing to run. -/
def pickNone : Picks := ⟨.none, none, false⟩

/-- The first task is woken and runs on CPU 0. -/
def startFirst : List Act :=
  [.wakeNew 0 (.task 0) 0, .schedule 0 .smNone ⟨false, false⟩ (pickFair (.task 0))]

/-- The second task, of the class, takes the CPU when the first one sleeps. -/
def dispatchSecond : List Act :=
  startFirst ++ [.fork 0, .wakeNew 0 (.task 1) 0,
    .setscheduler permissive (.task 1) (plainAttr 8) true true, .setState 0 taskInterruptible,
    .schedule 0 .smNone ⟨false, false⟩ pickNone]

/-- Two tasks of the class share a CPU: one runs and has used up its slice, the
other waits. -/
def useUpSlice : List Act :=
  startFirst ++ [.fork 0, .wakeNew 0 (.task 1) 0, .fork 0, .wakeNew 0 (.task 2) 0,
    .setscheduler permissive (.task 1) (plainAttr 8) true true,
    .setscheduler permissive (.task 2) (plainAttr 8) true true,
    .setState 0 taskInterruptible, .schedule 0 .smNone ⟨false, false⟩ pickNone, .tick 0]

/-- The running task sleeps. -/
def sleepOn (c : Cpu) : List Act :=
  [.setState c taskInterruptible, .schedule c .smNone ⟨false, false⟩ pickNone]

/-- The states reached from `boot` by steps that all meet `ok`. -/
def Reached (E : Env) (ok : Sys → Act → Prop) : Sys → Prop :=
  Reach (fun s => s = boot) (step E) ok

/-- A run from `boot` that can be evaluated. -/
theorem Reached.of_eval {β : Type} (E : Env) (f : Sys → β) (l : List Act) {b : β}
    (h : (runList (step E) l boot).map f = some b) :
    ∃ s, Reached E (fun _ _ => True) s ∧ f s = b :=
  Reach.of_eval f rfl h

/-- A run from `boot` to a state whose property can be decided. -/
theorem Reached.exists_of_eval {P : Sys → Prop} [DecidablePred P] (E : Env) (l : List Act)
    (h : (runList (step E) l boot).any (fun s => decide (P s)) = true) :
    ∃ s, Reached E (fun _ _ => True) s ∧ P s := by
  obtain ⟨s, hs, hP⟩ := (Option.any_eq_true _ _).mp h
  exact ⟨s, Reach.of_runList (.start rfl) hs, of_decide_eq_true hP⟩

/-- Two runs from `boot`, looked at together. -/
theorem Reached.exists_two_of_eval {P : Sys → Sys → Prop} [∀ s s', Decidable (P s s')] (E : Env)
    (l l' : List Act)
    (h : (runList (step E) l boot).any (fun s =>
      (runList (step E) l' boot).any fun s' => decide (P s s')) = true) :
    ∃ s s', (Reached E (fun _ _ => True) s ∧ Reached E (fun _ _ => True) s') ∧ P s s' := by
  obtain ⟨s, hs, hrest⟩ := (Option.any_eq_true _ _).mp h
  obtain ⟨s', hs', hP⟩ := (Option.any_eq_true _ _).mp hrest
  have hr : Reached E (fun _ _ => True) s := Reach.of_runList (.start rfl) hs
  have hr' : Reached E (fun _ _ => True) s' := Reach.of_runList (.start rfl) hs'
  exact ⟨s, s', ⟨hr, hr'⟩, of_decide_eq_true hP⟩

/-- A run from `boot` whose steps can be checked while it is evaluated. -/
theorem Reached.of_check {β : Type} (E : Env) (ok : Sys → Act → Prop) [∀ s a, Decidable (ok s a)]
    (f : Sys → β) (l : List Act) {b : β} (h : (runChecked (step E) ok l boot).map f = some b) :
    ∃ s, Reached E ok s ∧ f s = b :=
  Reach.of_check f rfl h

end HvfSched
