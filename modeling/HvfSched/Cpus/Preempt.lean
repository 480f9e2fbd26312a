import HvfSched.Model.System

/-!
# Who decides about a wakeup preemption

A wakeup may ask the CPU of the woken task to reschedule. Among HVF tasks that
should depend on the task running there: it has to have exceeded its time, and
to be worth less than the woken one. `wakeup_preempt_hvf` looks at `current`
instead, the task that executes the wakeup. The two are the same if the wakeup
runs on the target CPU. From another CPU the waker's own record decides: a
waker that has exceeded its time has the target rescheduled although the task
there has time left, and any other waker leaves a target alone whose task has
run over (`remote_waker_decides`).

`requestsResched` is the decision, and `wakeup_preempt_by_target_iff` says for
which wakers it is the one about the target. No state is assumed to be
reachable.
-/

namespace HvfSched

open Lib

variable {s : Sys} {w c d : Cpu} {p : TaskId}

/-- The machine without a pending request on `c`. -/
def Sys.withoutRequest (s : Sys) (c : Cpu) : Sys := s.setRq c { s.rq c with needResched := false }

/-- `wakeup_preempt` executed on `w` asks `c` to reschedule: it raises the flag
of a runqueue on which no request is pending. -/
def requestsResched (w c : Cpu) (p : TaskId) (s : Sys) : Bool :=
  ((wakeupPreempt w c p (s.withoutRequest c)).rq c).needResched

/-- The task running on `d` gives way to `p`: it has exceeded its time and is
worth less. -/
def givesWay (s : Sys) (d : Cpu) (p : TaskId) : Prop :=
  (s.task (s.rq d).curr).hvf.timeUsed > (s.task (s.rq d).curr).computationTime ∧
    s.value p > s.value (s.rq d).curr

instance (s : Sys) (d : Cpu) (p : TaskId) : Decidable (givesWay s d p) :=
  inferInstanceAs (Decidable (_ ∧ _))

/-- The flag plays no part in who runs. -/
theorem withoutRequest_curr (s : Sys) (c d : Cpu) :
    ((s.withoutRequest c).rq d).curr = (s.rq d).curr := by
  unfold Sys.withoutRequest
  rw [Sys.setRq_rq]
  split
  next hd => rw [hd]
  next => rfl

/-- The hook, among HVF tasks. -/
theorem wakeupPreempt_of_hvf (hdonor : (s.task (s.rq c).curr).schedClass = .hvf)
    (hp : (s.task p).schedClass = .hvf) :
    wakeupPreempt w c p s = if (s.task (s.rq w).curr).schedClass = .hvf ∧ givesWay s w p
      then reschedCurr c s else s := by
  unfold wakeupPreempt wakeupPreemptHvf
  simp only [hdonor, hp, if_true]
  -- `exceeded_time` and the comparison of the values, as they are written there
  simp only [givesWay, exceededTime, Sys.value, gt_iff_lt, decide_eq_true_eq]

/-- Among HVF tasks the decision is about the task running on the waker's CPU. -/
theorem requestsResched_iff (hdonor : (s.task (s.rq c).curr).schedClass = .hvf)
    (hp : (s.task p).schedClass = .hvf) :
    requestsResched w c p s = true ↔
      (s.task (s.rq w).curr).schedClass = .hvf ∧ givesWay s w p := by
  have htask : (s.withoutRequest c).task = s.task := rfl
  have hgive : givesWay (s.withoutRequest c) w p ↔ givesWay s w p := by
    unfold givesWay
    rw [withoutRequest_curr]
    rfl
  have hhook := wakeupPreempt_of_hvf (s := s.withoutRequest c) (w := w) (c := c) (p := p)
    (by rw [withoutRequest_curr]; exact hdonor) hp
  simp only [withoutRequest_curr, htask, hgive] at hhook
  unfold requestsResched
  rw [hhook]
  by_cases h : (s.task (s.rq w).curr).schedClass = .hvf ∧ givesWay s w p
  · refine iff_of_true ?_ h
    rw [if_pos h]
    simp [reschedCurr]
  · refine iff_of_false ?_ h
    rw [if_neg h]
    simp [Sys.withoutRequest]

/-- Two wakers make the same decision, and the one about the task running on the
target, exactly when each of them would itself give way to the woken task if
and only if that task does. -/
theorem wakeup_preempt_by_target_iff {s : Sys} {c : Cpu} {p : TaskId}
    (hdonor : (s.task (s.rq c).curr).schedClass = .hvf) (hp : (s.task p).schedClass = .hvf)
    (w w' : Cpu) :
    (requestsResched w c p s = requestsResched w' c p s ∧
      (requestsResched w c p s = true ↔ givesWay s c p)) ↔
    (((s.task (s.rq w).curr).schedClass = .hvf ∧ givesWay s w p ↔ givesWay s c p) ∧
      ((s.task (s.rq w').curr).schedClass = .hvf ∧ givesWay s w' p ↔ givesWay s c p)) := by
  have h := requestsResched_iff (w := w) hdonor hp
  have h' := requestsResched_iff (w := w') hdonor hp
  rw [Bool.eq_iff_iff, h, h']
  constructor
  · intro ⟨hsame, htarget⟩
    exact ⟨htarget, hsame.symm.trans htarget⟩
  · intro ⟨hw, hw'⟩
    exact ⟨hw.trans hw'.symm, hw⟩

/-! ## Two CPUs that run tasks of the class -/

/-- CPU 0 runs a task of the class that was given no computation time and has
slept once since it first ran, CPU 1 one that has all its time left; a third
task of the class is asleep. -/
def runTwoCpus : List Act :=
  startFirst ++ [.fork 0, .wakeNew 0 (.task 1) 0, .fork 0, .wakeNew 0 (.task 2) 1, .fork 0,
    .wakeNew 0 (.task 3) 0, .setscheduler permissive (.task 3) (plainAttr 8) true true,
    .setscheduler permissive (.task 2) (plainAttr 8) true true,
    .schedule 1 .smNone ⟨false, false⟩ pickNone,
    .schedule 0 .smPreempt ⟨false, false⟩ (pickFair (.task 1)), .setParams 0 2000 3000 0,
    .schedule 0 .smPreempt ⟨false, false⟩ (pickFair (.task 0)),
    .setscheduler permissive (.task 1) (plainAttr 8) true true]
  ++ sleepOn 0 ++ sleepOn 0 ++ sleepOn 0
  ++ [.wake 0 (.task 1) taskNormal 0, .schedule 0 .smNone ⟨false, false⟩ pickNone]

/-- A wakeup on CPU 1 is decided alike there and on an idle CPU: the task that
runs has time left. -/
theorem wakeup_preempt_by_target_idle_waker :
    ∃ s, Reached sampleEnv (fun _ _ => True) s ∧ (s.task (.task 3)).schedClass = .hvf ∧
      (s.task (s.rq 1).curr).schedClass = .hvf ∧ (s.task (s.rq 2).curr).schedClass = .idle ∧
      requestsResched 1 1 (.task 3) s = requestsResched 2 1 (.task 3) s ∧
      (requestsResched 1 1 (.task 3) s = true ↔ givesWay s 1 (.task 3)) := by
  have hrun : ∃ s, Reached sampleEnv (fun _ _ => True) s ∧ (s.task (.task 3)).schedClass = .hvf ∧
      (s.task (s.rq 1).curr).schedClass = .hvf ∧ (s.task (s.rq 2).curr).schedClass = .idle ∧
      ¬ givesWay s 1 (.task 3) :=
    Reached.exists_of_eval sampleEnv runTwoCpus (by decide +kernel)
  obtain ⟨s, hs, hp, hdonor, hidle, hnot⟩ := hrun
  refine ⟨s, hs, hp, hdonor, hidle, ?_⟩
  refine (wakeup_preempt_by_target_iff hdonor hp 1 2).mpr ⟨and_iff_right hdonor, ?_⟩
  refine iff_of_false ?_ hnot
  rw [hidle]
  simp

/-- The third task is woken by CPU `w` on CPU `c`: is a reschedule pending then? -/
def pendingAfterWake (s : Sys) (w c : Cpu) : Option Bool :=
  (step sampleEnv s (.wake w (.task 3) taskNormal c)).map fun s' => (s'.rq c).needResched

/-- The task on CPU 0 has run over and the one on CPU 1 has not, but it is the
waker's CPU that decides: a wakeup on CPU 0 from CPU 1 asks for nothing, and
one on CPU 1 from CPU 0 asks for a reschedule. -/
theorem remote_waker_decides :
    ∃ s, Reached sampleEnv (fun _ _ => True) s ∧
      ((s.task (.task 3)).schedClass = .hvf ∧ (s.task (s.rq 0).curr).schedClass = .hvf ∧
        (s.task (s.rq 1).curr).schedClass = .hvf) ∧
      (givesWay s 0 (.task 3) ∧ ¬ givesWay s 1 (.task 3)) ∧
      (requestsResched 0 0 (.task 3) s = true ∧ requestsResched 1 0 (.task 3) s = false) ∧
      (requestsResched 1 1 (.task 3) s = false ∧ requestsResched 0 1 (.task 3) s = true) ∧
      (pendingAfterWake s 0 0 = some true ∧ pendingAfterWake s 1 0 = some false) ∧
      (pendingAfterWake s 1 1 = some false ∧ pendingAfterWake s 0 1 = some true) := by
  refine Reached.exists_of_eval sampleEnv runTwoCpus ?_
  decide +kernel

end HvfSched
