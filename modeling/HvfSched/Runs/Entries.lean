import HvfSched.Model.Entries
import HvfSched.Runs.Faults

/-!
# The calls that stop the kernel

`Runs.Faults` asks where the machine can stop. Here the question is asked of the
machine with the calls of `Model.Entries`, and over runs that make such calls.

What makes this short is that these calls do little when they return. For a task
of another class the two halves around the change cancel out
(`requeue_other`). For a task of the class `sched_setnuma` is `sched_move_task`
without the last line (`schedSetnuma_moveTask`), and no other of them gets past
its hook. So whatever the invariants of the machine are, they are kept (`Steady`),
and of these calls `callsMissingHook` and `callResumesDead` list all that stop.
-/

namespace HvfSched

open Lib Sys

variable {E : Env} {s s' : Sys} {a : Act} {k : Call} {c : Cpu} {p : TaskId}

/-! ## Off the runqueue and back -/

/-- `ENQUEUE_MOVE` means nothing to the class. -/
theorem enqueueTask_move (c : Cpu) (s : Sys) :
    enqueueTask E c p (dequeueSave ||| dequeueMove ||| dequeueNoclock) s
      = enqueueTask E c p (enqueueRestore ||| enqueueNoclock) s := by
  unfold enqueueTask enqueueTaskHvf refreshValue
  rfl

/-- `sched_setnuma` does what `sched_move_task` does before its last line. -/
theorem schedSetnuma_moveTask (E : Env) (p : TaskId) (s : Sys) :
    schedMoveTask E p s = (schedSetnuma E p s).map fun s' =>
      if s.isCurrent p then reschedCurr (s'.task p).cpu s' else s' := by
  unfold schedMoveTask schedSetnuma
  dsimp only
  cases takeOff E p s with
  | error f => rfl
  | ok s₁ =>
    have hback : putBack E p (s.task p).isQueued (s.isCurrent p)
        (dequeueSave ||| dequeueMove ||| dequeueNoclock) s₁
        = putBack E p (s.task p).isQueued (s.isCurrent p) (enqueueRestore ||| enqueueNoclock) s₁ := by
      unfold putBack
      dsimp only
      rw [enqueueTask_move]
    show putBack E p (s.task p).isQueued (s.isCurrent p) _ s₁ >>= _
      = (putBack E p (s.task p).isQueued (s.isCurrent p) _ s₁).map _
    rw [hback]
    cases putBack E p (s.task p).isQueued (s.isCurrent p) (enqueueRestore ||| enqueueNoclock) s₁ with
    | error f => rfl
    | ok s₂ => rfl

/-! ## What every call keeps -/

/-- The invariants that rule out the other faults. -/
structure Steady (s : Sys) : Prop where
  base : Base s
  sorted : Sorted s
  scaled : Scaled s
  divisors : Divisors s

theorem boot_steady : Steady boot := ⟨boot_base, boot_sorted, boot_scaled, boot_divisors⟩

theorem Steady.act (h : Steady s) (hok : runsOn E s a) (hstep : step E s a = some s') : Steady s' :=
  ⟨step_base h.base hok.1.1.1 hstep, step_sorted h.base h.sorted h.scaled hok.1 hstep,
    step_scaled h.scaled hok.1.1.2 hstep, step_divides h.divisors hok.2 hstep⟩

/-- Attributes other than the class, and the request to reschedule, do not matter. -/
theorem Steady.rewrite (h : Steady s) (hl : s'.links = s.links)
    (hrq : ∀ c, (s'.rq c).hvf = (s.rq c).hvf)
    (hbody : ∀ p, (s'.task p).body = (s.task p).body) : Steady s' := by
  have hv : ∀ p, s'.value p = s.value p := by
    intro p
    have hb := congrArg (fun t : TaskStruct => t.hvf.currSchedValue) (hbody p)
    exact hb
  refine ⟨⟨h.base.trees.of_links hrq ?_, ?_⟩, h.sorted.same ?_ hv, ?_, ?_⟩
  · intro p
    rw [hl]
    exact ⟨rfl, rfl⟩
  · rw [hl]
    exact h.base.sound
  · intro c
    rw [hrq]
  · intro p
    rw [hv]
    exact h.scaled p
  · intro p
    have hset := congrArg TaskStruct.parsSet (hbody p)
    have hpar := congrArg TaskStruct.params (hbody p)
    have hcls := congrArg (fun l => (l.task p).schedClass) hl
    exact (h.divisors p).keep hset hpar hcls

/-- A write of attributes of one task, in its class. -/
theorem Steady.setTask {t : TaskStruct} (h : Steady s) (hbody : t.body = (s.task p).body)
    (hcls : t.schedClass = (s.task p).schedClass) : Steady (s.setTask p t) := by
  have hlink : t.link = (s.task p).link := by
    have hb := congrArg (fun t : TaskStruct => { t.link with schedClass := .fair }) hbody
    have hb : { t.link with schedClass := .fair } = { (s.task p).link with schedClass := .fair } := hb
    calc t.link = { { t.link with schedClass := .fair } with schedClass := t.schedClass } := rfl
      _ = (s.task p).link := by rw [hb, hcls]; rfl
  refine h.rewrite (links_setTask_same hlink) (fun _ => rfl) ?_
  intro q
  rw [setTask_task]
  split
  next hq =>
    rw [hq]
    exact hbody
  next => rfl

/-! ## The missing hooks -/

/-- The calls that go through a hook the class does not have. -/
def callsMissingHook (E : Env) (s : Sys) : Call → Prop
  | .act a => missesHook E s a
  | .setUserNice p nice =>
    (s.task p).schedClass = .hvf ∧
      ¬ (prioToNice (s.task p).staticPrio = nice ∨ nice < minNice ∨ maxNice < nice) ∧
      (dlPolicy (s.task p).policy || rtPolicy (s.task p).policy) = false
  | .schedYield c _ _ => (s.task (s.rq c).curr).schedClass = .hvf
  | .setCpusAllowed p => (s.task p).schedClass = .hvf
  | .taskSchedRuntime p =>
    (s.task p).schedClass = .hvf ∧ (s.task p).onCpu = true ∧ (s.task p).isQueued = true ∧
      s.isCurrent p = true
  | .setnuma _ => False

/-- The calls that go on in a dead task. -/
def callResumesDead (E : Env) (s : Sys) : Call → Prop
  | .act a => resumesDead E s a
  | .schedYield c sig picks =>
    (s.task (s.rq c).curr).schedClass ≠ .hvf ∧ resumesDead E s (.schedule c .smNone sig picks)
  | _ => False

/-- What the calls of a run have to keep: the conditions of the machine, where
they do something in the class. -/
def callKept (E : Env) (s : Sys) : Call → Prop
  | .act a => runsOn E s a
  | .schedYield c sig picks => runsOn E s (.schedule c .smNone sig picks)
  | .setnuma p => runsOn E s (.moveTask p)
  | _ => True

instance (E : Env) (s : Sys) : (k : Call) → Decidable (callKept E s k)
  | .act a => inferInstanceAs (Decidable (runsOn E s a))
  | .setUserNice .. => inferInstanceAs (Decidable True)
  | .schedYield c sig picks => inferInstanceAs (Decidable (runsOn E s (.schedule c .smNone sig picks)))
  | .setCpusAllowed .. => inferInstanceAs (Decidable True)
  | .taskSchedRuntime .. => inferInstanceAs (Decidable True)
  | .setnuma p => inferInstanceAs (Decidable (runsOn E s (.moveTask p)))

theorem effectivePrio_body (t : TaskStruct) (prio : Int) :
    (effectivePrio { t with staticPrio := prio }).body = t.body := rfl

theorem Steady.setUserNice {nice : Int} (h : Steady s)
    (hx : HvfSched.setUserNice E p nice s = .ok s') : Steady s' := by
  unfold HvfSched.setUserNice at hx
  dsimp only at hx
  split at hx
  next =>
    injection hx with hx
    rw [← hx]
    exact h
  next =>
    split at hx
    next =>
      injection hx with hx
      rw [← hx]
      exact h.setTask rfl rfl
    next =>
      obtain ⟨s₁, h₁, hx⟩ := bind_ok.mp hx
      obtain ⟨s₃, h₃, hx⟩ := bind_ok.mp hx
      obtain ⟨hs, hcls₃⟩ := callHook_ok hx
      have hcls : (s.task p).schedClass ≠ .hvf := by
        have hattrs := attrs_of_policies (policies_putBack h₃) p
        have hsame : (s₃.task p).schedClass = (s₁.task p).schedClass := by
          rw [setTask_self] at hattrs
          exact congrArg TaskAttrs.schedClass hattrs
        rw [← takeOff_schedClass h₁, ← hsame]
        exact hcls₃
      have htask := takeOff_other_task hcls h₁
      rw [htask] at h₃
      have hs₃ := requeue_other (t := effectivePrio { s.task p with staticPrio := niceToPrio nice })
        hcls rfl rfl h₁ h₃
      rw [hs, hs₃]
      exact h.setTask (effectivePrio_body ..) rfl

theorem Steady.setCpusAllowed (h : Steady s) (hx : doSetCpusAllowed E p s = .ok s') : Steady s' := by
  rw [(doSetCpusAllowed_ok hx).1]
  exact h

theorem Steady.setnuma (h : Steady s) (hlive : s.isLive p = true) (hok : runsOn E s (.moveTask p))
    (hx : schedSetnuma E p s = .ok s') : Steady s' := by
  have hmove : step E s (.moveTask p)
      = some (if s.isCurrent p then reschedCurr (s'.task p).cpu s' else s') := by
    have hexec := schedSetnuma_moveTask E p s
    rw [hx] at hexec
    have hen : enabled s (.moveTask p) = true := hlive
    rw [step, if_pos hen]
    show (schedMoveTask E p s).toOption = _
    rw [hexec]
    rfl
  have hsteady := h.act hok hmove
  split at hsteady
  next =>
    -- the request to reschedule is all that is missing
    refine hsteady.rewrite ?_ ?_ (fun _ => rfl)
    · refine Eq.symm (links_setRq_same ?_)
      rfl
    · intro c
      unfold reschedCurr
      rw [setRq_rq]
      split
      next hc => rw [hc]
      next => rfl
  next => exact hsteady

theorem call_ok (h : k.step E s = some s') : k.enabled s = true ∧ k.exec E s = .ok s' := by
  unfold Call.step at h
  split at h
  next hen =>
    refine ⟨hen, ?_⟩
    cases hx : k.exec E s with
    | error f =>
      rw [hx] at h
      cases h
    | ok s₁ =>
      rw [hx] at h
      injection h with h
      rw [h]
  next => cases h

/-- A call of the machine is a step of it. -/
theorem step_of_exec (hen : enabled s a = true) (hexec : exec E s a = .ok s') :
    step E s a = some s' := by
  rw [step, if_pos hen, hexec]
  rfl

/-- A call that returns keeps the invariants. -/
theorem Steady.call (h : Steady s) (hok : callKept E s k) (hstep : k.step E s = some s') :
    Steady s' := by
  obtain ⟨hen, hexec⟩ := call_ok hstep
  cases k with
  | act a => exact h.act hok (step_of_exec hen hexec)
  | setUserNice p nice => exact h.setUserNice hexec
  | schedYield c sig picks =>
    obtain ⟨s₁, h₁, h₂⟩ := bind_ok.mp hexec
    rw [(callHook_ok h₁).1] at h₂
    simp only [Call.enabled, Bool.and_eq_true] at hen
    exact h.act hok (step_of_exec hen.2 h₂)
  | setCpusAllowed p => exact h.setCpusAllowed hexec
  | taskSchedRuntime p =>
    have hs : s' = s := by
      unfold Call.exec HvfSched.taskSchedRuntime at hexec
      dsimp only at hexec
      split at hexec
      next => exact (Except.ok.inj hexec).symm
      next =>
        split at hexec
        next => exact (callHook_ok hexec).1
        next => exact (Except.ok.inj hexec).symm
    rw [hs]
    exact h
  | setnuma p => exact h.setnuma hen hok hexec

/-- Without a real-time policy, the attributes after `effective_prio` depend on
those before it. -/
theorem effectivePrio_attrs {t t' : TaskStruct} {prio : Int} (h : t.attrs = t'.attrs)
    (hpol : (dlPolicy t'.policy || rtPolicy t'.policy) = false) :
    (effectivePrio { t with staticPrio := prio }).attrs
      = (effectivePrio { t' with staticPrio := prio }).attrs := by
  have hp : t.policy = t'.policy := congrArg TaskAttrs.policy h
  have hprio : t.prio = t'.prio := congrArg TaskAttrs.prio h
  have hcls : t.schedClass = t'.schedClass := congrArg TaskAttrs.schedClass h
  have htop : t.piTopTask = t'.piTopTask := congrArg TaskAttrs.piTopTask h
  obtain ⟨hdl, hrt⟩ := Bool.or_eq_false_iff.mp hpol
  have hnormal : ∀ n, normalPrioOf t'.policy n (prioToNice prio) = niceToPrio (prioToNice prio) := by
    intro n
    rw [normalPrioOf, if_neg (by rw [hdl]; decide), if_neg (by rw [hrt]; decide)]
  unfold effectivePrio TaskStruct.attrs
  dsimp only
  rw [hp, hprio, hcls, htop, hnormal, hnormal]

theorem setUserNice_error_iff {nice : Int} {f : Fault} (h : Steady s) :
    HvfSched.setUserNice E p nice s = .error f ↔
      f = .nullHook ∧ callsMissingHook E s (.setUserNice p nice) := by
  unfold HvfSched.setUserNice callsMissingHook
  dsimp only
  split
  next hearly => exact returns_iff ⟨s, rfl⟩ fun hc => hc.2.1 hearly
  next hnice =>
    split
    next hpol =>
      refine returns_iff ⟨_, rfl⟩ fun hc => ?_
      rw [hpol] at hc
      exact absurd hc.2.2 (by decide)
    next hpol =>
      have hpol := Bool.eq_false_iff.mpr hpol
      obtain ⟨s₁, s₃, h₁, h₃, hcls⟩ := requeue_total (E := E)
        (fun t => effectivePrio { t with staticPrio := niceToPrio nice }) (s.task p).isQueued
        (s.isCurrent p) (enqueueRestore ||| enqueueNoclock) h.base.trees (h.divisors p)
        (fun t => effectivePrio_body ..) (fun t ht => effectivePrio_attrs ht hpol) (fun t => rfl)
      rw [h₁]
      show putBack E p (s.task p).isQueued (s.isCurrent p) _ _ >>= _ = _ ↔ _
      rw [h₃]
      show callHook .prioChanged p s₃ = .error f ↔ _
      rw [callHook_error_iff, hcls]
      exact and_congr_right fun _ => ⟨fun hc => ⟨hc, hnice, hpol⟩, fun hc => hc.1⟩

theorem taskSchedRuntime_error_iff {f : Fault} :
    HvfSched.taskSchedRuntime p s = .error f ↔
      f = .nullHook ∧ callsMissingHook E s (.taskSchedRuntime p) := by
  unfold HvfSched.taskSchedRuntime callsMissingHook
  split
  next hoff =>
    refine returns_iff ⟨s, rfl⟩ ?_
    rintro ⟨-, hon, hq, -⟩
    rcases hoff with hoff | hoff
    · exact Bool.false_ne_true (hoff.symm.trans hon)
    · exact Bool.false_ne_true (hoff.symm.trans hq)
  next hon =>
    rw [not_or, Bool.not_eq_false, Bool.not_eq_false] at hon
    split
    next hcurr =>
      rw [callHook_error_iff]
      rw [Bool.and_eq_true] at hcurr
      exact and_congr_right fun _ => ⟨fun hc => ⟨hc, hon.1, hon.2, hcurr.1⟩, fun hc => hc.1⟩
    next hcurr =>
      refine returns_iff ⟨s, rfl⟩ ?_
      rintro ⟨-, -, hq, hc⟩
      exact hcurr (by rw [hc, hq]; rfl)

theorem schedSetnuma_total (h : Steady s) : ∃ s', schedSetnuma E p s = .ok s' := by
  obtain ⟨s₁, s₃, h₁, h₃, -⟩ := requeue_total (E := E) (fun t => t) (s.task p).isQueued
    (s.isCurrent p) (enqueueRestore ||| enqueueNoclock) h.base.trees (h.divisors p)
    (fun _ => rfl) (fun _ ht => ht) (fun _ => rfl)
  rw [setTask_same] at h₃
  refine ⟨s₃, ?_⟩
  unfold schedSetnuma
  dsimp only
  rw [h₁]
  exact h₃

theorem doSchedYield_error_iff {sig : Signals} {picks : Picks} {f : Fault} (h : Steady s)
    (hen : enabled s (.schedule c .smNone sig picks) = true) :
    doSchedYield E c sig picks s = .error f ↔
      (f = .nullHook ∧ callsMissingHook E s (.schedYield c sig picks)) ∨
      (f = .bug ∧ callResumesDead E s (.schedYield c sig picks)) := by
  have hsched : schedule E c .smNone sig picks s = .error f ↔ _ :=
    exec_error_iff h.base h.sorted h.divisors hen
  unfold doSchedYield callsMissingHook callResumesDead
  cases hcall : callHook .yieldTask (s.rq c).curr s with
  | error f' =>
    obtain ⟨hf, hcls⟩ := callHook_error_iff.mp hcall
    show Except.error f' = .error f ↔ _
    constructor
    · intro hx
      injection hx with hx
      exact Or.inl ⟨hx.symm.trans hf, hcls⟩
    · rintro (⟨hx, -⟩ | ⟨-, hno, -⟩)
      · rw [hf, hx]
      · exact absurd hcls hno
  | ok s₁ =>
    obtain ⟨hs, hcls⟩ := callHook_ok hcall
    show schedule E c .smNone sig picks s₁ = .error f ↔ _
    rw [hs, hsched]
    -- the hook for the mask is missing to a task of the class only
    constructor
    · rintro (⟨-, hpin⟩ | ⟨hf, hdead⟩)
      · exact absurd hpin.1 hcls
      · exact Or.inr ⟨hf, hcls, hdead⟩
    · rintro (⟨-, hhvf⟩ | ⟨hf, -, hdead⟩)
      · exact absurd hhvf hcls
      · exact Or.inr ⟨hf, hdead⟩

theorem call_error_iff {f : Fault} (h : Steady s) (hen : k.enabled s = true) :
    k.exec E s = .error f ↔
      (f = .nullHook ∧ callsMissingHook E s k) ∨ (f = .bug ∧ callResumesDead E s k) := by
  have hhook : ∀ {x : Except Fault Sys} {P : Prop}, (x = .error f ↔ f = .nullHook ∧ P) →
      (x = .error f ↔ (f = .nullHook ∧ P) ∨ (f = .bug ∧ False)) := by
    intro x P hx
    rw [and_false, or_false]
    exact hx
  cases k with
  | act a => exact exec_error_iff h.base h.sorted h.divisors hen
  | setUserNice p nice => exact hhook (setUserNice_error_iff h)
  | schedYield c sig picks =>
    simp only [Call.enabled, Bool.and_eq_true] at hen
    exact doSchedYield_error_iff h hen.2
  | setCpusAllowed p => exact hhook (doSetCpusAllowed_error_iff h.base.trees)
  | taskSchedRuntime p => exact hhook taskSchedRuntime_error_iff
  | setnuma p => exact hhook (returns_iff (schedSetnuma_total h) id)

/-- Over all runs of the machine with these calls: a call stops the kernel if it
goes through a hook the class does not have, or if it goes on in a dead task, and
in no other way. -/
theorem kernel_stops_iff_missing_hook_or_dead (E : Env) (s : Sys)
    (h : Reach (fun s => s = boot) (fun s k => Call.step E s k) (callKept E) s) (k : Call)
    (hen : k.enabled s = true) (f : Fault) :
    k.exec E s = .error f ↔
      (f = .nullHook ∧ callsMissingHook E s k) ∨ (f = .bug ∧ callResumesDead E s k) := by
  have hsteady : Steady s := by
    refine Reach.invariant Steady ?_ ?_ h
    · intro s hs
      rw [hs]
      exact boot_steady
    · intro s k s' hs hok hstep
      exact hs.call hok hstep
  exact call_error_iff hsteady hen

/-- A task of the class is moved to another node, and another one is reniced and
yields. -/
def otherCalls : List Call :=
  startFirst.map .act ++ [.act (.fork 0), .act (.wakeNew 0 (.task 1) 0),
    .act (.setscheduler permissive (.task 1) (plainAttr 8) true true), .setnuma (.task 1),
    .setUserNice (.task 0) 5, .taskSchedRuntime (.task 0),
    .schedYield 0 ⟨false, false⟩ (pickFair (.task 0))]

/-- A task leaves the class while it is running, and another one comes in. -/
def leftRunning : List Call :=
  startFirst.map .act ++ [.act (.fork 0), .act (.wakeNew 0 (.task 1) 0),
    .act (.setscheduler permissive (.task 0) (plainAttr 8) true true),
    .act (.setscheduler permissive (.task 0) (plainAttr 0) true true),
    .act (.setscheduler permissive (.task 1) (plainAttr 8) true true)]

/-- After the first of these runs the CPUs of the task of the class are
restricted. After the second the task that left exits: it is still in the tree,
and is picked again. -/
theorem kernel_stops_iff_missing_hook_or_dead_both :
    (∃ s, Reach (fun s => s = boot) (fun s k => Call.step wallEnv s k) (callKept wallEnv) s ∧
      Call.exec wallEnv s (.setCpusAllowed (.task 1)) = .error .nullHook) ∧
    ∃ s, Reach (fun s => s = boot) (fun s k => Call.step wallEnv s k) (callKept wallEnv) s ∧
      Call.exec wallEnv s (.act (.doTaskDead 0 pickNone)) = .error .bug := by
  refine ⟨?_, ?_⟩
  · obtain ⟨s, hs, hx⟩ : ∃ s, Reach (fun s => s = boot) (fun s k => Call.step wallEnv s k)
        (callKept wallEnv) s ∧
        (s.isLive (.task 1), (s.task (.task 1)).schedClass) = (true, SchedClass.hvf) :=
      Reach.of_check (l := otherCalls)
        (fun s : Sys => (s.isLive (.task 1), (s.task (.task 1)).schedClass)) rfl (by decide +kernel)
    injection hx with hlive hcls
    exact ⟨s, hs, (kernel_stops_iff_missing_hook_or_dead wallEnv s hs (.setCpusAllowed (.task 1))
      hlive .nullHook).mpr (Or.inl ⟨rfl, hcls⟩)⟩
  · obtain ⟨s, hs, hx⟩ : ∃ s, Reach (fun s => s = boot) (fun s k => Call.step wallEnv s k)
        (callKept wallEnv) s ∧
        ((s.rq 0).curr, Call.enabled s (.act (.doTaskDead 0 pickNone)),
          nextTask wallEnv 0 .smNone ⟨false, false⟩ pickNone
            (setTaskState (s.rq 0).curr taskDead s)) = (.task 0, true, some (.task 0)) :=
      Reach.of_check (l := leftRunning)
        (fun s : Sys => ((s.rq 0).curr, Call.enabled s (.act (.doTaskDead 0 pickNone)),
          nextTask wallEnv 0 .smNone ⟨false, false⟩ pickNone
            (setTaskState (s.rq 0).curr taskDead s))) rfl (by decide +kernel)
    simp only [Prod.mk.injEq] at hx
    obtain ⟨hcurr, hen, hnext⟩ := hx
    have hdead : ((setTaskState (s.rq 0).curr taskDead s).task (.task 0)).state = taskDead := by
      rw [hcurr, setTaskState, setTask_self]
    exact ⟨s, hs, (kernel_stops_iff_missing_hook_or_dead wallEnv s hs
      (.act (.doTaskDead 0 pickNone)) hen .bug).mpr
        (Or.inr ⟨rfl, ⟨.task 0, hnext, hdead⟩, fun hpin => Bool.false_ne_true hpin.2.1⟩)⟩

end HvfSched
