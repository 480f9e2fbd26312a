import HvfSched.Links.Simulation

/-!
# What a step of the machine can be

Twelve entry points come down to seven kinds of step, as far as queues and
counts are concerned: a write nothing here looks at, a write of a task's
state, a reschedule, an activation, a class change, a burial and a fork.
`StepCase` says which steps there are and everything that is known of each,
`step_case` that there are no others; every invariant is a case analysis over
it.

`leaves`, `activates`, `classTarget`, `forks` and `buries` read off the state
before the step which reschedule, activation, class change, fork or burial an
action is going to be. Conditions on runs are stated with them.
-/

namespace HvfSched

open Lib Sys

variable {E : Env} {s s' : Sys} {c : Cpu} {p : TaskId}

/-! ## Reading a step off the state before it -/

/-- The CPU an action reschedules, and what becomes of the task running
there before the pick. -/
def leaves (s : Sys) : Act → Option (Cpu × Links.Leave)
  | .schedule c mode sig _ =>
    if mode = .smIdle ∧ (s.rq c).nrRunning = 0 then none
    else some (c, leaveOf mode sig (s.task (s.rq c).curr))
  | .doTaskDead c _ => some (c, .block)
  | _ => none

/-- The task an action activates, and on which CPU. -/
def activates (s : Sys) : Act → Option (TaskId × Cpu)
  | .wake thisCpu p mask dest =>
    if hasAny (s.task p).state mask ∧ p ≠ (s.rq thisCpu).curr ∧ (s.task p).onRq ≠ .queued then
      some (p, dest)
    else none
  | .wakeNew _ p dest => some (p, dest)
  | _ => none

/-- The class `__sched_setscheduler` gives the task for this policy. -/
def setschedulerNewClass (s : Sys) (p : TaskId) (attr : SchedAttr) (policy : Policy) (pi : Bool) :
    SchedClass :=
  if hasFlag attr.schedFlags schedFlagKeepParams then (s.task p).schedClass
  else setschedulerClass policy (setschedulerNewprio s p attr policy pi)

/-- The class `__sched_setscheduler` gives the task, if it gets as far. -/
def setschedulerTarget (ck : Checks) (s : Sys) (p : TaskId) (attr : SchedAttr) (user pi : Bool) :
    Option SchedClass :=
  match requestedPolicy (s.task p) attr with
  | none => none
  | some policy =>
    if setschedulerRefusal ck (s.task p) attr policy (requestedReset (s.task p) attr) user = 0
        ∧ setschedulerUnchanged ck (s.task p) attr policy = false
        ∧ setschedulerDenied ck (s.task p) attr policy user = 0 then
      some (setschedulerNewClass s p attr policy pi)
    else none

/-- The class `rt_mutex_setprio` gives the task, if it gets as far. -/
def setprioTarget (s : Sys) (p : TaskId) (piTask : Option TaskId) : Option SchedClass :=
  let prio := rtEffectivePrioOf s piTask (s.task p).normalPrio
  if (prio = (s.task p).prio ∧ dlPrio prio = false) ∨ p = .idle (s.task p).cpu then none
  else some (setschedulerClass (s.task p).policy prio)

/-- The task an action takes off its runqueue and puts back, and the class it
has then. -/
def classTarget (s : Sys) : Act → Option (TaskId × SchedClass)
  | .setscheduler ck p attr user pi => (setschedulerTarget ck s p attr user pi).map fun cls => (p, cls)
  | .setprio p piTask => (setprioTarget s p piTask).map fun cls => (p, cls)
  | .moveTask p => some (p, (s.task p).schedClass)
  | _ => none

/-- The CPU whose running task forks. -/
def forks : Act → Option Cpu
  | .fork c => some c
  | _ => none

/-- The CPU that buries a dead task, and the task. -/
def buries (s : Sys) : Act → Option (Cpu × TaskId)
  | .finishTaskSwitch c => (s.rq c).deadPrev.map fun p => (c, p)
  | _ => none

/-- Whether an enqueue with these flags initialises the entity. -/
def isEntry (flags : Mask) : Bool := hasAny flags (enqueueInitial ||| enqueueChanged)

/-- Whether an enqueue with these flags computes the value anew. -/
def isRefresh (flags : Mask) : Bool :=
  isEntry flags || hasAny flags (enqueueWakeup ||| enqueueMigrated ||| enqueueRestore)

/-- Whether the entry point enqueues with `ENQUEUE_CHANGED`. -/
def Act.initialises : Act → Bool
  | .setscheduler _ _ attr _ _ => !hasFlag attr.schedFlags schedFlagKeepParams
  | _ => false

/-- Whether an action enqueues a new task. -/
def Act.isNew : Act → Bool
  | .wakeNew _ _ _ => true
  | _ => false

/-! ## Class changes -/

/-- A task without the attributes a class change writes. -/
def TaskStruct.body (t : TaskStruct) : TaskStruct :=
  { t with
    prio := 0
    staticPrio := 0
    normalPrio := 0
    rtPriority := 0
    schedClass := .fair
    policy := .normal
    schedResetOnFork := false
    piTopTask := none }

/-- The change of `p` to the class `cls`: off the runqueue, a write of the
attributes, the `switching_to` hook, and back. `init` says whether the enqueue
initialises the entity. -/
inductive ClassChange (E : Env) (p : TaskId) (cls : SchedClass) (init : Bool) (s s' : Sys) : Prop
  | mk {t₀ t : TaskStruct} {s₁ s₂ s₃ : Sys} {running : Bool} {flags : Mask}
      (hbody₀ : t₀.body = (s.task p).body) (hcls₀ : t₀.schedClass = (s.task p).schedClass)
      (hoff : takeOff E p (s.setTask p t₀) = .ok s₁)
      (hbody : t.body = (s₁.task p).body) (hcls : t.schedClass = cls)
      (hmid : checkClassChanging E p (s.task p).schedClass (s₁.setTask p t) = .ok s₂)
      (hback : putBack E p (s.task p).isQueued running flags s₂ = .ok s₃)
      (hend : s' = s₃ ∨ ((s₃.task p).schedClass ≠ .hvf ∧ s' = switchedFromHvf p s₃) ∨
        ∃ c, s' = reschedCurr c s₃)
      (hentry : isEntry flags = init) (hrefresh : isRefresh flags = true)

/-- The same change up to the enqueue with `flags`, before the last hook. -/
inductive ChangeStages (E : Env) (p : TaskId) (cls : SchedClass) (flags : Mask) (s s₃ : Sys) : Prop
  | mk {t₀ t : TaskStruct} {s₁ s₂ : Sys} {running : Bool}
      (hbody₀ : t₀.body = (s.task p).body) (hcls₀ : t₀.schedClass = (s.task p).schedClass)
      (hoff : takeOff E p (s.setTask p t₀) = .ok s₁)
      (hbody : t.body = (s₁.task p).body) (hcls : t.schedClass = cls)
      (hmid : checkClassChanging E p (s.task p).schedClass (s₁.setTask p t) = .ok s₂)
      (hback : putBack E p (s.task p).isQueued running flags s₂ = .ok s₃)
      (hrefresh : isRefresh flags = true)

theorem ChangeStages.classChange {cls : SchedClass} {flags : Mask} {s₃ : Sys}
    (h : ChangeStages E p cls flags s s₃)
    (hend : s' = s₃ ∨ ((s₃.task p).schedClass ≠ .hvf ∧ s' = switchedFromHvf p s₃) ∨
      ∃ c, s' = reschedCurr c s₃) :
    ClassChange E p cls (isEntry flags) s s' := by
  obtain ⟨hbody₀, hcls₀, hoff, hbody, hcls, hmid, hback, hrefresh⟩ := h
  exact .mk hbody₀ hcls₀ hoff hbody hcls hmid hback hend rfl hrefresh

theorem ChangeStages.changed {cls : SchedClass} {flags : Mask} {s₃ : Sys} {prio : Int}
    (h : ChangeStages E p cls flags s s₃)
    (hend : checkClassChanged p (s.task p).schedClass prio s₃ = .ok s') :
    ClassChange E p cls (isEntry flags) s s' := by
  rcases checkClassChanged_cases hend with ⟨hleft, hs⟩ | ⟨-, hs⟩
  · exact h.classChange (Or.inr (Or.inl ⟨hleft.2, hs⟩))
  · exact h.classChange (Or.inl hs)

theorem setschedulerUpdate_body (attr : SchedAttr) (policy : Policy) (resetOnFork : Bool)
    (newprio : Int) (t : TaskStruct) :
    (setschedulerUpdate attr policy resetOnFork newprio t).body = t.body := by
  unfold setschedulerUpdate
  split
  next => rfl
  next => rfl

/-- What `__sched_setscheduler` took off its queue with `DEQUEUE_SAVE` it puts
back with `ENQUEUE_RESTORE`. -/
theorem setschedulerFlags_isRefresh (attr : SchedAttr) (pi : Bool) (oldprio newprio : Int) :
    isRefresh (setschedulerFlags attr pi oldprio newprio) = true := by
  unfold setschedulerFlags
  dsimp only
  split
  next =>
    split
    next => rfl
    next => rfl
  next =>
    split
    next =>
      split
      next => rfl
      next => rfl
    next =>
      split
      next => rfl
      next => rfl

theorem setschedulerChange_stages {attr : SchedAttr} {policy : Policy} {resetOnFork pi : Bool}
    (h : setschedulerChange E p attr policy resetOnFork pi s = .ok s') :
    ∃ s₃, ChangeStages E p (setschedulerNewClass s p attr policy pi)
        (setschedulerFlags attr pi (s.task p).prio (setschedulerNewprio s p attr policy pi)) s s₃ ∧
      checkClassChanged p (s.task p).schedClass (s.task p).prio s₃ = .ok s' := by
  unfold setschedulerChange at h
  obtain ⟨s₁, h₁, h₂⟩ := bind_ok.mp h
  obtain ⟨s₂, h₃, h₄⟩ := bind_ok.mp h₂
  obtain ⟨s₃, h₅, h₆⟩ := bind_ok.mp h₄
  have h₁' : takeOff E p (s.setTask p (s.task p)) = .ok s₁ := by
    rw [setTask_same]
    exact h₁
  refine ⟨s₃, .mk rfl rfl h₁' (setschedulerUpdate_body ..) ?_ h₃ h₅
    (setschedulerFlags_isRefresh ..), h₆⟩
  unfold setschedulerUpdate setschedulerNewClass
  split
  next => exact takeOff_schedClass h₁
  next => rfl

theorem setschedulerFlags_isEntry (attr : SchedAttr) (pi : Bool) (oldprio newprio : Int) :
    isEntry (setschedulerFlags attr pi oldprio newprio)
      = !hasFlag attr.schedFlags schedFlagKeepParams := by
  unfold setschedulerFlags
  dsimp only
  split
  next hkeep =>
    rw [hkeep]
    split
    next => rfl
    next => rfl
  next hchange =>
    rw [Bool.eq_false_iff.mpr hchange]
    split
    next =>
      split
      next => rfl
      next => rfl
    next =>
      split
      next => rfl
      next => rfl

theorem setschedulerChange_change {attr : SchedAttr} {policy : Policy} {resetOnFork pi : Bool}
    (h : setschedulerChange E p attr policy resetOnFork pi s = .ok s') :
    ClassChange E p (setschedulerNewClass s p attr policy pi)
      (!hasFlag attr.schedFlags schedFlagKeepParams) s s' := by
  obtain ⟨s₃, hst, hend⟩ := setschedulerChange_stages h
  rw [← setschedulerFlags_isEntry attr pi (s.task p).prio (setschedulerNewprio s p attr policy pi)]
  exact hst.changed hend

theorem setschedulerTarget_eq {ck : Checks} {attr : SchedAttr} {user : Bool} {policy : Policy}
    (pi : Bool) (hpol : requestedPolicy (s.task p) attr = some policy)
    (href : setschedulerRefusal ck (s.task p) attr policy (requestedReset (s.task p) attr) user = 0)
    (hch : setschedulerUnchanged ck (s.task p) attr policy = false)
    (hden : setschedulerDenied ck (s.task p) attr policy user = 0) :
    setschedulerTarget ck s p attr user pi = some (setschedulerNewClass s p attr policy pi) := by
  unfold setschedulerTarget
  rw [hpol]
  exact if_pos ⟨href, hch, hden⟩

/-- Keeping the parameters keeps the class. -/
theorem keep_of_newClass {attr : SchedAttr} {policy : Policy} {pi : Bool}
    (hcls : (s.task p).schedClass ≠ .hvf)
    (hnew : setschedulerNewClass s p attr policy pi = .hvf) :
    hasFlag attr.schedFlags schedFlagKeepParams = false := by
  unfold setschedulerNewClass at hnew
  split at hnew
  next => exact absurd hnew hcls
  next hk => exact Bool.eq_false_iff.mpr hk

/-- A call that brings a task into the class does not keep the parameters. -/
theorem initialises_of_join {ck : Checks} {attr : SchedAttr} {user pi : Bool}
    (htarget : classTarget s (.setscheduler ck p attr user pi) = some (p, .hvf))
    (hcls : (s.task p).schedClass ≠ .hvf) :
    (Act.setscheduler ck p attr user pi).initialises = true := by
  obtain ⟨cls, hcls', heq⟩ := Option.map_eq_some_iff.mp htarget
  injection heq with _ heq
  subst heq
  unfold setschedulerTarget at hcls'
  split at hcls'
  next => cases hcls'
  next policy _ =>
    split at hcls'
    next =>
      have hkeep := keep_of_newClass hcls (Option.some.inj hcls')
      rw [Act.initialises, hkeep]
      rfl
    next => cases hcls'

/-- `__sched_setscheduler` reports an error and changes nothing, returns at
once, or changes the task. -/
theorem schedSetscheduler_cases {ck : Checks} {attr : SchedAttr} {user pi : Bool} {r : Int × Sys}
    (h : schedSetscheduler E ck p attr user pi s = .ok r) :
    (r.1 ≠ 0 ∧ r.2 = s) ∨
    (∃ policy, requestedPolicy (s.task p) attr = some policy ∧
      setschedulerUnchanged ck (s.task p) attr policy = true ∧
      r = (0, s.setTask p
        { s.task p with schedResetOnFork := requestedReset (s.task p) attr })) ∨
    ∃ policy s', requestedPolicy (s.task p) attr = some policy ∧
      setschedulerTarget ck s p attr user pi = some (setschedulerNewClass s p attr policy pi) ∧
      setschedulerChange E p attr policy (requestedReset (s.task p) attr) pi s = .ok s' ∧
      r = (0, s') := by
  unfold schedSetscheduler at h
  dsimp only at h
  split at h
  next =>
    injection h with h
    rw [← h]
    refine Or.inl ⟨?_, rfl⟩
    show -EINVAL ≠ 0
    decide
  next policy hpol =>
    split at h
    next hne =>
      injection h with h
      rw [← h]
      exact Or.inl ⟨hne, rfl⟩
    next href =>
      split at h
      next hun =>
        injection h with h
        exact Or.inr (Or.inl ⟨policy, hpol, hun, h.symm⟩)
      next hch =>
        split at h
        next hne =>
          injection h with h
          rw [← h]
          exact Or.inl ⟨hne, rfl⟩
        next hden =>
          obtain ⟨s', h₁, h₂⟩ := bind_ok.mp h
          injection h₂ with h₂
          have htarget := setschedulerTarget_eq pi hpol (not_not.mp href)
            (Bool.eq_false_iff.mpr hch) (not_not.mp hden)
          exact Or.inr (Or.inr ⟨policy, s', hpol, htarget, h₁, h₂.symm⟩)

/-- The call changes the task whenever it gets as far. -/
theorem schedSetscheduler_of_target {ck : Checks} {attr : SchedAttr} {user pi : Bool}
    {r : Int × Sys} {cls : SchedClass} (ht : setschedulerTarget ck s p attr user pi = some cls)
    (h : schedSetscheduler E ck p attr user pi s = .ok r) :
    ∃ policy, cls = setschedulerNewClass s p attr policy pi ∧
      setschedulerChange E p attr policy (requestedReset (s.task p) attr) pi s = .ok r.2 := by
  unfold setschedulerTarget at ht
  unfold schedSetscheduler at h
  dsimp only at h
  split at ht
  next => cases ht
  next policy hpol =>
    rw [hpol] at h
    split at ht
    next hgo =>
      obtain ⟨href, hch, hden⟩ := hgo
      injection ht with ht
      dsimp only at h
      rw [if_neg (not_not.mpr href), if_neg (Bool.eq_false_iff.mp hch),
        if_neg (not_not.mpr hden)] at h
      obtain ⟨s', h₁, h₂⟩ := bind_ok.mp h
      injection h₂ with h₂
      rw [← h₂]
      exact ⟨policy, ht.symm, h₁⟩
    next => cases ht

/-- The flags of `rt_mutex_setprio`, for its two conditions. -/
def setprioFlags (same head : Prop) [Decidable same] [Decidable head] : Mask :=
  dequeueSave ||| (if same then 0 else dequeueMove) ||| dequeueNoclock |||
    (if head then enqueueHead else 0)

theorem setprioFlags_isEntry (same head : Prop) [Decidable same] [Decidable head] :
    isEntry (setprioFlags same head) = false := by
  unfold setprioFlags
  split
  next =>
    split
    next => rfl
    next => rfl
  next =>
    split
    next => rfl
    next => rfl

theorem setprioFlags_isRefresh (same head : Prop) [Decidable same] [Decidable head] :
    isRefresh (setprioFlags same head) = true := by
  unfold setprioFlags
  split
  next =>
    split
    next => rfl
    next => rfl
  next =>
    split
    next => rfl
    next => rfl

/-- `rt_mutex_setprio` notes the donor at most, or changes the task. -/
theorem rtMutexSetprio_cases {piTask : Option TaskId} (h : rtMutexSetprio E p piTask s = .ok s') :
    (setprioTarget s p piTask = none ∧ ∃ t : TaskStruct, s' = s.setTask p t ∧
      t.body = (s.task p).body ∧ t.schedClass = (s.task p).schedClass) ∨
    ∃ cls s₃, setprioTarget s p piTask = some cls ∧
      ChangeStages E p cls (setprioFlags
        ((s.task p).prio = rtEffectivePrioOf s piTask (s.task p).normalPrio)
        (rtPrio (rtEffectivePrioOf s piTask (s.task p).normalPrio) ∧
          (s.task p).prio < rtEffectivePrioOf s piTask (s.task p).normalPrio)) s s₃ ∧
      checkClassChanged p (s.task p).schedClass (s.task p).prio s₃ = .ok s' := by
  unfold rtMutexSetprio at h
  dsimp only at h
  split at h
  next hsame =>
    injection h with h
    refine Or.inl ⟨if_pos (Or.inl hsame.2), s.task p, ?_, rfl, rfl⟩
    rw [setTask_same, h]
  next =>
    split at h
    next hidle =>
      injection h with h
      exact Or.inl ⟨if_pos hidle, _, h.symm, rfl, rfl⟩
    next hact =>
      obtain ⟨s₁, h₁, h₂⟩ := bind_ok.mp h
      obtain ⟨s₂, h₃, h₄⟩ := bind_ok.mp h₂
      obtain ⟨s₃, h₅, h₆⟩ := bind_ok.mp h₄
      have hbody₀ : ({ s.task p with piTopTask := piTask } : TaskStruct).body = (s.task p).body :=
        rfl
      exact Or.inr ⟨_, s₃, if_neg hact, .mk hbody₀ rfl h₁ (by rfl) rfl h₃ h₅
        (setprioFlags_isRefresh ..), h₆⟩

theorem schedMoveTask_stages (h : schedMoveTask E p s = .ok s') :
    ∃ s₃, ChangeStages E p (s.task p).schedClass (dequeueSave ||| dequeueMove ||| dequeueNoclock)
        s s₃ ∧ (s' = s₃ ∨ ∃ c, s' = reschedCurr c s₃) := by
  unfold schedMoveTask at h
  obtain ⟨s₁, h₁, h₂⟩ := bind_ok.mp h
  obtain ⟨s₂, h₃, h₄⟩ := bind_ok.mp h₂
  have h₁' : takeOff E p (s.setTask p (s.task p)) = .ok s₁ := by
    rw [setTask_same]
    exact h₁
  have hcls := takeOff_schedClass h₁
  -- nothing is written in between, and the class is the same
  have hmid : checkClassChanging E p (s.task p).schedClass (s₁.setTask p (s₁.task p)) = .ok s₁ := by
    rw [setTask_same, checkClassChanging, if_neg]
    intro hne
    exact hne.1 hcls.symm
  refine ⟨s₂, .mk rfl rfl h₁' rfl hcls hmid h₃ rfl, ?_⟩
  injection h₄ with h₄
  rw [← h₄]
  split
  next => exact Or.inr ⟨_, rfl⟩
  next => exact Or.inl rfl

theorem schedMoveTask_change (h : schedMoveTask E p s = .ok s') :
    ClassChange E p (s.task p).schedClass false s s' := by
  obtain ⟨s₃, hst, hend⟩ := schedMoveTask_stages h
  rcases hend with hs | hs
  · exact hst.classChange (Or.inl hs)
  · exact hst.classChange (Or.inr (Or.inr hs))

theorem links_switchedFromHvf (p : TaskId) (s : Sys) : (switchedFromHvf p s).links = s.links := by
  apply links_setTask_same
  unfold clearHvfValues
  split
  next => rfl
  next => rfl

theorem link_of_body {t t' : TaskStruct} (h : t.body = t'.body) :
    t.link = { t'.link with schedClass := t.schedClass } := by
  have hl := congrArg (fun u => ({ u.link with schedClass := t.schedClass } : TaskLink)) h
  exact hl

/-- In the bookkeeping every class change is the same operation. -/
theorem ClassChange.links {cls : SchedClass} {init : Bool} (h : ClassChange E p cls init s s') :
    s'.links = s.links.change p cls := by
  obtain ⟨hbody₀, hcls₀, hoff, hbody, hcls, hmid, hback, hend, -, -⟩ := h
  next t₀ t s₁ s₂ s₃ running flags =>
  have hl₀ : (s.setTask p t₀).links = s.links := by
    apply links_setTask_same
    rw [link_of_body hbody₀, hcls₀]
    rfl
  have hq : (s.task p).isQueued = ((s.setTask p t₀).task p).isQueued := by
    have honrq := congrArg TaskStruct.isQueued hbody₀
    rw [setTask_self]
    exact honrq.symm
  rw [hq] at hback
  have hl₃ : s₃.links = s.links.change p cls := by
    rw [← hl₀]
    refine links_change hoff ?_ hback
    rw [links_checkClassChanging hmid, links_setTask, link_of_body hbody, hcls]
    rfl
  rcases hend with h' | ⟨-, h'⟩ | ⟨c, h'⟩
  · rw [h', hl₃]
  · rw [h', links_switchedFromHvf, hl₃]
  · rw [h', reschedCurr, links_setRq_same (by rfl), hl₃]

/-! ## The kinds of step -/

/-- Where the answer of a pick comes from: nowhere, a class above HVF, or the
tree. -/
inductive Picked (s s₁ : Sys) (c : Cpu) (how : Links.Leave) (next : TaskId) : Prop
  | idle (h : next = .idle c)
  | above (hlive : s.isLive next = true)
      (hcls : schedClassAbove (s.task next).schedClass .hvf = true)
      (hqueued : (s.task next).onRq = .queued) (hcpu : (s.task next).cpu = c)
      (hprev : how = .block → next ≠ (s.rq c).curr)
  | tree (h : (s₁.rq c).hvf.maxValueEntity = some next)

inductive StepCase (E : Env) (s : Sys) (a : Act) (s' : Sys) : Prop
  | quiet (hl : s'.links = s.links) (hrq : ∀ c, (s'.rq c).hvf = (s.rq c).hvf)
      (hv : ∀ p, s'.value p = s.value p)
  | state (p : TaskId) (v : Mask) (hlive : s.isLive p = true) (hne : v ≠ taskDead)
      (hdead : (∃ c, p = (s.rq c).curr) ∨ (s.task p).state ≠ taskDead)
      (hl : s'.links = s.links.setState p v) (hrq : ∀ c, (s'.rq c).hvf = (s.rq c).hvf)
      (hv : ∀ p, s'.value p = s.value p)
  | reschedule (c : Cpu) (how : Links.Leave) (next : TaskId) (s₀ s₁ s₂ : Sys) (mode : SchedMode)
      (sig : Signals) (picks : Picks) (hleave : leaves s a = some (c, how))
      (hstart : (s₀ = s ∧ (s.task (s.rq c).curr).state ≠ taskDead) ∨
        (how = .block ∧ s.isLive (s.rq c).curr = true ∧
          s₀ = setTaskState (s.rq c).curr taskDead s))
      (hhow : how = leaveOf mode sig (s₀.task (s.rq c).curr))
      (hprev : leavePrev E c mode sig s₀ = .ok s₁)
      (hpick : pickNext s₁ c (s.rq c).curr picks = .ok next)
      (hpicked : Picked s s₁ c how next)
      (hset : putPrevSetNextTask E c (s.rq c).curr next s₁ = .ok s₂)
      (hs : s' = switchTo c (s.rq c).curr next s₂)
  | activate (p : TaskId) (dest thisCpu : Cpu) (v flags : Mask) (s₁ : Sys)
      (hact : activates s a = some (p, dest)) (hlive : s.isLive p = true)
      (hoff : (s.task p).onRq ≠ .queued) (hon : (s.task p).onCpu = false)
      (hdead : (s.task p).state ≠ taskDead)
      (h : activateTask E dest p flags (setTaskCpu p dest (setTaskState p v s)) = .ok s₁)
      (hs : (v = taskRunning ∧ s' = wakeupPreempt thisCpu dest p s₁) ∨
        s' = setTaskState p taskRunning (wakeupPreempt thisCpu dest p s₁))
      (hentry : isEntry flags = a.isNew ∧ isEntry (flags ||| enqueueMigrated) = a.isNew)
      (hrefresh : isRefresh flags = true ∧ isRefresh (flags ||| enqueueMigrated) = true)
  | change (p : TaskId) (cls : SchedClass) (htarget : classTarget s a = some (p, cls))
      (hlive : s.isLive p = true) (h : ClassChange E p cls a.initialises s s')
  | bury (c : Cpu) (p : TaskId) (hbury : buries s a = some (c, p))
      (hdead : (s.rq c).deadPrev = some p) (h : finishTaskSwitch E c p s = .ok s')
  | fork (c : Cpu) (t : TaskStruct) (hfork : forks a = some c) (hlive : s.isLive (s.rq c).curr = true)
      (ht : schedFork (s.task (s.rq c).curr) = some t) (hs : s' = addTask (finishChild c t) s)

theorem quiet_setTask {a : Act} {t : TaskStruct} (hl : t.link = (s.task p).link)
    (hv : t.hvf.currSchedValue = (s.task p).hvf.currSchedValue) :
    StepCase E s a (s.setTask p t) := by
  refine .quiet (links_setTask_same hl) (fun c => rfl) ?_
  intro q
  unfold Sys.value
  rw [setTask_task]
  split
  next hq =>
    rw [hq]
    exact hv
  next => rfl

theorem quiet_setRq {a : Act} {r : Rq} (hl : r.link = (s.rq c).link)
    (hh : r.hvf = (s.rq c).hvf) : StepCase E s a (s.setRq c r) := by
  refine .quiet (links_setRq_same hl) ?_ (fun p => rfl)
  intro d
  rw [setRq_rq]
  split
  next hd =>
    rw [hd]
    exact hh
  next => rfl

theorem value_setTaskState (p : TaskId) (v : Mask) (s : Sys) (q : TaskId) :
    (setTaskState p v s).value q = s.value q := by
  unfold setTaskState Sys.value
  rw [setTask_task]
  split
  next hq => rw [hq]
  next => rfl

theorem wakeupPreempt_task (thisCpu c : Cpu) (p : TaskId) (s : Sys) :
    (wakeupPreempt thisCpu c p s).task = s.task := by
  rcases wakeupPreempt_cases thisCpu c p s with hs | hs
  · rw [hs]
  · rw [hs]
    rfl

theorem reschedCurr_hvf (c : Cpu) (s : Sys) (d : Cpu) :
    ((reschedCurr c s).rq d).hvf = (s.rq d).hvf := by
  unfold reschedCurr
  rw [setRq_rq]
  split
  next hd => rw [hd]
  next => rfl

theorem wakeupPreempt_hvf (thisCpu c : Cpu) (p : TaskId) (s : Sys) (d : Cpu) :
    ((wakeupPreempt thisCpu c p s).rq d).hvf = (s.rq d).hvf := by
  rcases wakeupPreempt_cases thisCpu c p s with hs | hs
  · rw [hs]
  · rw [hs]
    exact reschedCurr_hvf c s d

theorem wakeupPreempt_value (thisCpu c : Cpu) (p : TaskId) (s : Sys) (q : TaskId) :
    (wakeupPreempt thisCpu c p s).value q = s.value q := by
  unfold Sys.value
  rw [wakeupPreempt_task]

theorem schedTick_hvf (E : Env) (c : Cpu) (s : Sys) (d : Cpu) :
    ((schedTick E c s).rq d).hvf = (s.rq d).hvf := by
  unfold schedTick taskTickHvf
  dsimp only
  split
  next =>
    split
    next => exact reschedCurr_hvf c _ d
    next => rfl
  next => rfl

theorem schedTick_value (E : Env) (c : Cpu) (s : Sys) (q : TaskId) :
    (schedTick E c s).value q = s.value q := by
  have hset : ∀ e, e.currSchedValue = (s.task (s.rq c).curr).hvf.currSchedValue →
      (s.setEntity (s.rq c).curr e).value q = s.value q := by
    intro e he
    unfold Sys.setEntity Sys.value
    rw [setTask_task]
    split
    next hq =>
      rw [hq]
      exact he
    next => rfl
  unfold schedTick taskTickHvf
  dsimp only
  split
  next =>
    split
    next => exact hset _ rfl
    next => exact hset _ rfl
  next => rfl

/-- The pick, with what the callers guarantee of the other classes. -/
theorem pickNext_picked {s₁ : Sys} {prev next : TaskId} {how : Links.Leave} {picks : Picks}
    (hok : s.picksOk c (how == .block) picks = true)
    (h : pickNext s₁ c prev picks = .ok next) : Picked s s₁ c how next := by
  have habove : ∀ p, s.pickable c (how == .block) p = true → Picked s s₁ c how p := by
    intro p hp
    unfold Sys.pickable at hp
    simp only [Bool.and_eq_true, beq_iff_eq, Bool.not_eq_true', Bool.and_eq_false_iff,
      beq_eq_false_iff_ne] at hp
    obtain ⟨⟨⟨⟨hlive, hcls⟩, hq⟩, hcpu⟩, hprev⟩ := hp
    refine .above hlive hcls ((isQueued_iff _).mp hq) hcpu ?_
    intro hb
    rcases hprev with hne | hne
    · exact absurd hb hne
    · exact hne
  unfold Sys.picksOk at hok
  rw [Bool.and_eq_true] at hok
  -- the walk over the classes, which the fast path falls back to
  have hclasses : ∀ {next}, pickFromClasses s₁ c picks = .ok next → Picked s s₁ c how next := by
    intro next h
    unfold pickFromClasses at h
    cases ha : picks.above with
    | some p =>
      rw [ha] at h
      injection h with h
      have hp := hok.2
      rw [ha] at hp
      exact h ▸ habove p hp
    | none =>
      rw [ha] at h
      dsimp only at h
      unfold pickTaskHvf at h
      split at h
      next =>
        injection h with h
        exact .idle h.symm
      next =>
        cases hm : (s₁.rq c).hvf.maxValueEntity with
        | some m =>
          rw [hm] at h
          injection h with h
          exact .tree (h ▸ hm)
        | none =>
          rw [hm] at h
          cases h
  unfold pickNext at h
  split at h
  next =>
    cases hf : picks.fast with
    | retry =>
      rw [hf] at h
      exact hclasses h
    | none =>
      rw [hf] at h
      injection h with h
      exact .idle h.symm
    | task p =>
      rw [hf] at h
      injection h with h
      have hp := hok.1
      rw [hf] at hp
      dsimp only at hp
      rw [Bool.and_eq_true] at hp
      exact h ▸ habove p hp.2
  next => exact hclasses h

theorem blocks_eq (s : Sys) (c : Cpu) (mode : SchedMode) (sig : Signals) :
    s.blocks c mode sig = (leaveOf mode sig (s.task (s.rq c).curr) == .block) := by
  unfold Sys.blocks leaveOf
  dsimp only
  split
  next htry =>
    rw [htry]
    split
    next hsig =>
      rw [hsig]
      rfl
    next hsig =>
      rw [Bool.eq_false_iff.mpr hsig]
      rfl
  next htry =>
    rw [Bool.eq_false_iff.mpr htry]
    rfl

/-- A task that sets `TASK_DEAD` and calls `__schedule` blocks. -/
theorem leaveOf_dead {t : TaskStruct} (h : t.state = taskDead) :
    leaveOf .smNone ⟨false, false⟩ t = .block := by
  have htry : triesToBlock .smNone t = true := by
    unfold triesToBlock
    rw [h]
    decide
  have hsig : signalPendingState t.state ⟨false, false⟩ = false := by
    unfold signalPendingState
    simp
  rw [leaveOf, if_pos htry, if_neg (by rw [hsig]; decide)]

theorem stepCase_schedule {mode : SchedMode} {sig : Signals} {picks : Picks}
    (hen : enabled s (.schedule c mode sig picks) = true)
    (h : schedule E c mode sig picks s = .ok s') :
    StepCase E s (.schedule c mode sig picks) s' := by
  rcases schedule_cases h with ⟨-, hs⟩ | ⟨hbusy, s₁, next, s₂, h₁, hpick, hset, hs⟩
  · rw [hs]
    exact quiet_setRq rfl rfl
  · simp only [enabled, Bool.and_eq_true, bne_iff_ne, ne_eq] at hen
    obtain ⟨⟨⟨-, hstate⟩, -⟩, hok⟩ := hen
    rw [blocks_eq] at hok
    have hleave : leaves s (.schedule c mode sig picks)
        = some (c, leaveOf mode sig (s.task (s.rq c).curr)) := if_neg hbusy
    exact .reschedule c _ next s s₁ s₂ mode sig picks hleave (Or.inl ⟨rfl, hstate⟩) rfl h₁ hpick
      (pickNext_picked hok hpick) hset hs

theorem stepCase_doTaskDead {picks : Picks} (hen : enabled s (.doTaskDead c picks) = true)
    (h : doTaskDead E c picks s = .ok s') : StepCase E s (.doTaskDead c picks) s' := by
  unfold doTaskDead at h
  rcases schedule_cases h with ⟨⟨hmode, -⟩, -⟩ | ⟨-, s₁, next, s₂, h₁, hpick, hset, hs⟩
  · cases hmode
  · simp only [enabled, Bool.and_eq_true] at hen
    obtain ⟨⟨hlive, -⟩, hok⟩ := hen
    have hdead : ((setTaskState (s.rq c).curr taskDead s).task (s.rq c).curr).state = taskDead := by
      rw [setTaskState, setTask_self]
    exact .reschedule c .block next _ s₁ s₂ .smNone ⟨false, false⟩ picks rfl
      (Or.inr ⟨rfl, hlive, rfl⟩) (leaveOf_dead hdead).symm h₁ hpick (pickNext_picked hok hpick) hset
      hs

/-- `ttwu_runnable` writes the state, and may ask for a reschedule. -/
theorem ttwuRunnable_eq (thisCpu : Cpu) (p : TaskId) (s : Sys) :
    ∃ s₁, ttwuRunnable thisCpu p s = setTaskState p taskRunning s₁ ∧
      (s₁ = s ∨ s₁ = wakeupPreempt thisCpu (s.task p).cpu p s) := by
  unfold ttwuRunnable
  dsimp only
  refine ⟨_, rfl, ?_⟩
  split
  next => exact Or.inl rfl
  next => exact Or.inr rfl

theorem tryToWakeUp_cases {thisCpu dest : Cpu} {mask : Mask}
    (h : tryToWakeUp E thisCpu p mask dest s = .ok s') :
    s' = s ∨ (hasAny (s.task p).state mask = true ∧
      (s' = setTaskState p taskRunning s ∨ s' = ttwuRunnable thisCpu p s ∨
        (p ≠ (s.rq thisCpu).curr ∧ (s.task p).onRq ≠ .queued ∧
          ttwuDoActivate E thisCpu dest p ((s.task p).cpu != dest)
            (setTaskCpu p dest (setTaskState p taskWaking s)) = .ok s'))) := by
  unfold tryToWakeUp at h
  split at h
  next =>
    injection h with h
    exact Or.inl h.symm
  next hmatch =>
    refine Or.inr ⟨Bool.not_eq_false _ ▸ hmatch, ?_⟩
    split at h
    next =>
      injection h with h
      exact Or.inl h.symm
    next hcur =>
      split at h
      next =>
        injection h with h
        exact Or.inr (Or.inl h.symm)
      next hoff => exact Or.inr (Or.inr ⟨hcur, hoff, h⟩)

/-- A mask without `TASK_DEAD` does not match a dead task. -/
theorem ne_dead_of_match {state mask : Mask}
    (hmask : hasAny mask (taskDead ||| taskNew ||| taskWaking) = false)
    (hmatch : hasAny state mask = true) : state ≠ taskDead := by
  intro hd
  rw [hd] at hmatch
  unfold hasAny at hmask hmatch
  rw [bne_iff_ne] at hmatch
  rw [bne_eq_false_iff_eq] at hmask
  apply hmatch
  have hsplit : mask &&& (taskDead ||| taskNew ||| taskWaking) &&& taskDead = taskDead &&& mask := by
    rw [UInt32.and_assoc]
    show mask &&& taskDead = taskDead &&& mask
    exact UInt32.and_comm _ _
  rw [← hsplit, hmask]
  rfl

/-- No wakeup carries `ENQUEUE_INITIAL` or `ENQUEUE_CHANGED`. -/
theorem wakeupFlags_isEntry (migrated : Bool) :
    isEntry (enqueueWakeup ||| enqueueNoclock ||| (if migrated then enqueueMigrated else 0)) = false ∧
      isEntry (enqueueWakeup ||| enqueueNoclock ||| (if migrated then enqueueMigrated else 0)
        ||| enqueueMigrated) = false := by
  cases migrated <;> exact ⟨rfl, rfl⟩

theorem wakeupFlags_isRefresh (migrated : Bool) :
    isRefresh (enqueueWakeup ||| enqueueNoclock ||| (if migrated then enqueueMigrated else 0)) = true ∧
      isRefresh (enqueueWakeup ||| enqueueNoclock ||| (if migrated then enqueueMigrated else 0)
        ||| enqueueMigrated) = true := by
  cases migrated <;> exact ⟨rfl, rfl⟩

theorem stepCase_wake {thisCpu dest : Cpu} {mask : Mask}
    (hen : enabled s (.wake thisCpu p mask dest) = true)
    (h : tryToWakeUp E thisCpu p mask dest s = .ok s') :
    StepCase E s (.wake thisCpu p mask dest) s' := by
  simp only [enabled, Bool.and_eq_true, Bool.not_eq_true', Bool.or_eq_true, beq_iff_eq] at hen
  obtain ⟨⟨hlive, hmask⟩, hon⟩ := hen
  rcases tryToWakeUp_cases h with hs | ⟨hmatch, hs | hs | ⟨hcur, hoff, hact⟩⟩
  · rw [hs]
    exact .quiet rfl (fun _ => rfl) (fun _ => rfl)
  · rw [hs]
    exact .state p taskRunning hlive (by decide) (Or.inr (ne_dead_of_match hmask hmatch))
      (links_setTaskState ..) (fun _ => rfl) (fun _ => value_setTaskState ..)
  · obtain ⟨s₁, heq, hs₁⟩ := ttwuRunnable_eq thisCpu p s
    have hl : s₁.links = s.links := by
      rcases hs₁ with h₁ | h₁
      · rw [h₁]
      · rw [h₁, links_wakeupPreempt]
    have hrq : ∀ c, (s₁.rq c).hvf = (s.rq c).hvf := by
      intro c
      rcases hs₁ with h₁ | h₁
      · rw [h₁]
      · rw [h₁, wakeupPreempt_hvf]
    have hv : ∀ q, s₁.value q = s.value q := by
      intro q
      rcases hs₁ with h₁ | h₁
      · rw [h₁]
      · rw [h₁, wakeupPreempt_value]
    rw [hs, heq]
    refine .state p taskRunning hlive (by decide) (Or.inr (ne_dead_of_match hmask hmatch)) ?_ hrq ?_
    · rw [links_setTaskState, hl]
    · intro q
      rw [value_setTaskState, hv]
  · have htarget : activates s (.wake thisCpu p mask dest) = some (p, dest) :=
      if_pos ⟨hmatch, hcur, hoff⟩
    unfold ttwuDoActivate at hact
    obtain ⟨s₁, h₁, h₂⟩ := bind_ok.mp hact
    injection h₂ with h₂
    exact .activate p dest thisCpu taskWaking _ s₁ htarget hlive hoff (hon.resolve_left hoff)
      (ne_dead_of_match hmask hmatch) h₁ (Or.inr h₂.symm) (wakeupFlags_isEntry _)
      (wakeupFlags_isRefresh _)

theorem stepCase_wakeNew {thisCpu dest : Cpu} (hen : enabled s (.wakeNew thisCpu p dest) = true)
    (h : wakeUpNewTask E thisCpu p dest s = .ok s') :
    StepCase E s (.wakeNew thisCpu p dest) s' := by
  simp only [enabled, Bool.and_eq_true, beq_iff_eq] at hen
  obtain ⟨⟨⟨hlive, hnew⟩, hoff⟩, hon⟩ := hen
  unfold wakeUpNewTask at h
  obtain ⟨s₁, h₁, h₂⟩ := bind_ok.mp h
  injection h₂ with h₂
  refine .activate p dest thisCpu taskRunning _ s₁ rfl hlive ?_ hon ?_ h₁ (Or.inl ⟨rfl, h₂.symm⟩)
    ⟨rfl, rfl⟩ ⟨rfl, rfl⟩
  · rw [hoff]
    decide
  · rw [hnew]
    decide

/-- A step is an entry point that is enabled and returns. -/
theorem step_ok {a : Act} (h : step E s a = some s') : enabled s a = true ∧ exec E s a = .ok s' := by
  unfold step at h
  split at h
  next hen =>
    refine ⟨hen, ?_⟩
    cases hx : exec E s a with
    | error e =>
      rw [hx] at h
      cases h
    | ok s₁ =>
      rw [hx] at h
      injection h with h
      rw [h]
  next => cases h

/-- Every step is of one of the kinds. -/
theorem step_case {a : Act} (h : step E s a = some s') : StepCase E s a s' := by
  obtain ⟨hen, hx⟩ := step_ok h
  cases a with
  | setState c v =>
    simp only [enabled, Bool.and_eq_true, bne_iff_ne] at hen
    injection hx with hx
    rw [← hx]
    exact .state _ v hen.1 hen.2 (Or.inl ⟨c, rfl⟩) (links_setTaskState ..) (fun _ => rfl)
      (fun _ => value_setTaskState ..)
  | schedule c mode sig picks => exact stepCase_schedule hen hx
  | doTaskDead c picks => exact stepCase_doTaskDead hen hx
  | finishTaskSwitch c =>
    unfold exec at hx
    dsimp only at hx
    split at hx
    next =>
      injection hx with hx
      rw [← hx]
      exact .quiet rfl (fun _ => rfl) (fun _ => rfl)
    next p hp => exact .bury c p (congrArg (Option.map fun p => (c, p)) hp) hp hx
  | tick c =>
    injection hx with hx
    rw [← hx]
    exact .quiet (links_schedTick ..) (fun _ => schedTick_hvf ..) (fun _ => schedTick_value ..)
  | wake thisCpu p mask dest => exact stepCase_wake hen hx
  | fork c =>
    injection hx with hx
    rw [← hx]
    unfold copyProcess
    split
    next => exact .quiet rfl (fun _ => rfl) (fun _ => rfl)
    next t ht => exact .fork c t rfl hen ht rfl
  | wakeNew thisCpu p dest => exact stepCase_wakeNew hen hx
  | setscheduler ck p attr user pi =>
    simp only [enabled, Bool.and_eq_true] at hen
    obtain ⟨r, hr, hs⟩ := map_ok.mp hx
    rw [← hs]
    rcases schedSetscheduler_cases hr with ⟨-, h'⟩ | ⟨-, -, -, h'⟩ | ⟨policy, s', -, ht, h', hr'⟩
    · rw [h']
      exact .quiet rfl (fun _ => rfl) (fun _ => rfl)
    · rw [h']
      exact quiet_setTask rfl rfl
    · rw [hr']
      refine .change p _ ?_ hen.1.1 (setschedulerChange_change h')
      exact congrArg (Option.map fun cls => (p, cls)) ht
  | setprio p piTask =>
    rcases rtMutexSetprio_cases hx with ⟨-, t, h', hbody, hcls⟩ | ⟨cls, s₃, ht, hst, hend⟩
    · rw [h']
      have hv := congrArg (fun u : TaskStruct => u.hvf.currSchedValue) hbody
      refine quiet_setTask ?_ hv
      rw [link_of_body hbody, hcls]
      rfl
    · have hc := hst.changed hend
      rw [setprioFlags_isEntry] at hc
      exact .change p cls (congrArg (Option.map fun cls => (p, cls)) ht) hen hc
  | moveTask p => exact .change p _ rfl hen (schedMoveTask_change hx)
  | setParams c d1 d2 ct =>
    injection hx with hx
    rw [← hx]
    have hp : ∀ t, (setSchedulingParams (s.now E) d1 d2 ct t).2.link = t.link ∧
        (setSchedulingParams (s.now E) d1 d2 ct t).2.hvf = t.hvf := by
      intro t
      unfold setSchedulingParams
      split
      next => exact ⟨rfl, rfl⟩
      next => exact ⟨rfl, rfl⟩
    refine .quiet ?_ (fun _ => rfl) ?_
    · rw [← links_tickClock s]
      exact links_setTask_same (hp (s.task (s.rq c).curr)).1
    · intro q
      unfold Sys.value
      rw [setTask_task]
      split
      next hq =>
        rw [hq, (hp _).2]
      next => rfl

/-- The class change of an action that has a target. -/
theorem step_change {a : Act} {cls : SchedClass} (htarget : classTarget s a = some (p, cls))
    (hstep : step E s a = some s') : ClassChange E p cls a.initialises s s' := by
  obtain ⟨-, hx⟩ := step_ok hstep
  cases a with
  | setscheduler ck q attr user pi =>
    obtain ⟨cls', ht, heq⟩ := Option.map_eq_some_iff.mp htarget
    injection heq with hq hcls
    subst hq hcls
    obtain ⟨r, hr, hs⟩ := map_ok.mp hx
    obtain ⟨policy, hcls, h'⟩ := schedSetscheduler_of_target ht hr
    rw [hcls, ← hs]
    exact setschedulerChange_change h'
  | setprio q piTask =>
    obtain ⟨cls', ht, heq⟩ := Option.map_eq_some_iff.mp htarget
    injection heq with hq hcls
    subst hq hcls
    rcases rtMutexSetprio_cases hx with ⟨hnone, -⟩ | ⟨cls, s₃, hsome, hst, hend⟩
    · rw [ht] at hnone
      cases hnone
    · rw [ht] at hsome
      injection hsome with hsome
      have hc := hst.changed hend
      rw [setprioFlags_isEntry] at hc
      rw [hsome]
      exact hc
  | moveTask q =>
    injection htarget with heq
    injection heq with hq hcls
    rw [← hcls, ← hq]
    exact schedMoveTask_change hx
  | _ => cases htarget

/-! ## The kinds of step in the bookkeeping -/

/-- The state a reschedule starts from differs at most in the state of the
running task. -/
theorem reschedule_links {how : Links.Leave} {next : TaskId} {s₀ s₁ s₂ : Sys} {mode : SchedMode}
    {sig : Signals} (hcurr : (s₀.rq c).curr = (s.rq c).curr)
    (hhow : how = leaveOf mode sig (s₀.task (s.rq c).curr))
    (hprev : leavePrev E c mode sig s₀ = .ok s₁)
    (hset : putPrevSetNextTask E c (s.rq c).curr next s₁ = .ok s₂)
    (hs : s' = switchTo c (s.rq c).curr next s₂) :
    s'.links = s₀.links.schedule c how next := by
  rw [← hcurr] at hhow hset hs
  rw [hs, links_switchTo, links_putPrevSetNextTask hset, links_leavePrev hprev, ← hhow]
  rfl

theorem activate_links {dest thisCpu : Cpu} {v flags : Mask} {s₁ : Sys}
    (h : activateTask E dest p flags (setTaskCpu p dest (setTaskState p v s)) = .ok s₁)
    (hs : (v = taskRunning ∧ s' = wakeupPreempt thisCpu dest p s₁) ∨
      s' = setTaskState p taskRunning (wakeupPreempt thisCpu dest p s₁)) :
    s'.links = s.links.wake p dest v := by
  have hl₁ : s₁.links = ((s.links.setState p v).setCpu p dest).activate dest p := by
    rw [links_activateTask h, links_setTaskCpu, links_setTaskState]
  rcases hs with ⟨hv, hs⟩ | hs
  · -- the state was written at the start already
    have hstate : (s₁.links.task p).state = taskRunning := by
      rw [hl₁, Links.activate, Links.setOnRq, Links.setTask_task, if_pos rfl]
      dsimp only
      rw [(Links.enqueue_frame dest p _).state, Links.setCpu, Links.setTask_task, if_pos rfl,
        Links.setState, Links.setTask_task, if_pos rfl, hv]
    rw [hs, links_wakeupPreempt, Links.wake, ← hl₁, Links.setState, ← hstate]
    exact (Links.setTask_same p s₁.links).symm
  · rw [hs, links_setTaskState, links_wakeupPreempt, hl₁, Links.wake]

theorem schedFork_links {t : TaskStruct} (ht : schedFork (s.task (s.rq c).curr) = some t)
    (hs : s' = addTask (finishChild c t) s) :
    ∃ t', ForkedFrom (s.links.task (s.rq c).curr) c t' ∧ s'.links = s.links.fork t' :=
  ⟨_, schedFork_forked c ht, by rw [hs, links_addTask]⟩

/-- Pids are never given back. -/
theorem step_nextPid {a : Act} (h : step E s a = some s') : s.nextPid ≤ s'.nextPid := by
  have hpid : ∀ {l : Links}, s'.links = l → l.nextPid = s.nextPid → s.nextPid ≤ s'.nextPid := by
    intro l hl hn
    have hn' := congrArg Links.nextPid hl
    exact Nat.le_of_eq (hn.symm.trans hn'.symm)
  cases step_case h with
  | quiet hl hrq hv => exact hpid hl rfl
  | state p v hlive hne hdead hl hrq hv => exact hpid hl rfl
  | reschedule c how next s₀ s₁ s₂ mode sig picks hleave hstart hhow hprev hpick hpicked hset hs =>
    have hs₀ : s₀.rq = s.rq ∧ s₀.nextPid = s.nextPid := by
      rcases hstart with ⟨rfl, -⟩ | ⟨-, -, rfl⟩
      · exact ⟨rfl, rfl⟩
      · exact ⟨rfl, rfl⟩
    refine hpid (reschedule_links ?_ hhow hprev hset hs) (Links.schedule_nextPid.trans hs₀.2)
    rw [hs₀.1]
  | activate p dest thisCpu v flags s₁ hact hlive hoff hon hdead h hs _ =>
    exact hpid (activate_links h hs) Links.wake_nextPid
  | change p cls htarget hlive h => exact hpid h.links Links.change_nextPid
  | bury c p hbury hdead h => exact hpid (links_finishTaskSwitch h) Links.bury_nextPid
  | fork c t hfork hlive ht hs =>
    rw [hs]
    exact Nat.le_succ _

theorem step_isLive {a : Act} (h : step E s a = some s') (hlive : s.isLive p = true) :
    s'.isLive p = true := by
  have hpid := step_nextPid h
  cases p with
  | idle c => exact hlive
  | task n =>
    have hn : n < s.nextPid := of_decide_eq_true hlive
    exact decide_eq_true (Nat.lt_of_lt_of_le hn hpid)

/-- A step that reschedules `c` goes on in the task it switched to. -/
theorem step_switchesTo {a : Act} {how : Links.Leave} (h : step E s a = some s')
    (hleave : leaves s a = some (c, how)) : switchesTo E s a = some (s'.rq c).curr := by
  obtain ⟨-, hx⟩ := step_ok h
  have hnext : ∀ {s₀ s₁ s₂ : Sys} {mode : SchedMode} {sig : Signals} {next : TaskId},
      leavePrev E c mode sig s₀ = .ok s₁ → putPrevSetNextTask E c (s₀.rq c).curr next s₁ = .ok s₂ →
      s' = switchTo c (s₀.rq c).curr next s₂ → (s'.rq c).curr = next := by
    intro s₀ s₁ s₂ mode sig next h₁ hset hs
    have hl := congrArg (fun l => (l.rq c).curr) (reschedule_links rfl rfl h₁ hset hs)
    exact hl.trans Links.schedule_curr_self
  cases a with
  | schedule d mode sig picks =>
    rcases schedule_cases hx with ⟨hidle, -⟩ | ⟨hbusy, s₁, next, s₂, h₁, hpick, hset, hs⟩
    · cases (if_pos hidle).symm.trans hleave
    · have hc : d = c := congrArg Prod.fst (Option.some.inj ((if_neg hbusy).symm.trans hleave))
      subst hc
      rw [hnext h₁ hset hs]
      exact nextTask_eq_some.mpr ⟨hbusy, s₁, h₁, hpick⟩
  | doTaskDead d picks =>
    have hc : d = c := congrArg Prod.fst (Option.some.inj hleave)
    subst hc
    have hx : doTaskDead E d picks s = .ok s' := hx
    unfold doTaskDead at hx
    rcases schedule_cases hx with ⟨⟨hmode, -⟩, -⟩ | ⟨hbusy, s₁, next, s₂, h₁, hpick, hset, hs⟩
    · cases hmode
    · rw [hnext h₁ hset hs]
      exact nextTask_eq_some.mpr ⟨hbusy, s₁, h₁, hpick⟩
  | _ => cases hleave

theorem switchesTo_of_step {a : Act} {how : Links.Leave} {next : TaskId} {s₂ : Sys}
    (h : step E s a = some s') (hleave : leaves s a = some (c, how))
    (hs : s' = switchTo c (s.rq c).curr next s₂) (hne : next ≠ (s.rq c).curr) :
    switchesTo E s a = some next := by
  rw [step_switchesTo h hleave, hs, switchTo, if_neg hne]
  dsimp only
  rw [Sys.setRq_rq, if_pos rfl]

end HvfSched
