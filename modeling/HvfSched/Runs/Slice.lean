import HvfSched.Runs.Pick
import HvfSched.Tasks.Running

/-!
# Used-up slices

`task_tick_hvf` sets `slice_expired` when the run time of the running task
reaches its slice. `put_prev_task_hvf` reduces the value of a task whose latch
is set and releases the latch, if the task is `TASK_RUNNING`.

* A task that used up its slice pays at the next `__schedule` exactly when it
  does not go on running. The core skips both hooks if the task it picks is the
  one that runs, and that happens when the running task is the cached maximum
  of its tree: a task that switched itself to HVF while it was running is
  linked (`running_task_never_pays`). Then neither the value nor the latch nor
  the run time changes.
* A task that blocks keeps its latch. When it is put after a later dispatch,
  which may have been short, it is reduced for the slice it used up before it
  slept (`reduced_after_sleep`). The observer here keeps, for every task, the
  run time since it took the CPU in the class and whether that has reached the
  slice at some tick.
-/

namespace HvfSched

open Lib Sys

variable {E : Env} {s s' s₁ : Sys} {a : Act} {c : Cpu} {p prev next : TaskId} {picks : Picks}

/-! ## Paying at the next `__schedule` -/

/-- The running task `prev` of `c` is an HVF task whose slice is used up. -/
structure SliceUsedUp (s : Sys) (c : Cpu) (prev : TaskId) : Prop where
  curr : (s.rq c).curr = prev
  hvf : (s.task prev).schedClass = .hvf
  expired : (s.task prev).hvf.sliceExpired = true

/-- `c` is not rescheduled, and nobody changes the attributes of `prev`. -/
def waitsFor (c : Cpu) (prev : TaskId) (s : Sys) (a : Act) : Prop :=
  flagsKept s a ∧ (∀ x ∈ leaves s a, x.1 ≠ c) ∧ ∀ x ∈ classTarget s a, x.1 ≠ prev

instance (c : Cpu) (prev : TaskId) (s : Sys) (a : Act) : Decidable (waitsFor c prev s a) :=
  inferInstanceAs (Decidable (_ ∧ _ ∧ _))

/-- The states from `s` on in which the next `__schedule` of `c` is still to
come. -/
def UntilSchedule (E : Env) (c : Cpu) (prev : TaskId) (s : Sys) : Sys → Prop :=
  Reach (fun s₀ => s₀ = s) (step E) (waitsFor c prev)

/-- `prev` has paid for its slice: the latch is released, the value is the one
reduced once (and punished once if `prev` overran and was not linked), and if
`prev` goes on running it has a new slice. -/
structure Paid (E : Env) (s s' : Sys) (c : Cpu) (prev : TaskId) : Prop where
  released : (s'.task prev).hvf.sliceExpired = false
  reduced : s'.value prev = requeueValue E s prev
  renewed : (s'.rq c).curr = prev → (s'.task prev).hvf.runtime = 0

/-- No class above HVF answers, and the running task is the cached maximum. -/
def PickedAgain (s : Sys) (c : Cpu) (picks : Picks) : Prop :=
  ((s.rq c).nrRunning ≠ (s.rq c).cfsNrQueued ∨ picks.fast = .retry) ∧ picks.above = none ∧
    (s.rq c).hvf.maxValueEntity = some (s.rq c).curr

instance (s : Sys) (c : Cpu) (picks : Picks) : Decidable (PickedAgain s c picks) :=
  inferInstanceAs (Decidable (_ ∧ _ ∧ _))

/-- A running task is not activated as a new one. -/
theorem not_new_of_curr (hb : Base s) (hstep : step E s a = some s') (hcurr : (s.rq c).curr = p)
    (hcls : (s.task p).schedClass = .hvf) {dest : Cpu} (hnew : a.isNew = true)
    (hact : activates s a = some (p, dest)) : False := by
  have hon : (s.task p).onCpu = true := by
    rcases hb.sound.curr c with hi | ⟨-, -, hon⟩
    · exact absurd (hcurr.symm.trans hi) (ne_idle_of_hvf hb.sound hcls c)
    · have hon : (s.task (s.rq c).curr).onCpu = true := hon
      rw [hcurr] at hon
      exact hon
  cases a with
  | wakeNew thisCpu q d =>
    injection hact with hact
    injection hact with hq _
    subst hq
    have hen := (step_ok hstep).1
    simp only [enabled, Bool.and_eq_true, beq_iff_eq] at hen
    rw [hon] at hen
    cases hen.2
  | _ => cases hnew

/-- Until the next `__schedule` the latch stays set and the task keeps
running. -/
theorem SliceUsedUp.step (hb : Base s) (h : SliceUsedUp s c prev) (hok : waitsFor c prev s a)
    (hstep : HvfSched.step E s a = some s') : SliceUsedUp s' c prev := by
  obtain ⟨hcurr, hcls, hexp⟩ := h
  have hexp : (s.task prev).record.expired = true := hexp
  have hmk : (s'.rq c).curr = prev → (s'.task prev).schedClass = .hvf →
      (s'.task prev).record.expired = true → SliceUsedUp s' c prev := fun h₁ h₂ h₃ => ⟨h₁, h₂, h₃⟩
  cases step_task hstep prev with
  | same hidle hrec hreads hcls' hcpus =>
    refine hmk ((hcpus c).mpr hcurr) (hcls'.trans hcls) ?_
    rw [hrec]
    exact hexp
  | other hidle hrec hreads hout hcls' => exact absurd hcls hout
  | tick c' ha hp _ hrec hstill =>
    refine hmk ((hstill.curr c).trans hcurr) ((hstill.schedClass prev).trans hcls) ?_
    have hr : (s'.task prev).record = _ := congrArg Clocked.record hrec
    rw [hr]
    show ((s.task prev).record.expired || _) = true
    rw [hexp]
    rfl
  | params c' d1 d2 ct ha hp hacc hrec hreads hstill =>
    refine hmk ((hstill.curr c).trans hcurr) ((hstill.schedClass prev).trans hcls) ?_
    rw [hrec]
    exact hexp
  | put c' how hleave hp _ hrec hreads hcls' hcpus =>
    -- `prev` runs on `c` only, and `c` is not rescheduled
    have hc := curr_unique hb.sound (ne_idle_of_hvf hb.sound hcls) hcurr hp
    exact absurd hc (hok.2.1 _ hleave)
  | dispatch c' how n hleave hne _ hrec hreads hcls' hcpus =>
    refine hmk ((hcpus c).mpr (Or.inr hcurr)) hcls' ?_
    have hr : (s'.task prev).record = _ := congrArg Clocked.record hrec
    rw [hr]
    exact hexp
  | enter dest hact hnew _ hrec hstill => exact (not_new_of_curr hb hstep hcurr hcls hnew hact).elim
  | stay htarget => exact absurd rfl (hok.2.2 _ htarget)
  | leave cls htarget => exact absurd rfl (hok.2.2 _ htarget)
  | join htarget hout => exact absurd hcls hout
  | born c' t hp => exact absurd hp (ne_next_of_live (hb.running_hvf hcurr hcls).1)

theorem UntilSchedule.usedUp (hb : Base s) (h : SliceUsedUp s c prev)
    (hwait : UntilSchedule E c prev s s₁) : Base s₁ ∧ SliceUsedUp s₁ c prev := by
  refine Reach.invariant (fun s => Base s ∧ SliceUsedUp s c prev) ?_ ?_ hwait
  · rintro s₀ rfl
    exact ⟨hb, h⟩
  · rintro s₀ a s' ⟨hb₀, h₀⟩ hok hstep
    exact ⟨step_base hb₀ hok.1 hstep, h₀.step hb₀ hok hstep⟩

/-- The ordered walk falls on an HVF task exactly when that is the cached
maximum and nothing above HVF answers. -/
theorem pickFromClasses_eq_iff (hb : Base s) {m : TaskId} (hcls : (s.task m).schedClass = .hvf)
    {blocked : Bool} (hok : s.picksOk c blocked picks = true)
    (hpick : pickFromClasses s c picks = .ok next) :
    next = m ↔ picks.above = none ∧ (s.rq c).hvf.maxValueEntity = some m := by
  have hidle := ne_idle_of_hvf hb.sound hcls c
  unfold pickFromClasses at hpick
  cases habove : picks.above with
  | some q =>
    rw [habove] at hpick
    injection hpick with hpick
    constructor
    · -- the answer is a task of a higher class
      intro hm
      have hq := (Bool.and_eq_true _ _ ▸ hok : _ ∧ _).2
      rw [habove] at hq
      dsimp only at hq
      unfold pickable at hq
      simp only [Bool.and_eq_true] at hq
      rw [hpick, hm, hcls] at hq
      exact absurd hq.1.1.1.2 (by decide)
    · rintro ⟨hnone, -⟩
      cases hnone
  | none =>
    rw [habove] at hpick
    dsimp only at hpick
    constructor
    · intro hm
      subst hm
      rcases pickTaskHvf_cases hpick with hi | hmax
      · exact absurd hi hidle
      · exact ⟨rfl, hmax⟩
    · rintro ⟨-, hmax⟩
      have hmem := hb.trees.max c m hmax
      unfold pickTaskHvf at hpick
      rw [if_neg, hmax] at hpick
      · injection hpick with hpick
        exact hpick.symm
      · rw [OrdTree.isEmpty_iff]
        exact List.ne_nil_of_mem hmem

/-- The pick falls on the running task exactly when `__schedule` finds it as
the cached maximum. -/
theorem pickNext_eq_curr_iff (hb : Base s) (hcls : (s.task (s.rq c).curr).schedClass = .hvf)
    {blocked : Bool} (hok : s.picksOk c blocked picks = true)
    (hpick : pickNext s c (s.rq c).curr picks = .ok next) :
    next = (s.rq c).curr ↔ PickedAgain s c picks := by
  have hidle := ne_idle_of_hvf hb.sound hcls c
  have hclasses : pickFromClasses s c picks = .ok next → (next = (s.rq c).curr ↔
      picks.above = none ∧ (s.rq c).hvf.maxValueEntity = some (s.rq c).curr) :=
    pickFromClasses_eq_iff hb hcls hok
  have hfair : schedClassAbove (s.task (s.rq c).curr).schedClass .fair = false := by
    rw [hcls]
    decide
  unfold PickedAgain
  unfold pickNext at hpick
  by_cases hnr : (s.rq c).nrRunning = (s.rq c).cfsNrQueued
  · rw [if_pos ⟨hfair, hnr⟩] at hpick
    cases hfast : picks.fast with
    | retry =>
      rw [hfast] at hpick
      rw [hclasses hpick]
      exact ⟨fun h => ⟨Or.inr rfl, h⟩, fun h => h.2⟩
    | none =>
      -- the fast path answers that there is nothing
      rw [hfast] at hpick
      injection hpick with hpick
      constructor
      · intro hm
        exact absurd (hm.symm.trans hpick.symm) hidle
      · rintro ⟨hslow | hslow, -⟩
        · exact absurd hnr hslow
        · cases hslow
    | task q =>
      rw [hfast] at hpick
      injection hpick with hpick
      constructor
      · intro hm
        have hq := (Bool.and_eq_true _ _ ▸ hok : _ ∧ _).1
        rw [hfast] at hq
        dsimp only at hq
        rw [Bool.and_eq_true, beq_iff_eq, hpick, hm, hcls] at hq
        cases hq.1
      · rintro ⟨hslow | hslow, -⟩
        · exact absurd hnr hslow
        · cases hslow
  · rw [if_neg (fun h => hnr h.2)] at hpick
    rw [hclasses hpick]
    exact ⟨fun h => ⟨Or.inl hnr, h⟩, fun h => h.2⟩

/-- A task that is switched out while it could go on has paid. -/
theorem paid_of_switch {s₂ : Sys} (hu : SliceUsedUp s c prev)
    (hrun : (s.task prev).isRunning = true) (hne : next ≠ prev)
    (hset : setNextTask E c next true (putPrevTask E c prev s) = .ok s₂)
    (hs : s' = switchTo c prev next s₂) (hcurr : (s'.rq c).curr = next) : Paid E s s' c prev := by
  obtain ⟨hc, hcls, hexp⟩ := hu
  have hput := (On.putPrevTask E c prev s).record_self
  rw [if_pos hcls] at hput
  constructor
  · have hrec := (On.record_ne (On.setNextTask hset) (Ne.symm hne)).1.trans hput
    have hsame := record_of_data ((SameData.switchTo c prev next s₂).data prev)
    rw [← hs] at hsame
    have hexp' := congrArg Record.expired (hsame.trans hrec)
    refine hexp'.trans ?_
    show (if (s.task prev).isRunning = true then false else _) = false
    exact if_pos hrun
  · have hvalue : (putPrevTask E c prev s).value prev = requeueValue E s prev := by
      unfold putPrevTask
      rw [if_pos hcls]
      exact putPrevTaskHvf_value hrun
    have hswitch : s'.value prev = s₂.value prev := by
      have hd := (SameData.switchTo c prev next s₂).data prev
      have hv := congrArg (fun t => t.hvf.currSchedValue) hd
      rw [hs]
      exact hv
    rw [hswitch, setNextTask_value hset, hvalue]
  · intro hagain
    exact absurd (hcurr.symm.trans hagain) hne

/-- An HVF task that has used up its slice pays at the next `__schedule`
exactly when it is not picked again. -/
theorem used_slice_paid_iff (E : Env) (s s₁ s' : Sys) (c : Cpu) (prev : TaskId) (mode : SchedMode)
    (sig : Signals) (picks : Picks) (h : Reached E flagsKept s) (hu : SliceUsedUp s c prev)
    (hwait : UntilSchedule E c prev s s₁) (hrun : (s₁.task prev).isRunning = true)
    (hstep : step E s₁ (.schedule c mode sig picks) = some s') :
    Paid E s₁ s' c prev ↔ ¬ PickedAgain s₁ c picks := by
  have hb₀ := reached_base (fun _ _ hk => hk) h
  obtain ⟨hb, hu₁⟩ := hwait.usedUp hb₀ hu
  obtain ⟨hc, hcls, hexp⟩ := hu₁
  subst hc
  obtain ⟨hen, hx⟩ := step_ok hstep
  simp only [enabled, Bool.and_eq_true, Bool.or_eq_true, bne_iff_ne, ne_eq, beq_iff_eq] at hen
  obtain ⟨⟨-, hmode⟩, hok⟩ := hen
  have hidle := ne_idle_of_hvf hb.sound hcls c
  -- `TASK_RUNNING`: the running task is not blocked
  have htry : triesToBlock mode (s₁.task (s₁.rq c).curr) = false := by
    have hstate : (s₁.task (s₁.rq c).curr).state = taskRunning := (isRunning_iff _).mp hrun
    unfold triesToBlock
    rw [hstate]
    simp
  rcases schedule_cases hx with ⟨⟨hsm, -⟩, -⟩ | ⟨-, s₂, next, s₃, h₂, hpick, hset, hs⟩
  · exact absurd hsm (hmode.resolve_right hidle)
  · have h₂ : s₂ = s₁ := by
      rcases leavePrev_cases h₂ with ⟨hblock, -⟩ | ⟨-, h₂⟩
      · exact absurd hblock (Bool.eq_false_iff.mp htry)
      · exact h₂
    subst h₂
    have hiff := pickNext_eq_curr_iff hb hcls hok hpick
    rcases putPrevSetNextTask_cases hset with ⟨hne, h₃⟩ | ⟨hne, hset⟩
    · -- no hook is called: the latch stays set
      have htask : s'.task = s₂.task := by
        rw [hs, h₃, switchTo, if_pos hne]
        rfl
      constructor
      · intro hpaid
        have hrel := hpaid.released
        rw [htask, hexp] at hrel
        cases hrel
      · intro hnot
        exact absurd (hiff.mp hne) hnot
    · have hcurr : (s'.rq c).curr = next := by
        rw [hs, switchTo, if_neg hne]
        dsimp only
        rw [setRq_self]
      refine ⟨fun _ => fun hagain => hne (hiff.mpr hagain), fun _ => ?_⟩
      exact paid_of_switch ⟨rfl, hcls, hexp⟩ hrun hne hset hs hcurr

/-- The next task of the class takes over, and the first one has paid. -/
theorem used_slice_paid_when_displaced :
    ∃ s s', Reached sampleEnv flagsKept s ∧ SliceUsedUp s 0 (.task 1) ∧
      step sampleEnv s (.schedule 0 .smPreempt ⟨false, false⟩ pickNone) = some s' ∧
      (s'.rq 0).curr = .task 2 ∧ Paid sampleEnv s s' 0 (.task 1) := by
  obtain ⟨s, hs, hf⟩ := Reached.of_check (b := ((true, true), some (TaskId.task 2))) sampleEnv
    flagsKept
    (fun s => ((decide ((s.rq 0).curr = .task 1 ∧ (s.task (.task 1)).schedClass = .hvf ∧
        (s.task (.task 1)).hvf.sliceExpired = true),
        decide ((s.task (.task 1)).isRunning = true ∧ ¬ PickedAgain s 0 pickNone)),
      (step sampleEnv s (.schedule 0 .smPreempt ⟨false, false⟩ pickNone)).map fun s' =>
        (s'.rq 0).curr))
    useUpSlice (by decide +kernel)
  injection hf with hbefore hafter
  injection hbefore with hused hpick
  obtain ⟨hcurr, hcls, hexp⟩ := of_decide_eq_true hused
  obtain ⟨hrun, hpick⟩ := of_decide_eq_true hpick
  obtain ⟨s', hstep, hcurr'⟩ := Option.map_eq_some_iff.mp hafter
  have hu : SliceUsedUp s 0 (.task 1) := ⟨hcurr, hcls, hexp⟩
  have hpaid := used_slice_paid_iff sampleEnv s s s' 0 (.task 1) .smPreempt ⟨false, false⟩ pickNone
    hs hu (.start rfl) hrun hstep
  exact ⟨s, s', hs, hu, hstep, hcurr', hpaid.mpr hpick⟩

/-- A task that switched itself to HVF while it was running is the maximum of
its tree: it is picked again and again and never pays. -/
theorem running_task_never_pays :
    ∃ s s', Reached sampleEnv (fun _ _ => True) s ∧
      (SliceUsedUp s 0 (.task 0) ∧ (s.task (.task 0)).isRunning = true) ∧
      step sampleEnv s (.schedule 0 .smPreempt ⟨false, false⟩ pickNone) = some s' ∧
      ((s'.rq 0).curr = .task 0 ∧ s'.value (.task 0) = s.value (.task 0)) ∧
      (s'.task (.task 0)).hvf.sliceExpired = true ∧
      (s'.task (.task 0)).hvf.runtime = 200000000 := by
  obtain ⟨s, hs, hf⟩ := Reached.of_eval (b := (true, some (true, true))) sampleEnv
    (fun s => (decide ((s.rq 0).curr = .task 0 ∧ (s.task (.task 0)).schedClass = .hvf ∧
        (s.task (.task 0)).hvf.sliceExpired = true ∧ (s.task (.task 0)).isRunning = true),
      (step sampleEnv s (.schedule 0 .smPreempt ⟨false, false⟩ pickNone)).map fun s' : Sys =>
        (decide ((s'.rq 0).curr = .task 0 ∧ s'.value (.task 0) = s.value (.task 0)),
          decide ((s'.task (.task 0)).hvf.sliceExpired = true ∧
            (s'.task (.task 0)).hvf.runtime = 200000000))))
    (startFirst ++ [.setscheduler permissive (.task 0) (plainAttr 8) true true, .tick 0])
    (by decide +kernel)
  injection hf with hbefore hafter
  obtain ⟨hcurr, hcls, hexp, hrun⟩ := of_decide_eq_true hbefore
  obtain ⟨s', hstep, hs'⟩ := Option.map_eq_some_iff.mp hafter
  injection hs' with hagain hslice
  exact ⟨s, s', hs, ⟨⟨hcurr, hcls, hexp⟩, hrun⟩, hstep, of_decide_eq_true hagain,
    of_decide_eq_true hslice⟩

/-! ## Notes on the running dispatch -/

/-- The run time since the task took the CPU in the class, in nanoseconds, and
whether it has reached the slice at some tick. -/
structure SliceNote where
  ran : Int
  reached : Bool
  deriving DecidableEq

/-- The note on `p` after a step: it starts anew when `p` takes the CPU in the
class, or comes into the class while it is running. -/
def nextNote (E : Env) (s : Sys) (a : Act) (s' : Sys) (p : TaskId) (x : SliceNote) : SliceNote :=
  if runsHvf s p = false ∧ runsHvf s' p = true then ⟨0, false⟩
  else
    match a with
    | .tick c =>
      if (s.rq c).curr = p ∧ (s.task p).schedClass = .hvf then
        let ran := x.ran + E.tickNsec.toInt
        ⟨ran, x.reached || decide ((timeSlice (s.value p)).toInt * 1000000 ≤ ran)⟩
      else x
    | _ => x

abbrev SliceNotes := TaskId → SliceNote

def nextNotes (E : Env) (s : Sys) (a : Act) (s' : Sys) (N : SliceNotes) : SliceNotes :=
  fun p => nextNote E s a s' p (N p)

def blankNotes : SliceNotes := fun _ => ⟨0, false⟩

/-- The runs, with the notes. -/
def Slicing (E : Env) (ok : Sys → Act → Prop) : Sys × SliceNotes → Prop :=
  Observed (fun s => s = boot) (step E) ok (nextNotes E) blankNotes

theorem Slicing.of_check {β : Type} (E : Env) (ok : Sys → Act → Prop)
    [∀ s a, Decidable (ok s a)] (f : Sys × SliceNotes → β) (l : List Act) {b : β}
    (h : (runChecked (observed (step E) (nextNotes E)) (fun x a => ok x.1 a) l
      (boot, blankNotes)).map f = some b) : ∃ x, Slicing E ok x ∧ f x = b :=
  Observed.of_check f rfl h

/-! ## The call of `reduce_sched_value` -/

/-- `put_prev_task_hvf` with another function in the place of
`reduce_sched_value`. -/
def putPrevTaskHvfWith (reduce : SchedHvfEntity → SchedHvfEntity) (E : Env) (c : Cpu) (p : TaskId)
    (s : Sys) : Sys :=
  let s := (s.tickClock).setEntity p (updateUsedSeHvf (s.now E) (s.task p).hvf)
  if (s.task p).isRunning then
    let se := (s.task p).hvf
    putPrevHvfEntity E c p
      (s.setEntity p (if se.sliceExpired then { reduce se with sliceExpired := false } else se))
  else s

theorem putPrevTaskHvfWith_reduce (E : Env) (c : Cpu) (p : TaskId) (s : Sys) :
    putPrevTaskHvfWith reduceSchedValue E c p s = putPrevTaskHvf E c p s := rfl

/-- `put_prev_task_hvf` calls `reduce_sched_value`: with some other function in
its place it comes to another result. -/
def CallsReduce (E : Env) (c : Cpu) (p : TaskId) (s : Sys) : Prop :=
  ∃ reduce, putPrevTaskHvfWith reduce E c p s ≠ putPrevTaskHvf E c p s

theorem putPrevHvfEntity_used (E : Env) (c : Cpu) (p : TaskId) (s : Sys) :
    ((putPrevHvfEntity E c p s).task p).hvf.timeUsed = (s.task p).hvf.timeUsed := by
  unfold putPrevHvfEntity
  dsimp only
  split
  next => rfl
  next =>
    have hused := congrArg Record.used (On.enqueueHvfEntity E c p s).record_self
    exact hused

/-- The call is made for a task in `TASK_RUNNING` whose latch is set. -/
theorem callsReduce_iff : CallsReduce E c p s ↔
    (s.task p).isRunning = true ∧ (s.task p).hvf.sliceExpired = true := by
  have hself := withUsed_self E p s
  have hrun : ((withUsed E p s).task p).isRunning = (s.task p).isRunning := by
    rw [hself]
    rfl
  have hlatch : ((withUsed E p s).task p).hvf.sliceExpired = (s.task p).hvf.sliceExpired := by
    rw [hself]
    rfl
  have hwith : ∀ reduce, putPrevTaskHvfWith reduce E c p s =
      if ((withUsed E p s).task p).isRunning then
        putPrevHvfEntity E c p ((withUsed E p s).setEntity p
          (if ((withUsed E p s).task p).hvf.sliceExpired then
            { reduce ((withUsed E p s).task p).hvf with sliceExpired := false }
          else ((withUsed E p s).task p).hvf))
      else withUsed E p s := fun _ => rfl
  constructor
  · rintro ⟨reduce, hne⟩
    rw [← putPrevTaskHvfWith_reduce, hwith, hwith, hrun, hlatch] at hne
    refine ⟨?_, ?_⟩
    · by_contra hno
      rw [if_neg hno, if_neg hno] at hne
      exact hne rfl
    · by_contra hno
      rw [if_neg hno, if_neg hno] at hne
      exact hne rfl
  · rintro ⟨hr, he⟩
    -- a function that counts its calls in `time_used`
    refine ⟨fun se => { se with timeUsed := se.timeUsed + 1 }, fun heq => ?_⟩
    rw [← putPrevTaskHvfWith_reduce, hwith, hwith, hrun, hlatch, if_pos hr, if_pos hr, if_pos he,
      if_pos he] at heq
    have hused := congrArg (fun s : Sys => (s.task p).hvf.timeUsed) heq
    dsimp only at hused
    rw [putPrevHvfEntity_used, putPrevHvfEntity_used, Sys.setEntity, setTask_self, Sys.setEntity,
      setTask_self] at hused
    have hzero : (1 : Long) = 0 := by
      have hadd : ((withUsed E p s).task p).hvf.timeUsed + 1
          = ((withUsed E p s).task p).hvf.timeUsed + 0 := by
        rw [Int64.add_zero]
        exact hused
      exact (Int64.add_right_inj _).mp hadd
    exact absurd hzero (by decide)

/-- The step calls `put_prev_task_hvf` for `p` on `c`, in the state `m`: `p` is
switched out, or its attributes are changed while it is running. -/
inductive PutsHvf (E : Env) (s : Sys) (a : Act) (c : Cpu) (p : TaskId) (m : Sys) : Prop
  | schedule (mode : SchedMode) (sig : Signals) (picks : Picks) (next : TaskId)
      (ha : a = .schedule c mode sig picks) (hp : (s.rq c).curr = p)
      (hcls : (s.task p).schedClass = .hvf) (hprev : leavePrev E c mode sig s = .ok m)
      (hpick : pickNext m c p picks = .ok next) (hne : next ≠ p)
  | exit (picks : Picks) (next : TaskId) (ha : a = .doTaskDead c picks) (hp : (s.rq c).curr = p)
      (hcls : (s.task p).schedClass = .hvf)
      (hprev : leavePrev E c .smNone ⟨false, false⟩ (setTaskState p taskDead s) = .ok m)
      (hpick : pickNext m c p picks = .ok next) (hne : next ≠ p)
  | change (cls : SchedClass) (t : TaskStruct) (htarget : classTarget s a = some (p, cls))
      (hcurr : s.isCurrent p = true) (hcls : (s.task p).schedClass = .hvf)
      (hc : (s.task p).cpu = c)
      (ht : t.body = (s.task p).body ∧ t.schedClass = (s.task p).schedClass)
      (hoff : (if t.isQueued then (dequeueTask E c p (s.setTask p t)).map Prod.snd
        else .ok (s.setTask p t)) = .ok m)

/-- A task whose slice is used up does not block, and a task that comes into
the class brings neither a latch nor a run time with it. -/
def slicesKept (s : Sys) (a : Act) : Prop :=
  flagsKept s a ∧
  (∀ x ∈ leaves s a, (s.task (s.rq x.1).curr).schedClass = .hvf →
    (s.task (s.rq x.1).curr).hvf.sliceExpired = true →
      x.2.running (s.task (s.rq x.1).curr).isRunning = true) ∧
  ∀ x ∈ classTarget s a, x.2 = .hvf → (s.task x.1).schedClass ≠ .hvf →
    (s.isCurrent x.1 = true → (s.task x.1).hvf.runtime = 0) ∧
    (((s.task x.1).isQueued && a.initialises) = true ∨ (s.task x.1).hvf.sliceExpired = false)

instance (s : Sys) (a : Act) : Decidable (slicesKept s a) :=
  inferInstanceAs (Decidable (_ ∧ _ ∧ _))

/-! ## The latch and the note -/

structure SliceKept (s : Sys) (p : TaskId) (x : SliceNote) : Prop where
  running : runsHvf s p = true →
    (s.task p).record.runtime.toInt ≤ x.ran ∧ ((s.task p).record.expired = true → x.reached = true)
  waiting : (s.task p).schedClass = .hvf → runsHvf s p = false →
    (s.task p).record.expired = false

section Note

variable {x : SliceNote}

theorem nextNote_starts (h : runsHvf s p = false) (h' : runsHvf s' p = true) :
    nextNote E s a s' p x = ⟨0, false⟩ :=
  if_pos ⟨h, h'⟩

/-- Whatever else happens, the note only grows. -/
theorem nextNote_grows (htick : 0 ≤ E.tickNsec.toInt)
    (h : ¬ (runsHvf s p = false ∧ runsHvf s' p = true)) :
    x.ran ≤ (nextNote E s a s' p x).ran ∧
      (x.reached = true → (nextNote E s a s' p x).reached = true) := by
  unfold nextNote
  rw [if_neg h]
  split
  next c =>
    split
    next =>
      dsimp only
      refine ⟨by omega, ?_⟩
      intro hr
      rw [hr]
      rfl
    next => exact ⟨Int.le_refl _, id⟩
  next => exact ⟨Int.le_refl _, id⟩

/-- A step within the same dispatch that adds nothing to the run time and does
not set the latch. -/
theorem SliceKept.grow (htick : 0 ≤ E.tickNsec.toInt) (h : SliceKept s p x)
    (hcls : (s'.task p).schedClass = .hvf → (s.task p).schedClass = .hvf)
    (hruns : runsHvf s' p = runsHvf s p)
    (htime : (s'.task p).record.runtime = (s.task p).record.runtime)
    (hlatch : (s'.task p).record.expired = true → (s.task p).record.expired = true) :
    SliceKept s' p (nextNote E s a s' p x) := by
  have hgoesOn : ¬ (runsHvf s p = false ∧ runsHvf s' p = true) := by
    rw [hruns]
    rintro ⟨hf, ht⟩
    rw [hf] at ht
    cases ht
  obtain ⟨hran, hreached⟩ : x.ran ≤ (nextNote E s a s' p x).ran ∧
      (x.reached = true → (nextNote E s a s' p x).reached = true) := nextNote_grows htick hgoesOn
  constructor
  · intro hr
    rw [hruns] at hr
    obtain ⟨h₁, h₂⟩ := h.running hr
    rw [htime]
    exact ⟨by omega, fun he => hreached (h₂ (hlatch he))⟩
  · intro hc hr
    rw [hruns] at hr
    have hoff := h.waiting (hcls hc) hr
    rw [Bool.eq_false_iff]
    intro he
    rw [hlatch he] at hoff
    cases hoff

end Note

/-! ## The tick -/

/-- A slice is between 10 and 1000 milliseconds. -/
theorem timeSlice_bounds (v : Long) : 10 ≤ (timeSlice v).toInt ∧ (timeSlice v).toInt ≤ 1000 := by
  -- the value is clamped to `[1, 1000]` first
  obtain ⟨w, hlo, hhi, hw⟩ : ∃ w : Long, 1 ≤ w.toInt ∧ w.toInt ≤ 1000 ∧
      timeSlice v = w * 990 / K + 10 := by
    unfold timeSlice
    dsimp only
    by_cases h₁ : v < 1
    · rw [if_pos h₁, if_neg (by decide)]
      exact ⟨1, by decide, by decide, rfl⟩
    · rw [if_neg h₁]
      by_cases h₂ : v > K
      · rw [if_pos h₂]
        exact ⟨K, by decide, by decide, rfl⟩
      · rw [if_neg h₂]
        have h₁ : ¬ v.toInt < 1 := fun h => h₁ (Int64.lt_iff_toInt_lt.mpr h)
        have h₂ : ¬ 1000 < v.toInt := fun h => h₂ (Int64.lt_iff_toInt_lt.mpr h)
        exact ⟨v, by omega, by omega, rfl⟩
  have h990 : (990 : Long).toInt = 990 := by decide
  have h10 : (10 : Long).toInt = 10 := by decide
  have hmul : (w * 990).toInt = w.toInt * 990 := by
    rw [toInt_mul_of_fits, h990]
    rw [h990]
    exact ⟨by omega, by omega⟩
  have hdiv : (w * 990 / K).toInt = w.toInt * 990 / 1000 := by
    rw [toInt_div_of_nonneg, hmul, K_toInt]
    · omega
    · decide
  rw [hw, toInt_add_of_fits, hdiv, h10]
  · omega
  · rw [hdiv, h10]
    exact ⟨by omega, by omega⟩

/-- The slice in nanoseconds, as the tick compares it. -/
theorem timeSlice_nsec (v : Long) :
    (timeSlice v * K * K).toInt = (timeSlice v).toInt * 1000000 := by
  obtain ⟨hlo, hhi⟩ := timeSlice_bounds v
  have hmul : (timeSlice v * K).toInt = (timeSlice v).toInt * 1000 := by
    rw [toInt_mul_of_fits, K_toInt]
    rw [K_toInt]
    exact ⟨by omega, by omega⟩
  rw [toInt_mul_of_fits, hmul, K_toInt]
  · omega
  · rw [hmul, K_toInt]
    exact ⟨by omega, by omega⟩

/-- Adding a tick can only wrap downwards. -/
theorem toInt_add_le {a b : Long} (hb : 0 ≤ b.toInt) : (a + b).toInt ≤ a.toInt + b.toInt := by
  obtain ⟨hlo, hhi⟩ := fits_toInt a
  by_cases hfits : a.toInt + b.toInt < 9223372036854775808
  · rw [toInt_add_of_fits ⟨by omega, hfits⟩]
  · rw [Int64.toInt_add]
    exact bmod_le_self (by omega)

theorem SliceKept.tick {x : SliceNote} (htick : 0 ≤ E.tickNsec.toInt) (h : SliceKept s p x)
    (hruns : runsHvf s p = true) (hruns' : runsHvf s' p = true) (hp : (s.rq c).curr = p)
    (hcls : (s.task p).schedClass = .hvf)
    (hrec : s'.clocked p = (s.clocked p).tick E (s.value p)) :
    SliceKept s' p (nextNote E s (.tick c) s' p x) := by
  obtain ⟨hran, hreached⟩ := h.running hruns
  have hnote : nextNote E s (.tick c) s' p x = ⟨x.ran + E.tickNsec.toInt, x.reached ||
      decide ((timeSlice (s.value p)).toInt * 1000000 ≤ x.ran + E.tickNsec.toInt)⟩ := by
    unfold nextNote
    rw [if_neg (fun hn => by rw [hruns] at hn; cases hn.1)]
    exact if_pos ⟨hp, hcls⟩
  have htime : (s'.task p).record.runtime = (s.task p).record.runtime + E.tickNsec :=
    congrArg (fun y : Clocked => y.record.runtime) hrec
  have hlatch : (s'.task p).record.expired = ((s.task p).record.expired ||
      decide ((s.task p).record.runtime + E.tickNsec ≥ timeSlice (s.value p) * K * K)) :=
    congrArg (fun y : Clocked => y.record.expired) hrec
  have hle := toInt_add_le (a := (s.task p).record.runtime) htick
  constructor
  · intro _
    rw [hnote, htime]
    refine ⟨?_, ?_⟩
    · show _ ≤ x.ran + E.tickNsec.toInt
      omega
    intro he
    rw [hlatch, Bool.or_eq_true, decide_eq_true_eq] at he
    rw [Bool.or_eq_true, decide_eq_true_eq]
    rcases he with he | he
    · exact Or.inl (hreached he)
    · have he := Int64.le_iff_toInt_le.mp he
      rw [timeSlice_nsec] at he
      exact Or.inr (by omega)
  · intro _ hout
    rw [hruns'] at hout
    cases hout

/-! ## Steps and runs -/

/-- The latch and the run time of the class hooks. -/
theorem Clocked.defaults_slice (E : Env) (x : Clocked) :
    (x.defaults E).record.runtime = x.record.runtime ∧
      (x.defaults E).record.expired = x.record.expired := by
  have hruntime := congrArg Record.runtime (x.timing_defaults E)
  have hexpired := congrArg Record.expired (x.timing_defaults E)
  exact ⟨hruntime, hexpired⟩

theorem Clocked.enter_slice (E : Env) (x : Clocked) :
    (x.enter E).record.runtime = x.record.runtime ∧ (x.enter E).record.expired = false :=
  ⟨(Clocked.defaults_slice E x).1, rfl⟩

theorem Clocked.putIf_slice (E : Env) (current running : Bool) (x : Clocked) :
    (x.putIf E current running).record.runtime = x.record.runtime ∧
      ((x.putIf E current running).record.expired = true → x.record.expired = true) := by
  unfold Clocked.putIf
  split
  next =>
    refine ⟨rfl, ?_⟩
    show (if running then false else x.record.expired) = true → _
    split
    next => exact fun h => by cases h
    next => exact id
  next => exact ⟨rfl, id⟩

/-- A task outside the class has nothing to keep. -/
theorem SliceKept.of_not_hvf {x : SliceNote} (h : (s.task p).schedClass ≠ .hvf) :
    SliceKept s p x where
  running hr := absurd (runsHvf_iff.mp hr).1 h
  waiting hc := absurd hc h

namespace SliceKept

variable {x : SliceNote}

/-- A task whose latch is set does not block, so the put releases it. -/
theorem put {how : Links.Leave} (hok : slicesKept s a) (hleave : leaves s a = some (c, how))
    (hp : (s.rq c).curr = p) (hcls : (s.task p).schedClass = .hvf) (hout : runsHvf s' p = false)
    (hlatch : (s'.task p).record.expired =
      if how.running (s.task p).isRunning then false else (s.task p).record.expired) :
    SliceKept s' p (nextNote E s a s' p x) := by
  constructor
  · intro hr
    cases hout.symm.trans hr
  · intro _ _
    have hrun := hok.2.1 _ hleave
    dsimp only at hrun
    rw [hp] at hrun
    rw [hlatch]
    split
    next => rfl
    next hblocks => exact Bool.eq_false_iff.mpr fun he => hblocks (hrun hcls he)

/-- A task that takes the CPU has no latch set. -/
theorem dispatch (h : SliceKept s p x) (hcls : (s.task p).schedClass = .hvf)
    (hout : runsHvf s p = false) (hin : runsHvf s' p = true)
    (htime : (s'.task p).record.runtime = 0)
    (hlatch : (s'.task p).record.expired = (s.task p).record.expired) :
    SliceKept s' p (nextNote E s a s' p x) := by
  rw [nextNote_starts hout hin]
  constructor
  · intro _
    rw [htime, hlatch, h.waiting hcls hout]
    exact ⟨Int.le_refl _, fun he => nomatch he⟩
  · intro _ hr
    cases hr.symm.trans hin

/-- A class change within the class. -/
theorem stay {init : Bool} (htick : 0 ≤ E.tickNsec.toInt) (h : SliceKept s p x)
    (hcls : (s.task p).schedClass = .hvf) (hruns : runsHvf s' p = runsHvf s p)
    (hrec : (s'.task p).record =
      (if init then ((s.clocked p).putIf E (s.isCurrent p) (s.task p).isRunning).enter E
        else (s.clocked p).putIf E (s.isCurrent p) (s.task p).isRunning).record) :
    SliceKept s' p (nextNote E s a s' p x) := by
  obtain ⟨htime, hlatch⟩ := Clocked.putIf_slice E (s.isCurrent p) (s.task p).isRunning (s.clocked p)
  refine h.grow htick (fun _ => hcls) hruns ?_ ?_
  · rw [hrec]
    split
    next => exact (Clocked.enter_slice E _).1.trans htime
    next => exact htime
  · rw [hrec]
    split
    next =>
      rw [(Clocked.enter_slice E _).2]
      exact fun he => nomatch he
    next => exact hlatch

/-- A task that comes into the class brings no latch, and no run time if it is
running. -/
theorem join {init : Bool} (hcls : (s.task p).schedClass ≠ .hvf)
    (hcurr : runsHvf s' p = true → s.isCurrent p = true)
    (hzero : s.isCurrent p = true → (s.task p).hvf.runtime = 0)
    (hfresh : init = true ∨ (s.task p).hvf.sliceExpired = false)
    (hrec : (s'.task p).record =
      (if init then (s.clocked p).enter E else (s.clocked p).defaults E).record) :
    SliceKept s' p (nextNote E s a s' p x) := by
  have hoff : (s'.task p).record.expired = false := by
    rw [hrec]
    split
    next => exact (Clocked.enter_slice E _).2
    next hinit => exact (Clocked.defaults_slice E _).2.trans (hfresh.resolve_left hinit)
  have htime : (s'.task p).record.runtime = (s.task p).hvf.runtime := by
    rw [hrec]
    split
    next => exact (Clocked.enter_slice E _).1
    next => exact (Clocked.defaults_slice E _).1
  constructor
  · intro hr
    rw [nextNote_starts (runsHvf_of_ne hcls) hr, hoff, htime, hzero (hcurr hr)]
    exact ⟨Int.le_refl _, fun he => nomatch he⟩
  · exact fun _ _ => hoff

end SliceKept

/-- The step lemma. -/
theorem step_sliceKept {x : SliceNote} (htick : 0 ≤ E.tickNsec.toInt) (hb : Base s)
    (hok : slicesKept s a) (hstep : step E s a = some s') (h : SliceKept s p x) :
    SliceKept s' p (nextNote E s a s' p x) := by
  have hb' := step_base hb hok.1 hstep
  cases step_task hstep p with
  | same hidle hrec hreads hcls hcpus =>
    refine h.grow htick (fun hc => hcls.symm.trans hc) (runsHvf_same hb.sound hb'.sound hcls hcpus) ?_ ?_
    · rw [hrec]
    · rw [hrec]
      exact id
  | other hidle hrec hreads hcls hcls' => exact .of_not_hvf hcls'
  | tick c ha hp hcls hrec hstill =>
    subst ha
    have hruns := (runsHvf_iff_curr hb.sound hcls).mpr ⟨c, hp⟩
    have hsame := runsHvf_same hb.sound hb'.sound (hstill.schedClass p) (hstill.sameCpus p)
    exact h.tick htick hruns (hsame.trans hruns) hp hcls hrec
  | params c d1 d2 ct ha hp hacc hrec hreads hstill =>
    refine h.grow htick (fun hc => (hstill.schedClass p).symm.trans hc)
      (runsHvf_same hb.sound hb'.sound (hstill.schedClass p) (hstill.sameCpus p)) ?_ ?_
    · rw [hrec]
    · rw [hrec]
      exact id
  | put c how hleave hp hcls hrec hreads hcls' hcpus =>
    obtain ⟨-, hout⟩ := runsHvf_put hb.sound hb'.sound hp hcls hcls' hcpus
    have hlatch := congrArg Record.expired hrec
    exact .put hok hleave hp hcls hout hlatch
  | dispatch c how n hleave hne hcls hrec hreads hcls' hcpus =>
    obtain ⟨hout, hin⟩ := runsHvf_dispatch hb.sound hb'.sound hne hcls hcls' hcpus
    have htime := congrArg (fun y : Clocked => y.record.runtime) hrec
    have hlatch := congrArg (fun y : Clocked => y.record.expired) hrec
    exact h.dispatch hcls hout hin htime hlatch
  | enter dest hact hnew hcls hrec hstill =>
    have hrec : (s'.task p).record = _ := congrArg Clocked.record hrec
    obtain ⟨htime, hlatch⟩ := Clocked.enter_slice E (s.clocked p)
    refine h.grow htick (fun hc => (hstill.schedClass p).symm.trans hc)
      (runsHvf_same hb.sound hb'.sound (hstill.schedClass p) (hstill.sameCpus p)) ?_ ?_
    · rw [hrec, htime]
      rfl
    · rw [hrec, hlatch]
      exact fun he => nomatch he
  | stay htarget hcls hrec hcls' hcpus =>
    exact h.stay htick hcls (runsHvf_same hb.sound hb'.sound (hcls'.trans hcls.symm) hcpus)
      (congrArg Clocked.record hrec)
  | leave cls htarget hne hcls hrec hcls' =>
    refine .of_not_hvf ?_
    rw [hcls']
    exact hne
  | join htarget hcls hrec hcls' hcpus =>
    obtain ⟨hzero, hfresh⟩ := hok.2.2 _ htarget rfl hcls
    refine .join hcls ?_ hzero hfresh (congrArg Clocked.record hrec)
    intro hr
    rw [← isCurrent_same hb.sound hb'.sound (ne_idle_of_hvf hb'.sound hcls') hcpus]
    exact (runsHvf_iff.mp hr).2
  | born c t hp hfork ht htask hs =>
    refine .of_not_hvf ?_
    rw [htask]
    exact (schedFork_forked c ht).schedClass

/-- The run lemma. -/
theorem slicing_kept (htick : 0 ≤ E.tickNsec.toInt) {x : Sys × SliceNotes}
    (h : Slicing E slicesKept x) : Base x.1 ∧ ∀ p, SliceKept x.1 p (x.2 p) := by
  refine Reach.invariant (fun x : Sys × SliceNotes => Base x.1 ∧ ∀ p, SliceKept x.1 p (x.2 p))
    ?_ ?_ h
  · rintro ⟨s, N⟩ ⟨rfl, rfl⟩
    refine ⟨boot_base, ?_⟩
    intro p
    exact .of_not_hvf (boot_not_hvf p)
  · rintro ⟨s, N⟩ a ⟨s', N'⟩ ⟨hb, hk⟩ hok hstep
    obtain ⟨hs, hN⟩ := observed_eq_some hstep
    dsimp only at hs hN hb hk
    subst hN
    exact ⟨step_base hb hok.1 hs, fun p => step_sliceKept htick hb hok hs (hk p)⟩

/-- Only a task that runs in the class is put, and up to there nothing happens to
its latch. -/
theorem PutsHvf.runs {m : Sys} (hb : Base s) (h : PutsHvf E s a c p m) :
    runsHvf s p = true ∧ (m.task p).hvf.sliceExpired = (s.task p).hvf.sliceExpired := by
  have hlatch : SameAccounts s m →
      (m.task p).hvf.sliceExpired = (s.task p).hvf.sliceExpired :=
    fun hsame => congrArg Account.expired (hsame.account p)
  cases h with
  | schedule mode sig picks next ha hp hcls hprev hpick hne =>
    exact ⟨(runsHvf_iff_curr hb.sound hcls).mpr ⟨c, hp⟩, hlatch (.of_data (.leavePrev hprev))⟩
  | exit picks next ha hp hcls hprev hpick hne =>
    have hdead : SameAccounts s (setTaskState p taskDead s) := .setTask s (by rfl)
    exact ⟨(runsHvf_iff_curr hb.sound hcls).mpr ⟨c, hp⟩,
      hlatch (hdead.trans (.of_data (.leavePrev hprev)))⟩
  | change cls t htarget hcurr hcls hc ht hoff =>
    refine ⟨runsHvf_iff.mpr ⟨hcls, hcurr⟩, hlatch ?_⟩
    have hset : SameAccounts s (s.setTask p t) := .setTask s (account_of_body ht.1)
    split at hoff
    next =>
      obtain ⟨r, hr, hm⟩ := map_ok.mp hoff
      rw [← hm]
      exact hset.trans (.of_data (.dequeueTask hr))
    next =>
      injection hoff with hoff
      rw [← hoff]
      exact hset

/-- In every run in which no task blocks with its latch set and none brings a
latch or a run time into the class, `reduce_sched_value` is called only if the
dispatch that is ending has reached the slice at some tick. Before that a step
leaves a value it did not compute with it. -/
theorem reduced_only_after_used_slice (E : Env) (htick : 0 ≤ E.tickNsec) (s s' : Sys)
    (N : SliceNotes) (a : Act) (p : TaskId) (h : Slicing E slicesKept (s, N))
    (hstep : step E s a = some s') (hlive : s.isLive p = true)
    (hcls : (s.task p).schedClass = .hvf) :
    (∀ c m, PutsHvf E s a c p m → CallsReduce E c p m → (N p).reached = true) ∧
    ((N p).reached = false → s'.value p = s.value p ∨
      ∃ t, Calls E { s.budget E a p with reduces := [] } s.reads (s.task p) t ∧
        s'.value p = t.hvf.currSchedValue) := by
  have htick : 0 ≤ E.tickNsec.toInt := Int64.le_iff_toInt_le.mp htick
  obtain ⟨hb, hkept⟩ := slicing_kept htick h
  refine ⟨?_, ?_⟩
  · intro c m hput hcall
    obtain ⟨hruns, hlatch⟩ := hput.runs hb
    obtain ⟨-, hreached⟩ := (hkept p).running hruns
    exact hreached (hlatch.symm.trans (callsReduce_iff.mp hcall).2)
  · intro hshort
    have hoff : (s.task p).hvf.sliceExpired = false := by
      cases hruns : runsHvf s p with
      | true =>
        obtain ⟨-, hreached⟩ := (hkept p).running hruns
        refine Bool.eq_false_iff.mpr fun he => ?_
        cases hshort.symm.trans (hreached he)
      | false => exact (hkept p).waiting hcls hruns
    have hbudget : { s.budget E a p with reduces := [] } = s.budget E a p := by
      have hnil : (s.budget E a p).reduces = [] :=
        if_neg fun hd => Bool.false_ne_true (hoff.symm.trans hd.2)
      rw [← hnil]
    rw [hbudget]
    rcases step_calls hstep p with (hv | ⟨-, hcalls⟩) | ⟨hnew, -⟩
    · exact Or.inl hv
    · exact Or.inr hcalls
    · exact absurd hnew (ne_next_of_live hlive)

/-- The task of `useUpSlice` is displaced by the other one and reduced, and it
has reached its slice. -/
theorem reduced_after_used_slice :
    0 ≤ sampleEnv.tickNsec ∧ ∃ s s' N, Slicing sampleEnv slicesKept (s, N) ∧
      step sampleEnv s (.schedule 0 .smPreempt ⟨false, false⟩ pickNone) = some s' ∧
      PutsHvf sampleEnv s (.schedule 0 .smPreempt ⟨false, false⟩ pickNone) 0 (.task 1) s ∧
      CallsReduce sampleEnv 0 (.task 1) s ∧ (N (.task 1)).reached = true := by
  have htick : 0 ≤ sampleEnv.tickNsec := by decide
  obtain ⟨⟨s, N⟩, hs, hf⟩ := Slicing.of_check
    (b := (true, true, some (TaskId.task 2), some ())) sampleEnv slicesKept
    (fun x => (decide ((x.1.rq 0).curr = .task 1 ∧ (x.1.task (.task 1)).schedClass = .hvf),
      decide ((x.1.task (.task 1)).isRunning = true ∧
        (x.1.task (.task 1)).hvf.sliceExpired = true ∧ x.1.isLive (.task 1) = true),
      (pickNext x.1 0 (.task 1) pickNone).toOption.map id,
      (step sampleEnv x.1 (.schedule 0 .smPreempt ⟨false, false⟩ pickNone)).map fun _ => ()))
    useUpSlice (by decide +kernel)
  simp only [Prod.mk.injEq, decide_eq_true_eq] at hf
  obtain ⟨⟨hcurr, hcls⟩, ⟨hrun, hexp, hlive⟩, hpick, hstep⟩ := hf
  obtain ⟨_, hpick, rfl⟩ := toOption_map_eq_some hpick
  obtain ⟨s', hstep, -⟩ := Option.map_eq_some_iff.mp hstep
  have hput : PutsHvf sampleEnv s (.schedule 0 .smPreempt ⟨false, false⟩ pickNone) 0 (.task 1) s :=
    .schedule .smPreempt ⟨false, false⟩ pickNone (.task 2) rfl hcurr hcls rfl
      hpick (by decide)
  have hcall : CallsReduce sampleEnv 0 (.task 1) s := callsReduce_iff.mpr ⟨hrun, hexp⟩
  exact ⟨htick, s, s', N, hs, hstep, hput, hcall,
    (reduced_only_after_used_slice sampleEnv htick s s' N _ (.task 1) hs hstep hlive hcls).1 0 s
      hput hcall⟩

/-- A task uses up its slice and sleeps. It wakes up, takes the CPU and is
displaced at once by a task of the fair class before a single tick: its value
is reduced from 100 to 98, for a dispatch without a tick. -/
theorem reduced_after_sleep :
    ∃ s s' N, Slicing sampleEnv (fun _ _ => True) (s, N) ∧
      step sampleEnv s (.schedule 0 .smPreempt ⟨false, false⟩ (pickFair (.task 0))) = some s' ∧
      (PutsHvf sampleEnv s (.schedule 0 .smPreempt ⟨false, false⟩ (pickFair (.task 0))) 0 (.task 1)
        s ∧ CallsReduce sampleEnv 0 (.task 1) s) ∧
      (s.value (.task 1) = 100 ∧ s'.value (.task 1) = 98) ∧
      N (.task 1) = ⟨0, false⟩ ∧ (s.task (.task 1)).hvf.runtime = 0 := by
  obtain ⟨⟨s, N⟩, hs, hf⟩ := Slicing.of_check
    (b := (true, true, some (TaskId.task 0), some (98 : Long)))
    sampleEnv (fun _ _ => True)
    (fun x => (decide ((x.1.rq 0).curr = .task 1 ∧ (x.1.task (.task 1)).schedClass = .hvf ∧
        (x.1.task (.task 1)).isRunning = true ∧ (x.1.task (.task 1)).hvf.sliceExpired = true),
      decide (x.1.value (.task 1) = 100 ∧ x.2 (.task 1) = ⟨0, false⟩ ∧
        (x.1.task (.task 1)).hvf.runtime = 0),
      (pickNext x.1 0 (.task 1) (pickFair (.task 0))).toOption.map id,
      (step sampleEnv x.1 (.schedule 0 .smPreempt ⟨false, false⟩ (pickFair (.task 0)))).map
        fun s' => s'.value (.task 1)))
    (dispatchSecond ++ [.tick 0] ++ sleepOn 0 ++ [.wake 0 (.task 1) taskNormal 0,
      .schedule 0 .smNone ⟨false, false⟩ pickNone, .wake 0 (.task 0) taskNormal 0])
    (by decide +kernel)
  simp only [Prod.mk.injEq, decide_eq_true_eq] at hf
  obtain ⟨⟨hcurr, hcls, hrun, hexp⟩, ⟨hv, hnote, htime⟩, hpick, hstep⟩ := hf
  obtain ⟨_, hpick, rfl⟩ := toOption_map_eq_some hpick
  obtain ⟨s', hstep, hv'⟩ := Option.map_eq_some_iff.mp hstep
  have hput : PutsHvf sampleEnv s (.schedule 0 .smPreempt ⟨false, false⟩ (pickFair (.task 0))) 0
      (.task 1) s :=
    .schedule .smPreempt ⟨false, false⟩ (pickFair (.task 0)) (.task 0) rfl hcurr hcls rfl
      hpick (by decide)
  exact ⟨s, s', N, hs, hstep, ⟨hput, callsReduce_iff.mpr ⟨hrun, hexp⟩⟩, ⟨hv, hv'⟩, hnote, htime⟩

end HvfSched
