import HvfSched.Runs.Response

/-!
# The state in which a task enters the class

An entity is initialised by an enqueue that carries `ENQUEUE_CHANGED` or
`ENQUEUE_INITIAL`, and not by the class change. `__sched_setscheduler` enqueues
a queued task with the first, and `wake_up_new_task` a new child with the
second. A task that is asleep is moved into the class without an enqueue, and
the wakeup that links it later carries `ENQUEUE_WAKEUP`, which computes the
value and initialises nothing. Such a task starts with the time stamps, the
used time and the latch of an earlier stay in the class, of its parent, or of
nobody (`asleep_entry_not_initialised`).

An observer follows the task from the class change to the first state in which
it is linked, and notes whether an enqueue has initialised the entity and what
has become of it since: how often and for how long it was charged, how often it
took the CPU, whether a tick set the latch. Mostly it is the initialising
enqueue that links the task, and nothing comes in between. But an enqueue links
nobody the class takes for the running task, so that there can be an interval.

* If the note says that the entity is as it was initialised, then it is
  (first half of `entry_state_iff_fresh`).
* The other way round the clock has to tell the readings apart: an entity that
  was not initialised could have a first time of the right millisecond by
  chance, and a charge could be of no length (`ToldApart`).
-/

namespace HvfSched

open Lib Sys

variable {E : Env} {s s' s₀ s₁ : Sys} {a : Act} {c : Cpu} {p : TaskId} {t t' : TaskStruct}

/-! ## What is asked of a fresh entity -/

/-- `init_sched_value` is the formula on the fields of the task. -/
def InitValueFits (t : TaskStruct) : Prop :=
  computeInitValue wrapv t.hvf.firstTime t.computationTime t.deadline1 t.deadline2
    = .ok t.hvf.initSchedValue

/-- The stamps of the clock never go back. -/
def StampsRise (E : Env) : Prop := ∀ i j, i ≤ j → stampMs (E.clock i) ≤ stampMs (E.clock j)

/-- The entity of `p` in `s'`, when `p` was brought into the class in `s`. -/
structure EntryState (E : Env) (s s' : Sys) (p : TaskId) : Prop where
  /-- The first time was read during the class change or since. -/
  stamped : ∃ j, s.reads ≤ j ∧ j < s'.reads ∧ (s'.task p).hvf.firstTime = stampMs (E.clock j)
  between : StampsRise E → stampMs (E.clock s.reads) ≤ (s'.task p).hvf.firstTime ∧
    (s'.task p).hvf.firstTime ≤ stampMs (E.clock s'.reads)
  used : (s'.task p).hvf.timeUsed = 0
  answers : (s'.task p).hvf.cpuAnswers = 0
  expired : (s'.task p).hvf.sliceExpired = false
  initValue : InitValueFits (s'.task p)

/-- Linked in some tree. -/
def Sys.isLinked (s : Sys) (p : TaskId) : Prop := ∃ c, p ∈ s.queue c

/-! ## The observer -/

/-- `put_prev_task_hvf` is called for `p`: it is switched out, or a change of
its attributes puts it. -/
def chargesTask (s : Sys) (a : Act) (s' : Sys) (p : TaskId) : Bool :=
  (s.task p).schedClass == .hvf &&
    ((leaves s a).any (fun x => (s.rq x.1).curr == p && (s'.rq x.1).curr != p)
      || ((classTarget s a).any (fun x => x.1 == p) && s.isCurrent p))

/-- The latch of `p` is set in this step. -/
def latchesTask (s s' : Sys) (p : TaskId) : Bool :=
  !(s.task p).hvf.sliceExpired && (s'.task p).hvf.sliceExpired

/-- What has happened to an entity since the class change, or since it was
initialised if that was later. -/
structure EntryNote where
  init : Bool
  puts : Nat
  /-- Milliseconds charged by the puts. -/
  ran : Int
  answers : Nat
  late : Bool
  deriving DecidableEq

def EntryNote.blank : EntryNote := ⟨false, 0, 0, 0, false⟩

/-- The entity was initialised, and nothing has happened to it since. -/
def EntryNote.isFresh (x : EntryNote) : Bool := x.init && x.puts == 0 && x.answers == 0 && !x.late

def nextEntryNote (E : Env) (p : TaskId) (s : Sys) (a : Act) (s' : Sys) (x : EntryNote) :
    EntryNote :=
  if initialisesTask s a p then { EntryNote.blank with init := true }
  else
    { init := x.init
      puts := if chargesTask s a s' p then x.puts + 1 else x.puts
      ran :=
        if chargesTask s a s' p then
          x.ran + (stampAt E s.reads - (s.task p).hvf.latestTime.toInt)
        else x.ran
      answers := if answersTask s a s' p then x.answers + 1 else x.answers
      late := x.late || latchesTask s s' p }

/-- The runs that go on from the step `a` to `s₁`, up to the first state in
which `p` is linked, with the notes taken since `s`. -/
def UntilLinked (E : Env) (p : TaskId) (s : Sys) (a : Act) (s₁ : Sys) : Sys × EntryNote → Prop :=
  Observed (fun s' => s' = s₁) (step E) (fun s' _ => ¬ s'.isLinked p) (nextEntryNote E p)
    (nextEntryNote E p s a s₁ .blank)

/-- What it takes to see from the fields that an entity is not fresh: no reading
since the class change gives a stamp that was there before, the charges are of
some length, and neither they nor the answers come round to zero. -/
structure ToldApart (E : Env) (s : Sys) (y : Sys × EntryNote) : Prop where
  clock : ∀ j < y.1.reads, s.reads ≤ j → stampMs (E.clock j) ≠ 0 ∧
    ∀ i < s.reads, stampMs (E.clock i) ≠ stampMs (E.clock j)
  charged : y.2.puts ≠ 0 → 0 < y.2.ran ∧ y.2.ran < 18446744073709551616
  answered : y.2.answers < 4294967296

/-! ## When a task is charged -/

theorem charges_of_put {how : Links.Leave} (hleave : leaves s a = some (c, how))
    (hp : (s.rq c).curr = p) (hcls : (s.task p).schedClass = .hvf) (hne : (s'.rq c).curr ≠ p) :
    chargesTask s a s' p = true := by
  unfold chargesTask
  rw [hleave, hcls]
  simp [hp, hne]

theorem charges_of_target {cls : SchedClass} (htarget : classTarget s a = some (p, cls))
    (hcls : (s.task p).schedClass = .hvf) : chargesTask s a s' p = s.isCurrent p := by
  have hstays : leaves s a = none := by
    cases a with
    | schedule => cases htarget
    | doTaskDead => cases htarget
    | _ => rfl
  unfold chargesTask
  rw [htarget, hcls, hstays]
  simp

theorem not_charges_of_ne (h : (s.task p).schedClass ≠ .hvf) : chargesTask s a s' p = false := by
  unfold chargesTask
  rw [beq_false_of_ne h]
  rfl

theorem not_charges_of_same (hidle : ¬ reachesClass s a p) (hcpus : SameCpus s s' p) :
    chargesTask s a s' p = false := by
  rw [Bool.eq_false_iff]
  intro hput
  unfold chargesTask at hput
  simp only [Bool.and_eq_true, Bool.or_eq_true, Option.any_eq_true, beq_iff_eq, bne_iff_ne] at hput
  obtain ⟨hcls, ⟨x, -, hp, hne⟩ | ⟨⟨x, hx, rfl⟩, -⟩⟩ := hput
  · exact hne ((hcpus x.1).mpr hp)
  · exact hidle (Or.inl ⟨x.2, hx, Or.inl hcls⟩)

theorem not_charges_of_dispatch {how : Links.Leave} (hleave : leaves s a = some (c, how))
    (hne : (s.rq c).curr ≠ p) : chargesTask s a s' p = false := by
  unfold chargesTask
  rw [hleave, (classTarget_of_leaves hleave).1]
  simp [hne]

/-! ## Who is linked by a step -/

/-- Only tasks with the property `P` can be linked in `s'` that were not linked
in `s`. -/
def Gains (P : TaskId → Prop) (s s' : Sys) : Prop := ∀ q, s'.isLinked q → s.isLinked q ∨ P q

namespace Gains

variable {P : TaskId → Prop}

theorem trans (h : Gains P s s₁) (h' : Gains P s₁ s') : Gains P s s' := by
  intro q hq
  rcases h' q hq with hq | hq
  · exact h q hq
  · exact Or.inr hq

theorem of_queue (h : ∀ d, s'.queue d = s.queue d) : Gains P s s' := by
  rintro q ⟨d, hd⟩
  rw [h d] at hd
  exact Or.inl ⟨d, hd⟩

theorem of_rq (h : s'.rq = s.rq) : Gains P s s' :=
  of_queue fun d => queue_eq_of_rq (congrFun h d)

theorem setRq {r : Rq} (hr : r.hvf.hvfTaskQueue = (s.rq c).hvf.hvfTaskQueue) :
    Gains P s (s.setRq c r) := by
  refine of_queue fun d => ?_
  unfold queue
  rw [setRq_rq]
  split
  next hd => rw [hd, hr]
  next => rfl

theorem dequeueHvfEntity (h : dequeueHvfEntity E c p s = .ok s') : Gains P s s' := by
  have hu := dequeueHvfEntity_unlinked h
  rintro q ⟨d, hd⟩
  refine Or.inl ⟨d, ?_⟩
  by_cases hdc : d = c
  · subst hdc
    rw [hu.queue] at hd
    exact List.mem_of_mem_erase hd
  · rw [queue_eq_of_rq (hu.rq_ne d hdc)] at hd
    exact hd

theorem dequeueIfOnRq (h : dequeueIfOnRq E c p s = .ok s') : Gains P s s' := by
  rcases dequeueIfOnRq_cases h with ⟨-, h⟩ | ⟨-, hs⟩
  · exact dequeueHvfEntity h
  · exact of_rq (by rw [hs])

theorem dequeueTask {r : Bool × Sys} (h : dequeueTask E c p s = .ok r) : Gains P s r.2 := by
  rcases dequeueTask_cases h with ⟨-, hd⟩ | ⟨-, hr⟩
  · rcases dequeueTaskHvf_cases hd with ⟨-, s₁, h₁, hr⟩ | ⟨-, s₁, h₁, hr⟩ | ⟨-, -, hr⟩
    · rw [hr]
      exact (dequeueHvfEntity h₁).trans (.setRq rfl)
    · rw [hr]
      have hcount : Gains P s₁ (s₁.addNrRunning c (-1)) := .setRq rfl
      exact ((dequeueIfOnRq h₁).trans hcount).trans (.setRq rfl)
    · exact of_rq (by rw [hr])
  · rw [hr]
    exact .setRq rfl

theorem leavePrev {mode : SchedMode} {sig : Signals} (h : leavePrev E c mode sig s = .ok s') :
    Gains P s s' := by
  rcases leavePrev_cases h with ⟨-, ⟨-, hs⟩ | ⟨-, hb⟩⟩ | ⟨-, hs⟩
  · exact of_rq (by rw [hs]; rfl)
  · obtain ⟨b, s₁, h₁, hs⟩ := blockTask_cases hb
    refine (dequeueTask h₁).trans (of_rq ?_)
    rw [hs]
    split
    next => rfl
    next => rfl
  · exact of_rq (by rw [hs])

theorem setNextTask (h : setNextTask E c p true s = .ok s') : Gains P s s' := by
  rcases setNextTask_cases h with ⟨-, s₁, h₁, hs⟩ | ⟨-, hs⟩
  · rw [hs]
    have hstamp : Gains P s₁ (s₁.tickClock.setEntity p
        (updateLatestSeHvf (s₁.now E) (s₁.task p).hvf)) := of_rq rfl
    exact ((dequeueIfOnRq h₁).trans hstamp).trans (.setRq rfl)
  · exact of_rq (by rw [hs])

theorem finishTaskSwitch (h : finishTaskSwitch E c p s = .ok s') : Gains P s s' := by
  have hdead : Gains P s (s.setRq c { s.rq c with deadPrev := none }) := .setRq rfl
  rcases finishTaskSwitch_cases h with ⟨-, s₁, h₁, hs⟩ | ⟨-, hs⟩
  · rw [hs]
    have hread : Gains P (s.setRq c { s.rq c with deadPrev := none })
        (s.setRq c { s.rq c with deadPrev := none }).tickClock := of_rq rfl
    exact ((hdead.trans hread).trans (dequeueIfOnRq h₁)).trans (.setRq rfl)
  · rw [hs]
    exact hdead

theorem enqueueHvfEntity (hp : P p) : Gains P s (enqueueHvfEntity E c p s) := by
  rintro q ⟨d, hd⟩
  by_cases hdc : d = c
  · subst hdc
    rcases List.mem_cons.mp ((enqueueHvfEntity_perm E d p s).mem_iff.mp hd) with hq | hq
    · rw [hq]
      exact Or.inr hp
    · exact Or.inl ⟨d, hq⟩
  · rw [queue_eq_of_rq (enqueueHvfEntity_rq_ne E p s hdc)] at hd
    exact Or.inl ⟨d, hd⟩

theorem enqueueTask {flags : Mask} (hp : (s.task p).schedClass = .hvf → P p)
    (h : enqueueTask E c p flags s = .ok s') : Gains P s s' := by
  rcases enqueueTask_cases h with ⟨hcls, he⟩ | ⟨-, hs⟩
  · obtain ⟨s₁, h₁, h₂⟩ := enqueueTaskHvf_cases he
    refine (of_rq (refreshValue_rq h₁)).trans ?_
    rcases h₂ with ⟨-, hs⟩ | ⟨-, hs⟩
    · rw [hs]
      exact (enqueueHvfEntity (hp hcls)).trans (.setRq rfl)
    · exact of_rq (by rw [hs])
  · rw [hs]
    exact .setRq rfl

theorem putPrevTask (E : Env) (c : Cpu) (hp : (s.task p).schedClass = .hvf → P p) :
    Gains P s (putPrevTask E c p s) := by
  unfold HvfSched.putPrevTask
  split
  next hcls =>
    unfold putPrevTaskHvf
    dsimp only
    split
    next =>
      -- the charge and the decay leave the trees alone
      generalize hr : setEntity _ p (reduceIfExpired _) = r
      have hcharged : Gains P s r := of_rq (by rw [← hr]; rfl)
      refine hcharged.trans ?_
      unfold putPrevHvfEntity
      dsimp only
      split
      next => exact .setRq rfl
      next => exact (enqueueHvfEntity (hp hcls)).trans (.setRq rfl)
    next => exact of_rq rfl
  next => exact of_rq rfl

theorem takeOff (hp : s.isCurrent p = true → (s.task p).schedClass = .hvf → P p)
    (h : takeOff E p s = .ok s') : Gains P s s' := by
  obtain ⟨s₁, h₁, hs⟩ := takeOff_cases h
  have hoff : Gains P s s₁ ∧ (s₁.task p).schedClass = (s.task p).schedClass := by
    rcases h₁ with ⟨-, b, hd⟩ | ⟨-, h₁⟩
    · exact ⟨dequeueTask hd, (dequeueTask_bits hd p).1⟩
    · rw [h₁]
      exact ⟨of_rq rfl, rfl⟩
  rw [hs]
  split
  next hcurr => exact hoff.1.trans (putPrevTask E _ fun hcls => hp hcurr (hoff.2.symm.trans hcls))
  next => exact hoff.1

theorem checkClassChanging {cls : SchedClass} (h : checkClassChanging E p cls s = .ok s') :
    Gains P s s' := by
  rcases checkClassChanging_cases h with ⟨-, hg⟩ | ⟨-, hs⟩
  · exact of_rq (giveDefaults_rq hg)
  · exact of_rq (by rw [hs])

theorem putBack {queued running : Bool} {flags : Mask}
    (hp : queued = true → (s.task p).schedClass = .hvf → P p)
    (h : putBack E p queued running flags s = .ok s') : Gains P s s' := by
  rcases putBack_cases h with ⟨hq, he⟩ | ⟨-, hs⟩
  · exact enqueueTask (hp hq) he
  · exact of_rq (by rw [hs])

/-- A class change links the task it is about: in the put, or in the enqueue. -/
theorem classChange {cls : SchedClass} {init : Bool} (h : ClassChange E p cls init s s')
    (hput : s.isCurrent p = true → (s.task p).schedClass = .hvf → P p)
    (henq : (s.task p).isQueued = true → cls = .hvf → P p) : Gains P s s' := by
  obtain ⟨hbody₀, hcls₀, hoff, hbody, hcls, hmid, hback, hend, -, -⟩ := h
  next t₀ t s₁ s₂ s₃ running flags =>
  have hcurr : (s.setTask p t₀).isCurrent p = s.isCurrent p := by
    have hcpu := congrArg TaskStruct.cpu hbody₀
    have hcpu : t₀.cpu = (s.task p).cpu := hcpu
    rw [Sys.isCurrent, setTask_self, hcpu]
    rfl
  have h₀ : Gains P s (s.setTask p t₀) := of_rq rfl
  have h₁ : Gains P (s.setTask p t₀) s₁ := by
    refine takeOff ?_ hoff
    rw [hcurr, setTask_self, hcls₀]
    exact hput
  have hwrite : Gains P s₁ (s₁.setTask p t) := of_rq rfl
  have h₂ := hwrite.trans (checkClassChanging hmid)
  have hcls₂ : (s₂.task p).schedClass = cls := by
    rw [checkClassChanging_schedClass hmid, setTask_self]
    exact hcls
  have h₃ : Gains P s₂ s₃ := by
    refine putBack ?_ hback
    rw [hcls₂]
    exact henq
  have h₄ : Gains P s₃ s' := by
    rcases hend with h' | ⟨-, h'⟩ | ⟨d, h'⟩
    · exact of_rq (by rw [h'])
    · exact of_rq (by rw [h']; rfl)
    · rw [h']
      exact .setRq rfl
  exact (((h₀.trans h₁).trans h₂).trans h₃).trans h₄

end Gains

/-! ## The value of a task that was enqueued -/

theorem computeInit_fits (h : computeInit p s = .ok s') : InitValueFits (s'.task p) := by
  obtain ⟨t, ht, hs⟩ := computeInit_cases h
  rw [hs, setTask_self]
  unfold computeInitSchedValue at ht
  obtain ⟨v, hv, ht⟩ := bind_ok.mp ht
  rw [← Except.ok.inj ht]
  exact hv

theorem refreshValue_fits {flags : Mask} (hflags : isRefresh flags = true)
    (h : refreshValue E p flags s = .ok s') : InitValueFits (s'.task p) := by
  unfold refreshValue at h
  split at h
  next =>
    obtain ⟨s₁, -, h₂⟩ := bind_ok.mp h
    exact computeInit_fits h₂
  next hplain =>
    have hrest := hflags
    rw [isRefresh, isEntry, Bool.eq_false_iff.mpr hplain, Bool.false_or] at hrest
    rw [if_pos hrest] at h
    exact computeInit_fits h

/-- The penalty and the link are not part of the formula. -/
theorem linkedTask_fits (h : InitValueFits t) : InitValueFits (linkedTask t) := by
  unfold linkedTask penaltyIfExceeded
  split
  next => exact h
  next => exact h

theorem enqueueTask_fits {flags : Mask} (hcls : (s.task p).schedClass = .hvf)
    (hflags : isRefresh flags = true) (h : enqueueTask E c p flags s = .ok s') :
    InitValueFits (s'.task p) := by
  rcases enqueueTask_cases h with ⟨-, he⟩ | ⟨hne, -⟩
  · obtain ⟨s₁, h₁, h₂⟩ := enqueueTaskHvf_cases he
    have hfits := refreshValue_fits hflags h₁
    rcases h₂ with ⟨-, hs⟩ | ⟨-, hs⟩
    · rw [hs]
      show InitValueFits ((enqueueHvfEntity E c p s₁).task p)
      rw [enqueueHvfEntity_task, if_pos rfl]
      exact linkedTask_fits hfits
    · rw [hs]
      exact hfits
  · exact absurd hcls hne

/-- Neither are the fields the core keeps its books in. -/
theorem InitValueFits.of_data (h : InitValueFits t) (hd : t'.data = t.data) : InitValueFits t' := by
  have hfits : InitValueFits t.data := h
  rw [← hd] at hfits
  exact hfits

theorem activate_fits {dest thisCpu : Cpu} {v flags : Mask} (hcls : (s.task p).schedClass = .hvf)
    (h : activateTask E dest p flags (setTaskCpu p dest (setTaskState p v s)) = .ok s₁)
    (hflags : isRefresh flags = true ∧ isRefresh (flags ||| enqueueMigrated) = true)
    (hs : (v = taskRunning ∧ s' = wakeupPreempt thisCpu dest p s₁) ∨
      s' = setTaskState p taskRunning (wakeupPreempt thisCpu dest p s₁)) :
    InitValueFits (s'.task p) := by
  obtain ⟨s₂, h₂, h₃⟩ := activateTask_cases h
  have hstart : SameData s (setTaskCpu p dest (setTaskState p v s)) :=
    (SameData.setTask s (by rfl)).trans (.setTask _ (by rfl))
  have hcls₂ := (schedClass_of_data (hstart.data p)).trans hcls
  have hrefresh : isRefresh (if ((setTaskCpu p dest (setTaskState p v s)).task p).onRq = .migrating
      then flags ||| enqueueMigrated else flags) = true := by
    split
    next => exact hflags.2
    next => exact hflags.1
  have hend : SameData s₂ s' := by
    have hon : SameData s₂ s₁ := by
      rw [h₃]
      exact .setTask s₂ (by rfl)
    have hw := hon.trans (.wakeupPreempt thisCpu dest p s₁)
    rcases hs with ⟨-, hs⟩ | hs
    · rw [hs]
      exact hw
    · rw [hs]
      exact hw.trans (.setTask _ (by rfl))
  exact (enqueueTask_fits hcls₂ hrefresh h₂).of_data (hend.data p)

theorem ClassChange.fits {init : Bool} (h : ClassChange E p .hvf init s s')
    (hqueued : (s.task p).isQueued = true) : InitValueFits (s'.task p) := by
  obtain ⟨-, -, -, -, hcls, hmid, hback, hend, -, hrefresh⟩ := h
  next t₀ t s₁ s₂ s₃ running flags =>
  have hcls₂ : (s₂.task p).schedClass = .hvf := by
    rw [checkClassChanging_schedClass hmid, setTask_self]
    exact hcls
  rw [hqueued] at hback
  rcases putBack_cases hback with ⟨-, he⟩ | ⟨hno, -⟩
  · have hfits := enqueueTask_fits hcls₂ hrefresh he
    rcases hend with h' | ⟨hne, -⟩ | ⟨d, h'⟩
    · rw [h']
      exact hfits
    · exact absurd ((putBack_schedClass hback).trans hcls₂) hne
    · rw [h']
      exact hfits
  · cases hno

/-- An enqueue that initialises a task computes its value. -/
theorem initialised_fits (hstep : step E s a = some s') (hinit : initialisesTask s a p = true) :
    InitValueFits (s'.task p) := by
  unfold initialisesTask at hinit
  simp only [Bool.or_eq_true, Bool.and_eq_true, Option.any_eq_true, beq_iff_eq] at hinit
  rcases hinit with ⟨⟨⟨x, hact, rfl⟩, hnew⟩, hcls⟩ | ⟨⟨htarget, hqueued⟩, -⟩
  · cases a with
    | wakeNew thisCpu q dest =>
      injection hact with hact
      subst hact
      obtain ⟨-, hx⟩ := step_ok hstep
      have hx : wakeUpNewTask E thisCpu q dest s = .ok s' := hx
      unfold wakeUpNewTask at hx
      obtain ⟨s₁, h₁, h₂⟩ := bind_ok.mp hx
      injection h₂ with h₂
      exact activate_fits hcls h₁ ⟨rfl, rfl⟩ (Or.inl ⟨rfl, h₂.symm⟩)
    | _ => cases hnew
  · exact (step_change htarget hstep).fits hqueued

/-- A reschedule links the task that is switched out, if anybody. -/
theorem reschedule_gains {next : TaskId} {s₀ s₁ s₂ : Sys} {mode : SchedMode}
    {sig : Signals} (h₀ : SameData s s₀) (hrq : s₀.rq = s.rq)
    (hprev : leavePrev E c mode sig s₀ = .ok s₁)
    (hset : putPrevSetNextTask E c (s.rq c).curr next s₁ = .ok s₂)
    (hs : s' = switchTo c (s.rq c).curr next s₂) :
    Gains (fun q => (q = (s.rq c).curr ∧ (s.task q).schedClass = .hvf) ∧ next ≠ q) s s' := by
  have h₁ : Gains (fun q => (q = (s.rq c).curr ∧ (s.task q).schedClass = .hvf) ∧ next ≠ q) s s₁ :=
    Gains.trans (.of_rq hrq) (.leavePrev hprev)
  have hend : Gains (fun q => (q = (s.rq c).curr ∧ (s.task q).schedClass = .hvf) ∧ next ≠ q) s₂ s' := by
    rw [hs]
    exact .of_queue fun d => switchTo_queue ..
  refine h₁.trans (Gains.trans ?_ hend)
  rcases putPrevSetNextTask_cases hset with ⟨-, h₂⟩ | ⟨hne, hset⟩
  · exact .of_rq (by rw [h₂])
  · refine Gains.trans (.putPrevTask E c fun hcls => ⟨⟨rfl, ?_⟩, hne⟩) (.setNextTask hset)
    exact (schedClass_of_data ((h₀.trans (.leavePrev hprev)).data _)).symm.trans hcls

/-- An activation links the task it is about, if that is of the class. -/
theorem activate_gains {dest thisCpu : Cpu} {v flags : Mask}
    (h : activateTask E dest p flags (setTaskCpu p dest (setTaskState p v s)) = .ok s₁)
    (hs : (v = taskRunning ∧ s' = wakeupPreempt thisCpu dest p s₁) ∨
      s' = setTaskState p taskRunning (wakeupPreempt thisCpu dest p s₁)) :
    Gains (fun q => q = p ∧ (s.task p).schedClass = .hvf) s s' := by
  obtain ⟨s₂, h₂, h₃⟩ := activateTask_cases h
  have hplace : SameData s (setTaskCpu p dest (setTaskState p v s)) :=
    (SameData.setTask s (by rfl)).trans (.setTask _ (by rfl))
  have hwrite : Gains (fun q => q = p ∧ (s.task p).schedClass = .hvf) s
      (setTaskCpu p dest (setTaskState p v s)) := .of_rq rfl
  have hpreempt : Gains (fun q => q = p ∧ (s.task p).schedClass = .hvf) s₂
      (wakeupPreempt thisCpu dest p s₁) := by
    refine .of_queue fun d => ?_
    unfold queue
    rw [wakeupPreempt_hvf, h₃]
    rfl
  refine hwrite.trans (Gains.trans (.enqueueTask ?_ h₂) (hpreempt.trans ?_))
  · intro hcls
    exact ⟨rfl, (schedClass_of_data (hplace.data p)).symm.trans hcls⟩
  · rcases hs with ⟨-, hs⟩ | hs
    · exact .of_rq (by rw [hs])
    · exact .of_rq (by rw [hs]; rfl)

/-- A step that links a task without charging it has enqueued it. -/
theorem linked_fits (hstep : step E s a = some s') (hnot : ¬ s.isLinked p) (hlink : s'.isLinked p)
    (hput : chargesTask s a s' p = false) : InitValueFits (s'.task p) := by
  have hnew : ∀ {P : TaskId → Prop}, Gains P s s' → P p := by
    intro P h
    exact (h p hlink).resolve_left hnot
  have hnone : ¬ Gains (fun _ => False) s s' := hnew
  cases step_case hstep with
  | quiet hl hrq hv =>
    refine absurd (.of_queue fun d => ?_) hnone
    unfold queue
    rw [hrq d]
  | state q v hlive hne hdead hl hrq hv =>
    refine absurd (.of_queue fun d => ?_) hnone
    unfold queue
    rw [hrq d]
  | fork d u hfork hlive hu hs => exact absurd (.of_rq (by rw [hs]; rfl)) hnone
  | bury d q hbury hdead h => exact absurd (.finishTaskSwitch h) hnone
  | reschedule d how next s₀ s₁ s₂ mode sig picks hleave hstart hhow hprev hpick hpicked hset hs =>
    -- the put of the task that is switched out is a charge
    exfalso
    have hs₀ : SameData s s₀ ∧ s₀.rq = s.rq := by
      rcases hstart with ⟨rfl, -⟩ | ⟨-, -, rfl⟩
      · exact ⟨.refl s₀, rfl⟩
      · exact ⟨.setTask s (by rfl), rfl⟩
    obtain ⟨⟨hp, hcls⟩, hne⟩ := hnew (reschedule_gains hs₀.1 hs₀.2 hprev hset hs)
    have hcurr : (s₀.rq d).curr = (s.rq d).curr := by rw [hs₀.2]
    have hself : (s'.rq d).curr = next := by
      have hc := congrArg (fun l => (l.rq d).curr) (reschedule_links hcurr hhow hprev hset hs)
      exact hc.trans Links.schedule_curr_self
    have hyes : chargesTask s a s' p = true :=
      charges_of_put hleave hp.symm hcls (by rw [hself]; exact hne)
    rw [hput] at hyes
    cases hyes
  | activate q dest thisCpu v flags s₁ hact hlive hoff hon hdead h hs _ hrefresh =>
    obtain ⟨rfl, hcls⟩ := hnew (activate_gains h hs)
    exact activate_fits hcls h hrefresh hs
  | change q cls htarget hlive h =>
    obtain ⟨rfl, hby⟩ := hnew (P := fun r => r = q ∧
      ((s.isCurrent q = true ∧ (s.task q).schedClass = .hvf) ∨
        ((s.task q).isQueued = true ∧ cls = .hvf)))
      (.classChange h (fun hcurr hcls => ⟨rfl, Or.inl ⟨hcurr, hcls⟩⟩)
        fun hq hcls => ⟨rfl, Or.inr ⟨hq, hcls⟩⟩)
    rcases hby with ⟨hcurr, hcls⟩ | ⟨hq, hcls⟩
    · rw [charges_of_target htarget hcls, hcurr] at hput
      cases hput
    · rw [hcls] at h
      exact h.fits hq

/-! ## What the note says about the entity -/

/-- The fields the note is about. -/
def Record.entering (r : Record) : Long × Long × Int32 × Bool :=
  (r.first, r.used, r.answers, r.expired)

/-- The entity of a task that has been initialised since `s₀`. -/
structure SinceInit (E : Env) (s₀ s : Sys) (p : TaskId) (x : EntryNote) : Prop where
  stamped : ∃ j, s₀.reads ≤ j ∧ j < s.reads ∧ (s.task p).hvf.firstTime = stampMs (E.clock j)
  used : (s.task p).hvf.timeUsed = Int64.ofInt x.ran
  answers : (s.task p).hvf.cpuAnswers = Int32.ofNat x.answers
  unput : x.puts = 0 → x.ran = 0 ∧ (s.task p).hvf.sliceExpired = x.late

/-- The entity of `p`, by its note. Only an initialisation writes the first
time. -/
structure Noted (E : Env) (s₀ s : Sys) (p : TaskId) (x : EntryNote) : Prop where
  reads : s₀.reads ≤ s.reads
  old : x.init = false → (s.task p).hvf.firstTime = (s₀.task p).hvf.firstTime
  new : x.init = true → SinceInit E s₀ s p x

/-- The sum of the charges as `time_used` keeps it. -/
theorem ofInt_charge (used latest stamp : Long) (ran : Int) (h : used = Int64.ofInt ran) :
    used + (stamp - latest) = Int64.ofInt (ran + (stamp.toInt - latest.toInt)) := by
  rw [Int64.ofInt_add, Int64.ofInt_sub, Int64.ofInt_toInt, Int64.ofInt_toInt, h]

namespace Noted

variable {x : EntryNote}

theorem initialised {y : Clocked} (h : Noted E s₀ s p x) (hinit : initialisesTask s a p = true)
    (hrec : s'.clocked p = y.enter E) (hy : s.reads ≤ y.reads) :
    Noted E s₀ s' p (nextEntryNote E p s a s' x) := by
  have hreads : s'.reads = (y.defaults E).reads + 1 := congrArg Clocked.reads hrec
  have hr : (s'.task p).record = (y.enter E).record := congrArg Clocked.record hrec
  have hlo : s₀.reads ≤ (y.defaults E).reads :=
    Nat.le_trans h.reads (Nat.le_trans hy y.reads_defaults)
  rw [nextEntryNote, if_pos hinit]
  refine ⟨by omega, (fun hno => nomatch hno), fun _ => ?_⟩
  refine ⟨⟨_, hlo, by omega, congrArg Record.first hr⟩, congrArg Record.used hr,
    congrArg Record.answers hr, ?_⟩
  intro _
  exact ⟨rfl, congrArg Record.expired hr⟩

/-- A step in which the task is not put: it may take the CPU, and the latch may
be set. -/
theorem uncharged (h : Noted E s₀ s p x) (hreads : s.reads ≤ s'.reads)
    (hinit : initialisesTask s a p = false) (hput : chargesTask s a s' p = false)
    (hfirst : (s'.task p).hvf.firstTime = (s.task p).hvf.firstTime)
    (hused : (s'.task p).hvf.timeUsed = (s.task p).hvf.timeUsed)
    (hans : (s'.task p).hvf.cpuAnswers = if answersTask s a s' p
      then (s.task p).hvf.cpuAnswers + 1 else (s.task p).hvf.cpuAnswers)
    (hlatch : (s.task p).hvf.sliceExpired = true → (s'.task p).hvf.sliceExpired = true) :
    Noted E s₀ s' p (nextEntryNote E p s a s' x) := by
  rw [nextEntryNote, hinit, hput]
  refine ⟨Nat.le_trans h.reads hreads, ?_, ?_⟩
  · intro hold
    exact hfirst.trans (h.old hold)
  · intro hnew
    obtain ⟨⟨j, hlo, hhi, hj⟩, hused₀, hans₀, hunput⟩ := h.new hnew
    refine ⟨⟨j, hlo, Nat.lt_of_lt_of_le hhi hreads, hfirst.trans hj⟩, hused.trans hused₀, ?_, ?_⟩
    · rw [hans, hans₀]
      split
      next hyes =>
        simp only [Bool.false_eq_true, if_false]
        exact (Int32.ofNat_add ..).symm
      next => simp only [Bool.false_eq_true, if_false]
    · intro hzero
      obtain ⟨hran, hlate⟩ := hunput hzero
      refine ⟨hran, ?_⟩
      show _ = (x.late || latchesTask s s' p)
      unfold latchesTask
      rw [← hlate]
      cases hbefore : (s.task p).hvf.sliceExpired with
      | false => rfl
      | true => exact hlatch hbefore

/-- A step in which the task is put. -/
theorem charged (h : Noted E s₀ s p x) (hreads : s.reads ≤ s'.reads)
    (hinit : initialisesTask s a p = false) (hput : chargesTask s a s' p = true)
    (hans : answersTask s a s' p = false)
    (hfirst : (s'.task p).hvf.firstTime = (s.task p).hvf.firstTime)
    (hused : (s'.task p).hvf.timeUsed = (s.task p).hvf.timeUsed
      + (stampMs (E.clock s.reads) - (s.task p).hvf.latestTime))
    (hcount : (s'.task p).hvf.cpuAnswers = (s.task p).hvf.cpuAnswers) :
    Noted E s₀ s' p (nextEntryNote E p s a s' x) := by
  rw [nextEntryNote, hinit, hput, hans]
  refine ⟨Nat.le_trans h.reads hreads, ?_, ?_⟩
  · intro hold
    exact hfirst.trans (h.old hold)
  · intro hnew
    obtain ⟨⟨j, hlo, hhi, hj⟩, hused₀, hans₀, -⟩ := h.new hnew
    refine ⟨⟨j, hlo, Nat.lt_of_lt_of_le hhi hreads, hfirst.trans hj⟩, ?_, hcount.trans hans₀, ?_⟩
    · rw [hused]
      exact ofInt_charge _ _ _ _ hused₀
    · intro hzero
      cases hzero

/-- A step that leaves the fields alone. -/
theorem quiet (h : Noted E s₀ s p x) (hreads : s.reads ≤ s'.reads)
    (hinit : initialisesTask s a p = false) (hput : chargesTask s a s' p = false)
    (hans : answersTask s a s' p = false)
    (hsame : (s'.task p).record.entering = (s.task p).record.entering) :
    Noted E s₀ s' p (nextEntryNote E p s a s' x) := by
  have hlatch : (s'.task p).hvf.sliceExpired = (s.task p).hvf.sliceExpired :=
    congrArg (fun y => y.2.2.2) hsame
  refine h.uncharged hreads hinit hput (congrArg (fun y => y.1) hsame)
    (congrArg (fun y => y.2.1) hsame) ?_ (fun hset => hlatch.trans hset)
  rw [hans]
  exact congrArg (fun y => y.2.2.1) hsame

/-- A change of attributes that does not initialise the task. -/
theorem changed {cls : SchedClass} {y : Clocked} (h : Noted E s₀ s p x)
    (hreads : s.reads ≤ s'.reads) (htarget : classTarget s a = some (p, cls))
    (hinit : initialisesTask s a p = false) (hcls : (s.task p).schedClass = .hvf)
    (hrec : s'.clocked p = y)
    (hy : y.record.entering
      = ((s.clocked p).putIf E (s.isCurrent p) (s.task p).isRunning).record.entering) :
    Noted E s₀ s' p (nextEntryNote E p s a s' x) := by
  have hans : answersTask s a s' p = false := not_answers_of_target htarget
  have hput : chargesTask s a s' p = s.isCurrent p := charges_of_target htarget hcls
  have hsame : (s'.task p).record.entering
      = ((s.clocked p).putIf E (s.isCurrent p) (s.task p).isRunning).record.entering := by
    rw [← hy, ← hrec]
    rfl
  cases hcurr : s.isCurrent p with
  | true =>
    rw [hcurr] at hput hsame
    exact h.charged hreads hinit hput hans (congrArg (fun y => y.1) hsame)
      (congrArg (fun y => y.2.1) hsame) (congrArg (fun y => y.2.2.1) hsame)
  | false =>
    rw [hcurr] at hput hsame
    exact h.quiet hreads hinit hput hans hsame

end Noted

namespace Clocked

variable (x : Clocked)

theorem entering_defaults : (x.defaults E).record.entering = x.record.entering := by
  have h := congrArg Record.entering (x.timing_defaults E)
  exact h

theorem entering_clear : x.clear.record.entering = x.record.entering := by
  have h := congrArg Record.entering x.timing_clear
  exact h

end Clocked

theorem Noted.step {x : EntryNote} (h : Noted E s₀ s p x) (hlive : s.isLive p = true)
    (hstep : HvfSched.step E s a = some s') : Noted E s₀ s' p (nextEntryNote E p s a s' x) := by
  have hreads := (step_record hstep).reads_le
  cases step_task hstep p with
  | same hidle hrec _ hcls hcpus =>
    exact h.quiet hreads (not_initialises hidle) (not_charges_of_same hidle hcpus)
      (not_answers_of_same hcpus) (congrArg Record.entering hrec)
  | other hidle hrec _ hcls hcls' =>
    exact h.quiet hreads (not_initialises hidle) (not_charges_of_ne hcls) (not_answers_of_ne hcls)
      (congrArg Record.entering hrec)
  | params c d1 d2 ct ha hp hacc hrec _ hstill =>
    subst ha
    have hidle : ¬ reachesClass s (.setParams c d1 d2 ct) p := not_reachesClass rfl rfl p
    refine h.quiet hreads (not_initialises hidle) (not_charges_of_same hidle (hstill.sameCpus p))
      (not_answers_of_same (hstill.sameCpus p)) ?_
    rw [hrec]
    rfl
  | tick c ha hp hcls hrec hstill =>
    subst ha
    have hidle : ¬ reachesClass s (.tick c) p := not_reachesClass rfl rfl p
    have hr : (s'.task p).record = ((s.clocked p).tick E (s.value p)).record :=
      congrArg Clocked.record hrec
    refine h.uncharged hreads (not_initialises hidle)
      (not_charges_of_same hidle (hstill.sameCpus p)) (congrArg Record.first hr)
      (congrArg Record.used hr) ?_ ?_
    · rw [not_answers_of_same (hstill.sameCpus p)]
      exact congrArg Record.answers hr
    · intro hset
      have hset : (s.clocked p).record.expired = true := hset
      refine (congrArg Record.expired hr).trans ?_
      rw [Clocked.tick, hset]
      rfl
  | put c how hleave hp hcls hrec _ hcls' hcpus =>
    obtain ⟨htarget, hnew⟩ := classTarget_of_leaves hleave
    have hne : (s'.rq c).curr ≠ p := fun hc => ((hcpus c).mp hc).1 rfl
    exact h.charged hreads (not_initialises (not_reachesClass htarget hnew p))
      (charges_of_put hleave hp hcls hne) (not_answers_of_put hleave hp)
      (congrArg Record.first hrec) (congrArg Record.used hrec) (congrArg Record.answers hrec)
  | dispatch c how n hleave hne hcls hrec hlo hcls' hcpus =>
    obtain ⟨htarget, hnew⟩ := classTarget_of_leaves hleave
    have hr : (s'.task p).record = ((Clocked.mk n (s.task p).record).dispatch E).record :=
      congrArg Clocked.record hrec
    have hyes : answersTask s a s' p = true :=
      answersTask_iff.mpr ⟨c, how, hleave, hne, (hcpus c).mpr (Or.inl rfl), hcls⟩
    refine h.uncharged hreads (not_initialises (not_reachesClass htarget hnew p))
      (not_charges_of_dispatch hleave hne) (congrArg Record.first hr) (congrArg Record.used hr) ?_ ?_
    · rw [hyes]
      exact congrArg Record.answers hr
    · intro hset
      exact (congrArg Record.expired hr).trans hset
  | enter dest hact hnew hcls hrec hstill =>
    refine h.initialised ?_ hrec (Nat.le_refl _)
    unfold initialisesTask
    rw [hact, hnew, hcls]
    simp
  | stay htarget hcls hrec hcls' hcpus =>
    by_cases hinit : ((s.task p).isQueued && a.initialises) = true
    · rw [if_pos hinit] at hrec
      exact h.initialised (initialises_of_target htarget hinit) hrec ((s.clocked p).reads_putIf _ _)
    · rw [if_neg hinit] at hrec
      exact h.changed hreads htarget (not_initialises_of_target htarget fun _ => hinit) hcls hrec rfl
  | leave cls htarget hne hcls hrec hcls' =>
    refine h.changed hreads htarget (not_initialises_of_target htarget fun hc => absurd hc hne) hcls
      hrec ?_
    rw [Clocked.entering_clear]
  | join htarget hcls hrec hcls' hcpus =>
    by_cases hinit : ((s.task p).isQueued && a.initialises) = true
    · rw [if_pos hinit] at hrec
      exact h.initialised (initialises_of_target htarget hinit) hrec (Nat.le_refl _)
    · rw [if_neg hinit] at hrec
      have hsame := congrArg (fun y : Clocked => y.record.entering) hrec
      rw [Clocked.entering_defaults] at hsame
      exact h.quiet hreads (not_initialises_of_target htarget fun _ => hinit)
        (not_charges_of_ne hcls) (not_answers_of_target htarget) hsame
  | born c t hp hfork ht htask hs =>
    -- a task that lives is not created again
    exact absurd hp (ne_next_of_live hlive)

/-- The run from the class change on. -/
theorem Noted.run {ck : Checks} {attr : SchedAttr} {user pi : Bool} {y : Sys × EntryNote}
    (hstep : HvfSched.step E s (.setscheduler ck p attr user pi) = some s₁)
    (hrun : UntilLinked E p s (.setscheduler ck p attr user pi) s₁ y) :
    Noted E s y.1 p y.2 := by
  have hlive : s.isLive p = true := by
    have hen := (step_ok hstep).1
    simp only [enabled, Bool.and_eq_true] at hen
    exact hen.1.1
  have hstart : Noted E s s p .blank :=
    ⟨Nat.le_refl _, fun _ => rfl, fun hno => absurd hno Bool.false_ne_true⟩
  suffices h : y.1.isLive p = true ∧ Noted E s y.1 p y.2 from h.2
  refine Reach.invariant (fun y => y.1.isLive p = true ∧ Noted E s y.1 p y.2) ?_ ?_ hrun
  · rintro y ⟨hy, hn⟩
    rw [hy, hn]
    exact ⟨step_isLive hstep hlive, hstart.step hlive hstep⟩
  · rintro y a y' ⟨hl, hy⟩ - hy'
    obtain ⟨hs, hn⟩ := observed_eq_some hy'
    rw [hn]
    exact ⟨step_isLive hs hl, hy.step hl hs⟩

/-! ## The first link -/

/-- A task that the note takes for fresh was enqueued when it was linked. -/
theorem fresh_fits {ck : Checks} {attr : SchedAttr} {user pi : Bool} {y : Sys × EntryNote}
    (hstep : step E s (.setscheduler ck p attr user pi) = some s₁)
    (hrun : UntilLinked E p s (.setscheduler ck p attr user pi) s₁ y) (hlink : y.1.isLinked p)
    (hinit : y.2.init = true) (hputs : y.2.puts = 0) : InitValueFits (y.1.task p) := by
  cases hrun with
  | start hy =>
    obtain ⟨hs, hn⟩ := hy
    rw [hs]
    refine initialised_fits hstep ?_
    rw [hn, nextEntryNote] at hinit
    split at hinit
    next hyes => exact hyes
    next => cases hinit
  | next hy hnot hnext =>
    obtain ⟨hs, hn⟩ := observed_eq_some hnext
    rw [hn, nextEntryNote] at hputs
    split at hputs
    next hyes => exact initialised_fits hs hyes
    next =>
      refine linked_fits hs hnot hlink ?_
      rw [Bool.eq_false_iff]
      intro hyes
      rw [hyes] at hputs
      cases hputs

/-- The first time of every entity is zero or a reading of the clock. -/
def FirstTimesRead (E : Env) (s : Sys) : Prop :=
  ∀ p, (s.task p).hvf.firstTime = 0 ∨
    ∃ i < s.reads, (s.task p).hvf.firstTime = stampMs (E.clock i)

theorem FirstTimesRead.step (h : FirstTimesRead E s) (hstep : HvfSched.step E s a = some s') :
    FirstTimesRead E s' := by
  intro p
  have hreads := (step_record hstep).reads_le
  -- a first time of the state before, of `p` or of its parent
  have hold : ∀ {q : TaskId}, (s'.task p).hvf.firstTime = (s.task q).hvf.firstTime →
      (s'.task p).hvf.firstTime = 0 ∨
        ∃ i < s'.reads, (s'.task p).hvf.firstTime = stampMs (E.clock i) := by
    intro q hsame
    rw [hsame]
    rcases h q with hzero | ⟨i, hi, hstamp⟩
    · exact Or.inl hzero
    · exact Or.inr ⟨i, Nat.lt_of_lt_of_le hi hreads, hstamp⟩
  cases step_answer hstep p with
  | keep _ _ hsame => exact hold (congrArg (fun y => y.1) hsame)
  | answer n _ _ _ hnew => exact hold (q := p) (congrArg (fun y => y.1) hnew)
  | init n _ _ hhi hnew => exact Or.inr ⟨n, by omega, congrArg (fun y => y.1) hnew⟩
  | born parent _ _ hsame => exact hold (congrArg (fun y => y.1) hsame)

theorem reached_firstTimesRead {ok : Sys → Act → Prop} (h : Reached E ok s) :
    FirstTimesRead E s := by
  refine Reach.invariant (FirstTimesRead E) ?_ ?_ h
  · rintro s hs p
    rw [hs]
    left
    cases p with
    | idle c => rfl
    | task n => rfl
  · intro s a s' hs _ hstep
    exact hs.step hstep

/-- Where the readings can be told apart, an entity that was not initialised
does not have a first time read since the class change. -/
theorem ToldApart.init {y : Sys × EntryNote} (h : ToldApart E s y) (hread : FirstTimesRead E s)
    (hn : Noted E s y.1 p y.2) (hentry : EntryState E s y.1 p) : y.2.init = true := by
  rw [← Bool.not_eq_false]
  intro hold
  obtain ⟨j, hlo, hhi, hj⟩ := hentry.stamped
  obtain ⟨hzero, hapart⟩ := h.clock j hhi hlo
  rw [hn.old hold] at hj
  rcases hread p with hnone | ⟨i, hi, hstamp⟩
  · exact hzero (hj.symm.trans hnone)
  · exact hapart i hi (hstamp.symm.trans hj)

/-- A used time of zero means that nothing was charged. -/
theorem ToldApart.puts {y : Sys × EntryNote} (h : ToldApart E s y)
    (hused : Int64.ofInt y.2.ran = 0) : y.2.puts = 0 := by
  by_contra hne
  obtain ⟨hlo, hhi⟩ := h.charged hne
  have hmod := congrArg Int64.toInt hused
  rw [Int64.toInt_ofInt] at hmod
  have hmod : y.2.ran.bmod 18446744073709551616 = 0 := hmod
  have hdvd := Int.dvd_of_bmod_eq_zero hmod
  omega

/-- A counter of zero means that the task has not taken the CPU. -/
theorem ToldApart.answers {y : Sys × EntryNote} (h : ToldApart E s y)
    (hcount : Int32.ofNat y.2.answers = 0) : y.2.answers = 0 := by
  have hlt := h.answered
  have hmod := congrArg Int32.toInt hcount
  rw [Int32.toInt_ofNat'] at hmod
  have hmod : ((y.2.answers : Int)).bmod 4294967296 = 0 := hmod
  have hdvd := Int.dvd_of_bmod_eq_zero hmod
  omega

/-- `__sched_setscheduler` is called for `p`, and `y` is the first state from
there on in which `p` is linked, with the notes of the way. If an enqueue has
initialised the entity (the one that links it, or an earlier one), and since
then the task was not put, did not take the CPU and no tick set its latch, the
entity is in the state the class is meant to start from. Where the readings of
the clock can be told apart, it is in that state in no other case. -/
theorem entry_state_iff_fresh {E : Env} {s s₁ : Sys} {y : Sys × EntryNote} {ck : Checks}
    {p : TaskId} {attr : SchedAttr} {user pi : Bool} (hs : Reached E (fun _ _ => True) s)
    (hstep : step E s (.setscheduler ck p attr user pi) = some s₁)
    (hrun : UntilLinked E p s (.setscheduler ck p attr user pi) s₁ y) (hlink : y.1.isLinked p) :
    (y.2.isFresh = true → EntryState E s y.1 p) ∧
      (ToldApart E s y → (EntryState E s y.1 p ↔ y.2.isFresh = true)) := by
  have hn := Noted.run hstep hrun
  have hfresh : y.2.isFresh = true → EntryState E s y.1 p := by
    intro hyes
    simp only [EntryNote.isFresh, Bool.and_eq_true, beq_iff_eq, Bool.not_eq_true'] at hyes
    obtain ⟨⟨⟨hinit, hputs⟩, hans⟩, hlate⟩ := hyes
    obtain ⟨⟨j, hlo, hhi, hj⟩, hused, hcount, hunput⟩ := hn.new hinit
    obtain ⟨hran, hlatch⟩ := hunput hputs
    refine ⟨⟨j, hlo, hhi, hj⟩, ?_, ?_, ?_, hlatch.trans hlate,
      fresh_fits hstep hrun hlink hinit hputs⟩
    · intro hrise
      rw [hj]
      exact ⟨hrise _ _ hlo, hrise _ _ (Nat.le_of_lt hhi)⟩
    · rw [hused, hran]
      rfl
    · rw [hcount, hans]
      rfl
  refine ⟨hfresh, fun htold => ⟨fun hentry => ?_, hfresh⟩⟩
  have hinit := htold.init (reached_firstTimesRead hs) hn hentry
  obtain ⟨-, hused, hcount, hunput⟩ := hn.new hinit
  have hputs := htold.puts (hused.symm.trans hentry.used)
  have hans := htold.answers (hcount.symm.trans hentry.answers)
  have hlate := (hunput hputs).2.symm.trans hentry.expired
  simp only [EntryNote.isFresh, hinit, hputs, hans, hlate]
  rfl

/-- The task is brought into the class and then linked by the step `a`. -/
def enterThen (E : Env) (p : TaskId) (a : Act) (s : Sys) : Option (Sys × Sys × EntryNote) :=
  (step E s (.setscheduler permissive p (plainAttr 8) true true)).bind fun s₁ =>
    (observed (step E) (nextEntryNote E p)
      (s₁, nextEntryNote E p s (.setscheduler permissive p (plainAttr 8) true true) s₁ .blank) a).map
      fun y => (s₁, y)

theorem enterThen_eq_some {y : Sys × EntryNote} (h : enterThen E p a s = some (s₁, y))
    (hbase : Base s) (hok : flagsKept s (.setscheduler permissive p (plainAttr 8) true true))
    (hflag : (s₁.task p).hvf.onRq = false) :
    step E s (.setscheduler permissive p (plainAttr 8) true true) = some s₁ ∧
      UntilLinked E p s (.setscheduler permissive p (plainAttr 8) true true) s₁ y := by
  obtain ⟨s₁', hstep, hrest⟩ := Option.bind_eq_some_iff.mp h
  obtain ⟨y', hnext, heq⟩ := Option.map_eq_some_iff.mp hrest
  injection heq with h₁ h₂
  subst h₁ h₂
  refine ⟨hstep, .next (.start ⟨rfl, rfl⟩) ?_ hnext⟩
  rintro ⟨c, hc⟩
  have hset := (((step_base hbase hok hstep).trees.mem c p).mp hc).1
  exact Bool.false_ne_true (hflag.symm.trans hset)

/-- The first task goes to sleep. -/
def fallAsleep : List Act := startFirst ++ sleepOn 0

/-- A new child is moved into the class before it is woken: it is linked by
`wake_up_new_task`, fresh. A sleeping task is linked by its wakeup, and not
fresh. -/
theorem entry_state_new_and_asleep :
    (∃ s s₁ y, step wallEnv s (.setscheduler permissive (.task 1) (plainAttr 8) true true) = some s₁ ∧
      UntilLinked wallEnv (.task 1) s (.setscheduler permissive (.task 1) (plainAttr 8) true true)
        s₁ y ∧ y.1.isLinked (.task 1) ∧ EntryState wallEnv s y.1 (.task 1)) ∧
    ∃ s s₁ y, step wallEnv s (.setscheduler permissive (.task 0) (plainAttr 8) true true) = some s₁ ∧
      UntilLinked wallEnv (.task 0) s (.setscheduler permissive (.task 0) (plainAttr 8) true true)
        s₁ y ∧ y.1.isLinked (.task 0) ∧ ¬ EntryState wallEnv s y.1 (.task 0) := by
  constructor
  · obtain ⟨s, hs, hf⟩ := Reached.of_check (b := some (true, true)) wallEnv flagsKept
      (fun s => (enterThen wallEnv (.task 1) (.wakeNew 0 (.task 1) 0) s).map
        fun r : Sys × Sys × EntryNote =>
        (decide (flagsKept s (.setscheduler permissive (.task 1) (plainAttr 8) true true) ∧
            (r.1.task (.task 1)).hvf.onRq = false),
          decide (r.2.1.queue 0 = [.task 1] ∧ r.2.2.isFresh = true)))
      (startFirst ++ [.fork 0]) (by decide +kernel)
    obtain ⟨⟨s₁, y⟩, hsteps, hr⟩ := Option.map_eq_some_iff.mp hf
    injection hr with hmid hend
    obtain ⟨hok, hflag⟩ := of_decide_eq_true hmid
    obtain ⟨hq, hfresh⟩ := of_decide_eq_true hend
    obtain ⟨hstep, hrun⟩ :=
      enterThen_eq_some hsteps (reached_base (fun _ _ hk => hk) hs) hok hflag
    have hlink : y.1.isLinked (.task 1) := by
      refine ⟨0, ?_⟩
      rw [hq]
      exact List.mem_cons_self
    refine ⟨s, s₁, y, hstep, hrun, hlink, ?_⟩
    exact (entry_state_iff_fresh (hs.mono fun _ _ _ => trivial) hstep hrun hlink).1 hfresh
  · obtain ⟨s, hs, hf⟩ := Reached.of_check (b := some (true, true)) wallEnv flagsKept
      (fun s => (enterThen wallEnv (.task 0) (.wake 1 (.task 0) taskNormal 0) s).map
        fun r : Sys × Sys × EntryNote =>
        (decide (flagsKept s (.setscheduler permissive (.task 0) (plainAttr 8) true true) ∧
            (r.1.task (.task 0)).hvf.onRq = false),
          decide ((r.2.1.queue 0 = [.task 0] ∧ r.2.2 = .blank) ∧ ∀ j < r.2.1.reads, s.reads ≤ j →
            stampMs (wallEnv.clock j) ≠ 0 ∧
              ∀ i < s.reads, stampMs (wallEnv.clock i) ≠ stampMs (wallEnv.clock j))))
      fallAsleep (by decide +kernel)
    obtain ⟨⟨s₁, y⟩, hsteps, hr⟩ := Option.map_eq_some_iff.mp hf
    injection hr with hmid hend
    obtain ⟨hok, hflag⟩ := of_decide_eq_true hmid
    obtain ⟨⟨hq, hnote⟩, hclock⟩ := of_decide_eq_true hend
    obtain ⟨hstep, hrun⟩ :=
      enterThen_eq_some hsteps (reached_base (fun _ _ hk => hk) hs) hok hflag
    have hlink : y.1.isLinked (.task 0) := by
      refine ⟨0, ?_⟩
      rw [hq]
      exact List.mem_cons_self
    have hnote : y.2 = .blank := hnote
    have htold : ToldApart wallEnv s y := by
      refine ⟨hclock, ?_, ?_⟩
      · rw [hnote]
        exact fun hne => absurd rfl hne
      · rw [hnote]
        decide
    refine ⟨s, s₁, y, hstep, hrun, hlink, fun hentry => ?_⟩
    have hfresh := ((entry_state_iff_fresh (hs.mono fun _ _ _ => trivial) hstep hrun hlink).2
      htold).mp hentry
    rw [hnote] at hfresh
    cases hfresh

/-- A task that enters the class asleep is linked by its wakeup with a first
time that was never read from the clock. -/
theorem asleep_entry_not_initialised :
    ∃ s s₁ y, (Reached sampleEnv (fun _ _ => True) s ∧ (s.task (.task 0)).schedClass = .fair) ∧
      (step sampleEnv s (.setscheduler permissive (.task 0) (plainAttr 8) true true) = some s₁ ∧
        (s₁.task (.task 0)).schedClass = .hvf) ∧
      (UntilLinked sampleEnv (.task 0) s (.setscheduler permissive (.task 0) (plainAttr 8) true true)
        s₁ y ∧ y.1.queue 0 = [.task 0]) ∧
      (y.1.task (.task 0)).hvf.firstTime = 0 ∧ ¬ EntryState sampleEnv s y.1 (.task 0) := by
  obtain ⟨s, hs, hf⟩ := Reached.of_check (b := (SchedClass.fair, some (true, true)))
    sampleEnv flagsKept
    (fun s => ((s.task (.task 0)).schedClass,
      (enterThen sampleEnv (.task 0) (.wake 1 (.task 0) taskNormal 0) s).map
        fun r : Sys × Sys × EntryNote =>
        (decide (flagsKept s (.setscheduler permissive (.task 0) (plainAttr 8) true true) ∧
            (r.1.task (.task 0)).schedClass = .hvf ∧ (r.1.task (.task 0)).hvf.onRq = false),
          decide (r.2.1.queue 0 = [.task 0] ∧ (r.2.1.task (.task 0)).hvf.firstTime = 0 ∧
            ∀ j < r.2.1.reads, stampMs (sampleEnv.clock j) ≠ 0))))
    fallAsleep (by decide +kernel)
  injection hf with hcls hafter
  obtain ⟨⟨s₁, y⟩, hsteps, hr⟩ := Option.map_eq_some_iff.mp hafter
  injection hr with hmid hend
  obtain ⟨hok, hcls₁, hflag⟩ := of_decide_eq_true hmid
  obtain ⟨hq, hfirst, hstamps⟩ := of_decide_eq_true hend
  obtain ⟨hstep, hrun⟩ := enterThen_eq_some hsteps (reached_base (fun _ _ hk => hk) hs) hok hflag
  refine ⟨s, s₁, y, ⟨hs.mono fun _ _ _ => trivial, hcls⟩, ⟨hstep, hcls₁⟩, ⟨hrun, hq⟩, hfirst, ?_⟩
  intro hentry
  obtain ⟨j, -, hj, hstamp⟩ := hentry.stamped
  exact hstamps j hj (hstamp.symm.trans hfirst)

end HvfSched
