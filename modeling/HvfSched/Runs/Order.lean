import HvfSched.Queue.Sorted
import HvfSched.Runs.Moves
import HvfSched.Runs.Scale

/-!
# The tree is sorted by the current values

In every run in which no value of a linked entity is written, each tree is
sorted by the values its entities have now, and the cached maximum is an
entity of maximal value; so `pick_task_hvf` returns a queued task of maximal
value.

`keysKept` is that condition, read off the state before each step. Three
things break it: a task that entered HVF while it was running is linked, and
`put_prev_task_hvf` reduces its value in place when its slice has expired; a
class change or group move of a running task puts it back into the tree and
recomputes its value there; and so does an enqueue of a task that is still
linked from an earlier class change.
-/

namespace HvfSched

open Lib Sys

variable {E : Env} {s₀ s s' : Sys} {a : Act} {c : Cpu} {p : TaskId} {n : Nat}

/-! ## Which flags are set on the way -/

namespace Links

variable {l : Links} {how : Leave}

theorem dequeue_linked_le (h : ((l.dequeue c p).2.task p).linked = true) :
    (l.task p).linked = true := by
  have hself : ∀ v, ((l.setLinked p v).task p).linked = v := fun v => setLinked_self p v l
  unfold dequeue at h
  split at h
  next =>
    split at h
    next hlinked => exact hlinked.2
    next =>
      split at h
      next =>
        rw [setHvfCurr_task, addNr_task, hself] at h
        cases h
      next => exact h
  next => exact h

/-- The dequeue of an HVF task that it can recognise, or that is not linked. -/
theorem dequeue_unlinks (hcls : (l.task p).schedClass = .hvf)
    (h : (l.task p).linked = true → (l.rq c).hvfCurr ≠ some p ∨ (l.task p).state ≠ taskRunning) :
    ((l.dequeue c p).2.task p).linked = false := by
  by_cases hlinked : (l.task p).linked = true
  · by_cases hcurr : (l.rq c).hvfCurr = some p
    · rcases h hlinked with hne | hstate
      · exact absurd hcurr hne
      · rw [dequeue_curr hcls hcurr hstate, setHvfCurr_task, addNr_task, setLinked_self]
    · rw [dequeue_linked hcls hcurr hlinked, addNr_task, setLinked_self]
  · exact Bool.eq_false_iff.mpr fun hl => hlinked (dequeue_linked_le hl)

theorem takeOff_unlinks (hcls : (l.task p).schedClass = .hvf) (hq : (l.task p).onRq = .queued)
    (hrun : ¬ ((l.rq (l.task p).cpu).curr = p ∧ (l.task p).state = taskRunning))
    (h : (l.task p).linked = true →
      (l.rq (l.task p).cpu).hvfCurr ≠ some p ∨ (l.task p).state ≠ taskRunning) :
    ((l.takeOff p).task p).linked = false := by
  have hd := dequeue_unlinks (c := (l.task p).cpu) hcls h
  unfold takeOff
  dsimp only
  rw [if_pos hq]
  split
  next hcurr =>
    rw [put_idle]
    · exact hd
    · rintro ⟨-, hstate⟩
      rw [(dequeue_frame _ p l).state] at hstate
      exact hrun ⟨hcurr, hstate⟩
  next => exact hd

theorem takeOff_other (hcls : (l.task p).schedClass ≠ .hvf) :
    ((l.takeOff p).task p).linked = (l.task p).linked := by
  unfold takeOff
  dsimp only
  rw [dequeue_other hcls]
  split
  next =>
    rw [put_idle]
    · split
      next => rfl
      next => rfl
    · split
      next => exact fun h => hcls h.1
      next => exact fun h => hcls h.1
  next =>
    split
    next => rfl
    next => rfl

/-- A task that is linked and in `TASK_RUNNING` when the pick is made was
linked before, and did not block. -/
theorem leave_linked (hstate : how ≠ .stay → (l.task p).state ≠ taskRunning)
    (hlinked : ((l.leave c p how).task p).linked = true)
    (hrun : ((l.leave c p how).task p).state = taskRunning) :
    (l.task p).linked = true ∧ how ≠ .block ∧ (how = .stay → (l.task p).state = taskRunning) := by
  cases how with
  | stay => exact ⟨hlinked, by decide, fun _ => hrun⟩
  | signalled =>
    have hbits : ((l.setState p taskRunning).task p).linked = (l.task p).linked :=
      (setState_bits l p taskRunning p).1
    exact ⟨hbits.symm.trans hlinked, by decide, fun h => absurd h (by decide)⟩
  | block =>
    have hb : ((l.block c p).task p).state = (l.task p).state := by
      unfold block
      dsimp only
      split
      next =>
        rw [setOnRq, setTask_task, if_pos rfl]
        exact (dequeue_frame c p l).state p
      next => exact (dequeue_frame c p l).state p
    exact absurd (hb.symm.trans hrun) (hstate (by decide))

end Links

/-! ## The conditions -/

/-- A linked task whose slice is used up blocks, or is put while it is not in
`TASK_RUNNING`. -/
def leavesKept (s : Sys) (a : Act) : Prop :=
  ∀ x ∈ leaves s a, (s.task (s.rq x.1).curr).schedClass = .hvf →
    (s.task (s.rq x.1).curr).hvf.onRq = true →
    (s.task (s.rq x.1).curr).hvf.sliceExpired = true →
    x.2 = .block ∨ (x.2 = .stay ∧ (s.task (s.rq x.1).curr).isRunning = false)

/-- An HVF task that is activated is not linked. -/
def activatesUnlinked (s : Sys) (a : Act) : Prop :=
  ∀ x ∈ activates s a, (s.task x.1).schedClass = .hvf → (s.task x.1).hvf.onRq = false

/-- The put of a class change finds a task with time left, or one that is not
linked. -/
def PutKept (s : Sys) (p : TaskId) : Prop :=
  s.isCurrent p = true → (s.task p).isRunning = true → (s.task p).hvf.sliceExpired = true →
    (s.task p).hvf.onRq = false ∨
      ((s.task p).isQueued = true ∧ (s.rq (s.task p).cpu).hvf.curr ≠ some p)

/-- The enqueue of a class change inside HVF finds a task that was taken off. -/
def RequeueKept (s : Sys) (p : TaskId) : Prop :=
  (s.task p).isQueued = true →
    ¬ (s.isCurrent p = true ∧ (s.task p).isRunning = true) ∧
    ((s.task p).hvf.onRq = true →
      (s.rq (s.task p).cpu).hvf.curr ≠ some p ∨ (s.task p).isRunning = false)

/-- A task that enters HVF with a new value is not linked. -/
def EntryKept (s : Sys) (p : TaskId) : Prop :=
  (s.task p).isQueued = true ∨ (s.task p).parsSet = false → (s.task p).hvf.onRq = false

instance (s : Sys) (p : TaskId) : Decidable (PutKept s p) :=
  inferInstanceAs (Decidable (_ → _ → _ → _))

instance (s : Sys) (p : TaskId) : Decidable (RequeueKept s p) :=
  inferInstanceAs (Decidable (_ → _))

instance (s : Sys) (p : TaskId) : Decidable (EntryKept s p) := inferInstanceAs (Decidable (_ → _))

def changesKept (s : Sys) (a : Act) : Prop :=
  ∀ x ∈ classTarget s a,
    ((s.task x.1).schedClass = .hvf → PutKept s x.1 ∧ (x.2 = .hvf → RequeueKept s x.1)) ∧
    ((s.task x.1).schedClass ≠ .hvf → x.2 = .hvf → EntryKept s x.1)

instance (s : Sys) (a : Act) : Decidable (leavesKept s a) :=
  inferInstanceAs (Decidable (∀ x ∈ leaves s a, _ → _))

instance (s : Sys) (a : Act) : Decidable (activatesUnlinked s a) :=
  inferInstanceAs (Decidable (∀ x ∈ activates s a, _ → _))

instance (s : Sys) (a : Act) : Decidable (changesKept s a) :=
  inferInstanceAs (Decidable (∀ x ∈ classTarget s a, _ ∧ _))

/-- No step writes the value of a linked entity, and all values stay on the
scale. -/
def keysKept (E : Env) (s : Sys) (a : Act) : Prop :=
  (flagsKept s a ∧ scaleKept E s a) ∧ leavesKept s a ∧ activatesUnlinked s a ∧ changesKept s a

instance (E : Env) (s : Sys) (a : Act) : Decidable (keysKept E s a) :=
  inferInstanceAs (Decidable ((_ ∧ _) ∧ _ ∧ _ ∧ _))

/-! ## A reschedule -/

theorem Sorted.start {how : Links.Leave} (h : Sorted s)
    (hstart : (s₀ = s ∧ (s.task (s.rq c).curr).state ≠ taskDead) ∨
      (how = .block ∧ s.isLive (s.rq c).curr = true ∧
        s₀ = setTaskState (s.rq c).curr taskDead s)) : Sorted s₀ := by
  rcases hstart with ⟨hs, -⟩ | ⟨-, -, hs⟩
  · rw [hs]
    exact h
  · rw [hs]
    exact h.setTask rfl

theorem Sorted.switchTo (h : Sorted s) (prev next : TaskId) :
    Sorted (switchTo c prev next s) := by
  refine h.same ?_ (SameAccounts.of_data (.switchTo c prev next s)).value
  intro d
  unfold HvfSched.switchTo
  split
  next =>
    rw [setRq_rq]
    split
    next hd => rw [hd]
    next => rfl
  next =>
    dsimp only
    rw [setRq_rq]
    split
    next hd => rw [hd]; rfl
    next => rfl

/-- When the pick is made, a linked task that runs on has time left in its
slice. -/
theorem leave_key {how : Links.Leave} {mode : SchedMode} {sig : Signals} {s₁ : Sys}
    (hkept : leavesKept s a) (hleave : leaves s a = some (c, how))
    (hstart : (s₀ = s ∧ (s.task (s.rq c).curr).state ≠ taskDead) ∨
      (how = .block ∧ s.isLive (s.rq c).curr = true ∧
        s₀ = setTaskState (s.rq c).curr taskDead s))
    (hhow : how = leaveOf mode sig (s₀.task (s.rq c).curr))
    (hprev : leavePrev E c mode sig s₀ = .ok s₁)
    (hcls : (s.task (s.rq c).curr).schedClass = .hvf)
    (hrun : (s₁.task (s.rq c).curr).isRunning = true)
    (hflag : (s₁.task (s.rq c).curr).hvf.onRq = true) :
    (s₁.task (s.rq c).curr).hvf.sliceExpired = false := by
  have hup := upToPick hstart hhow hprev
  have hexp : (s₁.task (s.rq c).curr).hvf.sliceExpired
      = (s.task (s.rq c).curr).hvf.sliceExpired := congrArg Account.expired (hup.same.account _)
  have hflag₀ : ((s₀.links.leave c (s.rq c).curr how).task (s.rq c).curr).linked = true := by
    rw [← hup.links]
    exact hflag
  have hrun₀ : ((s₀.links.leave c (s.rq c).curr how).task (s.rq c).curr).state = taskRunning := by
    rw [← hup.links]
    exact (isRunning_iff _).mp hrun
  -- it did not block, so it was linked before
  obtain ⟨hlinked, hstay, hawake⟩ := Links.leave_linked
    (fun hne => leaveOf_ne_stay (by rw [hhow] at hne; exact hne)) hflag₀ hrun₀
  rw [hexp]
  by_contra hne
  rcases hstart with ⟨h₀, -⟩ | ⟨hblock, -, -⟩
  · rw [h₀] at hlinked hawake
    rcases hkept (c, how) hleave hcls hlinked (Bool.eq_true_of_not_eq_false hne) with hblock | hsleep
    · exact hstay hblock
    · have hrun := (isRunning_iff _).mpr (hawake hsleep.1)
      exact Bool.false_ne_true (hsleep.2.symm.trans hrun)
  · exact hstay hblock

/-- The middle of a reschedule, up to the context switch. -/
theorem reschedule_sorted {how : Links.Leave} {next : TaskId} {s₁ s₂ : Sys} {mode : SchedMode}
    {sig : Signals} (hb : Base s) (ho : Sorted s) (hs : Scaled s) (hsafe : scaleKept E s a)
    (hkept : leavesKept s a) (hleave : leaves s a = some (c, how))
    (hstart : (s₀ = s ∧ (s.task (s.rq c).curr).state ≠ taskDead) ∨
      (how = .block ∧ s.isLive (s.rq c).curr = true ∧
        s₀ = setTaskState (s.rq c).curr taskDead s))
    (hhow : how = leaveOf mode sig (s₀.task (s.rq c).curr))
    (hprev : leavePrev E c mode sig s₀ = .ok s₁)
    (hto : next ≠ (s.rq c).curr → switchesTo E s a = some next)
    (hset : putPrevSetNextTask E c (s.rq c).curr next s₁ = .ok s₂) : Sorted s₂ := by
  have hup := upToPick hstart hhow hprev
  have ho₁ := (ho.start hstart).leavePrev hprev
  rcases putPrevSetNextTask_cases hset with ⟨-, h₂⟩ | ⟨hne, hset⟩
  · rw [h₂]
    exact ho₁
  · refine Sorted.setNextTask ?_ hset
    by_cases hcls : (s.task (s.rq c).curr).schedClass = .hvf
    · have hhow₀ : how = leaveOf mode sig (s₀.task (s₀.rq c).curr) := by
        rw [hup.start]
        exact hhow
      have hmid := midSchedule (hb.start hstart) hhow₀ hprev
      have hcpu := (hmid.base.running_hvf hup.curr (hup.schedClass.trans hcls)).2
      have hputs := work_leaves hleave hstart hhow hprev (switchesTo_ne hto hne)
      exact (Keyed.putPrevTask (hsafe _ (valueSubject_leaves hleave hcls)) hs hup.same
        hmid.base.trees ho₁ hputs hcpu (leave_key hkept hleave hstart hhow hprev hcls)).sorted
    · rw [putPrevTask, if_neg (by rw [hup.schedClass]; exact hcls)]
      exact ho₁

/-! ## Activations and class changes -/

theorem Sorted.wakeupPreempt (h : Sorted s) (thisCpu c : Cpu) (p : TaskId) :
    Sorted (wakeupPreempt thisCpu c p s) := by
  refine h.same ?_ (wakeupPreempt_value thisCpu c p s)
  intro d
  rw [wakeupPreempt_hvf]

theorem activate_sorted {dest thisCpu : Cpu} {v flags : Mask} {s₁ : Sys} (ht : Trees s)
    (ho : Sorted s) (hs : Scaled s) (hsafe : scaleKept E s a) (hkept : activatesUnlinked s a)
    (hact : activates s a = some (p, dest))
    (hmove : (s.task p).cpu ≠ dest → (s.task p).hvf.onRq = false)
    (h : activateTask E dest p flags (setTaskCpu p dest (setTaskState p v s)) = .ok s₁)
    (hend : (v = taskRunning ∧ s' = wakeupPreempt thisCpu dest p s₁) ∨
      s' = setTaskState p taskRunning (wakeupPreempt thisCpu dest p s₁))
    (hentry : isEntry flags = a.isNew ∧ isEntry (flags ||| enqueueMigrated) = a.isNew) :
    Sorted s' := by
  have hplaced := ht.place (v := v) hmove
  have hstart : SameAccounts s (setTaskCpu p dest (setTaskState p v s)) :=
    (SameAccounts.setTask s (by rfl)).trans (.setTask _ (by rfl))
  have hst : Sorted (setTaskState p v s) := ho.setTask rfl
  have ho₀ : Sorted (setTaskCpu p dest (setTaskState p v s)) := hst.setTask rfl
  have hself : (setTaskCpu p dest (setTaskState p v s)).task p
      = { s.task p with state := v, cpu := dest } := by
    rw [setTaskCpu, setTask_self, setTaskState, setTask_self]
  have ho₁ : Sorted s₁ := by
    obtain ⟨s₂, h₂, h₃⟩ := activateTask_cases h
    rw [h₃]
    refine Sorted.setTask ?_ rfl
    by_cases hcls : (s.task p).schedClass = .hvf
    · obtain ⟨hputs, henq, hinits⟩ := work_activates (E := E) hact
      have hk : Keyed E s p (work E s a) 0 (setTaskCpu p dest (setTaskState p v s)) :=
        ⟨.of_same hstart, hplaced, ho₀⟩
      refine (hk.enqueueTask (hsafe p (valueSubject_activates hact hcls)) hs
        (.of_same hstart hcls hputs) (Nat.zero_le 1) henq ?_ ?_ ?_ h₂).sorted
      · exact (activateFlags_isEntry hentry).trans hinits.symm
      · intro _
        rw [hself]
        exact hkept (p, dest) hact hcls
      · rw [hself]
    · rw [enqueueTask, if_neg (by rw [hself]; exact hcls)] at h₂
      injection h₂ with h₂
      rw [← h₂]
      exact ho₀.setRq rfl
  rcases hend with ⟨-, h'⟩ | h'
  · rw [h']
    exact ho₁.wakeupPreempt thisCpu dest p
  · rw [h']
    exact (ho₁.wakeupPreempt thisCpu dest p).setTask rfl

theorem Keyed.takeOff {w : Work} (hB : ((s₀.task p).budget E s₀.reads w).Safe)
    (hs₀ : Scaled s₀) (hs : SameAccounts s₀ s) (ht : Trees s) (ho : Sorted s)
    (hcls : (s₀.task p).schedClass = .hvf) (hcls' : (s.task p).schedClass = .hvf)
    (hw : w.TakesOff s p) (hkept : PutKept s p) (h : takeOff E p s = .ok s') :
    Keyed E s₀ p w 1 s' := by
  refine ⟨(takeOff_tracked hs hcls hcls' hw h).1, ht.takeOff h, ?_⟩
  obtain ⟨s₁, h₁, h₂⟩ := takeOff_cases h
  have hd : SameAccounts s₀ s₁ ∧ Trees s₁ ∧ Sorted s₁ := by
    rcases h₁ with ⟨-, b, hr⟩ | ⟨-, h₁⟩
    · exact ⟨hs.trans (.of_data (.dequeueTask hr)), ht.dequeueTask hr, ho.dequeueTask hr⟩
    · rw [h₁]
      exact ⟨hs, ht, ho⟩
  obtain ⟨hs₁, ht₁, ho₁⟩ := hd
  -- the dequeue keeps CPU and state, and unlinks the task where it can
  have hbits : (s₁.task p).cpu = (s.task p).cpu ∧ (s₁.task p).isRunning = (s.task p).isRunning ∧
      ((s₁.task p).hvf.onRq = true → (s.task p).hvf.onRq = true ∧
        ¬ ((s.task p).isQueued = true ∧ (s.rq (s.task p).cpu).hvf.curr ≠ some p)) := by
    rcases h₁ with ⟨-, b, hr⟩ | ⟨hq, h₁⟩
    · have hl := congrArg Prod.snd (links_dequeueTask hr)
      have hf := Links.dequeue_frame (s.task p).cpu p s.links
      have htask : s₁.links.task p = (s.links.dequeue (s.task p).cpu p).2.task p :=
        congrArg (fun l => l.task p) hl
      refine ⟨?_, ?_, ?_⟩
      · exact (congrArg TaskLink.cpu htask).trans (hf.cpu p)
      · have hst : (s₁.task p).state = (s.task p).state :=
          (congrArg TaskLink.state htask).trans (hf.state p)
        unfold TaskStruct.isRunning
        rw [hst]
      · intro hflag
        have hflag' : ((s.links.dequeue (s.task p).cpu p).2.task p).linked = true := by
          rw [← htask]
          exact hflag
        refine ⟨Links.dequeue_linked_le hflag', ?_⟩
        intro hrec
        have hun := Links.dequeue_unlinks (l := s.links) (c := (s.task p).cpu) hcls'
          fun _ => Or.inl hrec.2
        exact Bool.false_ne_true (hun.symm.trans hflag')
    · rw [h₁]
      exact ⟨rfl, rfl, fun hflag => ⟨hflag, fun hc => Bool.eq_false_iff.mp hq hc.1⟩⟩
  rw [h₂]
  split
  next hrunning =>
    have hputs := hw.puts_of_dequeue hcls' hrunning h₁
    refine (Keyed.putPrevTask hB hs₀ hs₁ ht₁ ho₁ hputs hbits.1 ?_).sorted
    intro hrun hflag
    obtain ⟨hflag₀, hrec⟩ := hbits.2.2 hflag
    have hexp : (s₁.task p).hvf.sliceExpired = (s.task p).hvf.sliceExpired :=
      congrArg Account.expired ((hs₁.account p).trans (hs.account p).symm)
    rw [hexp]
    by_contra hne
    rcases hkept hrunning (hbits.2.1 ▸ hrun) (Bool.eq_true_of_not_eq_false hne) with hoff | hq
    · rw [hoff] at hflag₀
      cases hflag₀
    · exact hrec hq
  next => exact ho₁

theorem Keyed.putBack {queued running : Bool} {flags : Mask} {w : Work}
    (hB : ((s₀.task p).budget E s₀.reads w).Safe) (hs₀ : Scaled s₀) (h : Keyed E s₀ p w n s)
    (hp : Pending E s₀ p w s) (hn : n ≤ 1)
    (hw : queued = true → (s.task p).schedClass = .hvf → w.enqueues = true)
    (hentry : isEntry flags = w.inits)
    (hflag : queued = true → (s.task p).schedClass = .hvf → (s.task p).hvf.onRq = false)
    (hb : putBack E p queued running flags s = .ok s') : Sorted s' := by
  rcases putBack_cases hb with ⟨hq, he⟩ | ⟨-, hs⟩
  · by_cases hcls : (s.task p).schedClass = .hvf
    · exact (h.enqueueTask hB hs₀ hp hn (hw hq hcls) hentry (hflag hq) rfl he).sorted
    · rcases enqueueTask_cases he with ⟨hcls', -⟩ | ⟨-, hs⟩
      · exact absurd hcls' hcls
      · rw [hs]
        exact h.sorted.setRq rfl
  · rw [hs]
    exact h.sorted

theorem Sorted.takeOff_other (h : Sorted s) (hcls : (s.task p).schedClass ≠ .hvf)
    (ht : takeOff E p s = .ok s') : Sorted s' := by
  obtain ⟨s₁, h₁, h₂⟩ := takeOff_cases ht
  have hd : Sorted s₁ ∧ (s₁.task p).schedClass ≠ .hvf := by
    rcases h₁ with ⟨-, b, hr⟩ | ⟨-, h₁⟩
    · refine ⟨h.dequeueTask hr, ?_⟩
      intro hcls₁
      exact hcls ((dequeueTask_bits hr p).1.symm.trans hcls₁)
    · rw [h₁]
      exact ⟨h, hcls⟩
  rw [h₂, putPrevTask, if_neg hd.2, ite_self]
  exact hd.1

theorem Sorted.putBack_other {queued running : Bool} {flags : Mask} (h : Sorted s)
    (hcls : (s.task p).schedClass ≠ .hvf) (hp : putBack E p queued running flags s = .ok s') :
    Sorted s' := by
  rcases putBack_cases hp with ⟨-, he⟩ | ⟨-, hs⟩
  · rcases enqueueTask_cases he with ⟨hcls', -⟩ | ⟨-, hs⟩
    · exact absurd hcls' hcls
    · rw [hs]
      exact h.setRq rfl
  · rw [hs]
    exact h

/-- The `switching_to` hook computes a value only for a task without
parameters. -/
theorem Sorted.checkClassChanging {cls : SchedClass} (h : Sorted s) (ht : Trees s)
    (hflag : (s.task p).parsSet = false → (s.task p).hvf.onRq = false)
    (hc : checkClassChanging E p cls s = .ok s') : Sorted s' := by
  rcases checkClassChanging_cases hc with ⟨-, hg⟩ | ⟨-, hs⟩
  · rcases giveDefaults_cases hg with ⟨-, hs⟩ | ⟨hunset, t, -, hs⟩
    · rw [hs]
      exact h
    · rw [hs]
      refine h.write ht (hflag hunset) rfl ?_
      intro q hq
      rw [Sys.value, setTask_ne _ t hq]
      rfl
  · rw [hs]
    exact h

/-- A write of attributes between the halves of a class change. -/
theorem Sorted.setTask_body {t : TaskStruct} (h : Sorted s) (ht : t.body = (s.task p).body) :
    Sorted (s.setTask p t) := by
  have hv := congrArg (fun u : TaskStruct => u.hvf.currSchedValue) ht
  exact h.setTask hv

theorem PutKept.setTask_body {t : TaskStruct} (h : PutKept s p) (ht : t.body = (s.task p).body) :
    PutKept (s.setTask p t) p := by
  have hcpu : t.cpu = (s.task p).cpu := by
    have hc := congrArg TaskStruct.cpu ht
    exact hc
  have hstate : t.state = (s.task p).state := by
    have hc := congrArg TaskStruct.state ht
    exact hc
  have honrq : t.onRq = (s.task p).onRq := by
    have hc := congrArg TaskStruct.onRq ht
    exact hc
  have hhvf : t.hvf = (s.task p).hvf := by
    have hc := congrArg TaskStruct.hvf ht
    exact hc
  unfold PutKept Sys.isCurrent TaskStruct.isRunning TaskStruct.isQueued
  rw [setTask_self, setTask_rq, hcpu, hstate, honrq, hhvf]
  exact h

theorem ChangeStages.sorted_of_hvf {cls : SchedClass} {flags : Mask} {s₃ : Sys} (ht : Trees s)
    (ho : Sorted s) (hs : Scaled s) (hsafe : scaleKept E s a) (hkept : changesKept s a)
    (htarget : classTarget s a = some (p, cls)) (hold : (s.task p).schedClass = .hvf)
    (hentry : isEntry flags = a.initialises) (h : ChangeStages E p cls flags s s₃) :
    Sorted s₃ := by
  obtain ⟨hbody₀, hcls₀, hoff, hbody, hcls, hmid, hback, -⟩ := h
  next t₀ t s₁ s₂ running =>
  have hsₐ : SameAccounts s (s.setTask p t₀) := .setTask s (account_of_body hbody₀)
  have hsₘ : SameAccounts s₁ (s₁.setTask p t) := .setTask s₁ (account_of_body hbody)
  have hlₐ : (s.setTask p t₀).links = s.links := by
    apply links_setTask_same
    rw [link_of_body hbody₀, hcls₀]
    rfl
  have hclsₐ : ((s.setTask p t₀).task p).schedClass = .hvf := by
    rw [setTask_self]
    exact hcls₀.trans hold
  obtain ⟨hput, hrequeue⟩ := (hkept (p, cls) htarget).1 hold
  have hB := hsafe p (valueSubject_change htarget (Or.inl hold))
  obtain ⟨hwold, -, hwenq, hinits⟩ := work_change (E := E) htarget
  have hoffₐ := (hwold hold).of_body hbody₀
  have hk₁ := Keyed.takeOff hB hs hsₐ (ht.setTask_body hbody₀) (ho.setTask_body hbody₀) hold hclsₐ
    hoffₐ (hput.setTask_body hbody₀) hoff
  have hpₘ := (takeOff_tracked hsₐ hold hclsₐ hoffₐ hoff).2.same hsₘ
  have hkₘ : Keyed E s p (work E s a) 1 (s₁.setTask p t) :=
    ⟨hk₁.tracked.same hsₘ, hk₁.trees.setTask_body hbody, hk₁.sorted.setTask_body hbody⟩
  -- a task of the class does not come into it: no hook in between
  rw [checkClassChanging_old hold hmid] at hback
  have hclsₘ : ((s₁.setTask p t).task p).schedClass = cls := by
    rw [setTask_self]
    exact hcls
  refine hkₘ.putBack hB hs hpₘ (Nat.le_refl 1) ?_ (hentry.trans hinits.symm) ?_ hback
  · exact fun hq hnew => hwenq hq (hclsₘ.symm.trans hnew)
  intro hq hnew
  rw [setTask_self] at hnew
  obtain ⟨hrun, hrec⟩ := hrequeue (hcls.symm.trans hnew) hq
  have hflag : ((s₁.setTask p t).task p).hvf.onRq = ((s.links.takeOff p).task p).linked := by
    have hb := congrArg (fun u : TaskStruct => u.hvf.onRq) hbody
    rw [setTask_self, ← hlₐ, ← links_takeOff hoff]
    exact hb
  rw [hflag]
  refine Links.takeOff_unlinks hold ((isQueued_iff _).mp hq) ?_ ?_
  · intro hcan
    exact hrun ⟨(isCurrent_iff s p).mpr hcan.1, (isRunning_iff _).mpr hcan.2⟩
  · intro hlinked
    rcases hrec hlinked with hne | hsleep
    · exact Or.inl hne
    · refine Or.inr ?_
      intro hstate
      exact Bool.false_ne_true (hsleep.symm.trans ((isRunning_iff _).mpr hstate))

theorem ChangeStages.sorted_of_other {cls : SchedClass} {flags : Mask} {s₃ : Sys} (ht : Trees s)
    (ho : Sorted s) (hs : Scaled s) (hsafe : scaleKept E s a) (hkept : changesKept s a)
    (htarget : classTarget s a = some (p, cls)) (hold : (s.task p).schedClass ≠ .hvf)
    (hentry : isEntry flags = a.initialises) (h : ChangeStages E p cls flags s s₃) :
    Sorted s₃ := by
  obtain ⟨hbody₀, hcls₀, hoff, hbody, hcls, hmid, hback, -⟩ := h
  next t₀ t s₁ s₂ running =>
  have holdₐ : ((s.setTask p t₀).task p).schedClass ≠ .hvf := by
    rw [setTask_self, hcls₀]
    exact hold
  have hsₐ : SameAccounts s (s.setTask p t₀) := .setTask s (account_of_body hbody₀)
  have hsₘ : SameAccounts s₁ (s₁.setTask p t) := .setTask s₁ (account_of_body hbody)
  have hsame := (hsₐ.trans (.of_data (.takeOff holdₐ hoff))).trans hsₘ
  have htₘ := ((ht.setTask_body hbody₀).takeOff hoff).setTask_body hbody
  have hoₘ := ((ho.setTask_body hbody₀).takeOff_other holdₐ hoff).setTask_body hbody
  have hclsₘ : ((s₁.setTask p t).task p).schedClass = cls := by
    rw [setTask_self]
    exact hcls
  -- the flag is the old one: the class has not touched the task so far
  have hflagₘ : ((s₁.setTask p t).task p).hvf.onRq = (s.task p).hvf.onRq := by
    have hb := congrArg (fun u : TaskStruct => u.hvf.onRq) hbody
    have hb₀ := congrArg (fun u : TaskStruct => u.hvf.onRq) hbody₀
    rw [setTask_self]
    refine hb.trans (Eq.trans ?_ hb₀)
    have hl := congrArg (fun l => (l.task p).linked) (links_takeOff hoff)
    rw [Links.takeOff_other holdₐ] at hl
    refine hl.trans ?_
    show ((s.setTask p t₀).task p).hvf.onRq = _
    rw [setTask_self]
    rfl
  by_cases hnew : cls = .hvf
  · have hfree := (hkept (p, cls) htarget).2 hold hnew
    obtain ⟨-, hwnew, hwenq, hinits⟩ := work_change (E := E) htarget
    obtain ⟨hputs, henters⟩ := hwnew hold
    obtain ⟨htr, hp₂⟩ := checkClassChanging_tracked hsame hold (hclsₘ.trans hnew) hputs
      (henters hnew) hmid
    have hk₂ : Keyed E s p (work E s a) 1 s₂ := by
      refine ⟨htr, htₘ.checkClassChanging hmid, hoₘ.checkClassChanging htₘ ?_ hmid⟩
      intro hunset
      have hset := congrArg Account.parsSet (hsame.account p)
      rw [hflagₘ]
      exact hfree (Or.inr (hset.symm.trans hunset))
    refine hk₂.putBack (hsafe p (valueSubject_change htarget (Or.inr hnew))) hs hp₂
      (Nat.le_refl 1) (fun hq _ => hwenq hq hnew) (hentry.trans hinits.symm) ?_ hback
    intro hq _
    have hl₂ := congrArg (fun l => (l.task p).linked) (links_checkClassChanging hmid)
    have hflag₂ : (s₂.task p).hvf.onRq = ((s₁.setTask p t).task p).hvf.onRq := hl₂
    rw [hflag₂, hflagₘ]
    exact hfree (Or.inl hq)
  · have hclsne : ((s₁.setTask p t).task p).schedClass ≠ .hvf := by
      rw [hclsₘ]
      exact hnew
    rcases checkClassChanging_cases hmid with ⟨hcome, -⟩ | ⟨-, h₂⟩
    · exact absurd hcome.2 hclsne
    · rw [h₂] at hback
      exact hoₘ.putBack_other hclsne hback

theorem ClassChange.sorted {cls : SchedClass} (ht : Trees s) (ho : Sorted s) (hs : Scaled s)
    (hsafe : scaleKept E s a) (hkept : changesKept s a) (htarget : classTarget s a = some (p, cls))
    (h : ClassChange E p cls a.initialises s s') : Sorted s' := by
  obtain ⟨hbody₀, hcls₀, hoff, hbody, hcls, hmid, hback, hend, hentry, hrefresh⟩ := h
  next t₀ t s₁ s₂ s₃ running flags =>
  have hst : ChangeStages E p cls flags s s₃ :=
    .mk hbody₀ hcls₀ hoff hbody hcls hmid hback hrefresh
  have ho₃ : Sorted s₃ := by
    by_cases hold : (s.task p).schedClass = .hvf
    · exact hst.sorted_of_hvf ht ho hs hsafe hkept htarget hold hentry
    · exact hst.sorted_of_other ht ho hs hsafe hkept htarget hold hentry
  rcases hend with h' | ⟨-, h'⟩ | ⟨c, h'⟩
  · rw [h']
    exact ho₃
  · rw [h']
    exact ho₃.setTask (clearHvfValues_value _)
  · rw [h']
    exact ho₃.setRq rfl

/-! ## Runs -/

theorem step_sorted (hb : Base s) (ho : Sorted s) (hs : Scaled s) (hok : keysKept E s a)
    (hstep : step E s a = some s') : Sorted s' := by
  obtain ⟨⟨hflags, hsafe⟩, hleaves, hacts, hchanges⟩ := hok
  cases step_case hstep with
  | quiet _ hrq hv => exact ho.same (fun c => by rw [hrq]) hv
  | state _ _ _ _ _ _ hrq hv => exact ho.same (fun c => by rw [hrq]) hv
  | reschedule c how next s₀ s₁ s₂ mode sig picks hleave hstart hhow hprev _ _ hset hs' =>
    have hto := switchesTo_of_step hstep hleave hs'
    rw [hs']
    exact (reschedule_sorted hb ho hs hsafe hleaves hleave hstart hhow hprev hto hset).switchTo _ _
  | activate p dest thisCpu v flags s₁ hact _ _ _ _ ha hend hentry =>
    exact activate_sorted hb.trees ho hs hsafe hacts hact (hflags.2 (p, dest) hact) ha hend hentry
  | change p cls htarget _ hc => exact hc.sorted hb.trees ho hs hsafe hchanges htarget
  | bury c p _ _ hf => exact ho.finishTaskSwitch hf
  | fork c t _ _ _ hs' =>
    rw [hs']
    -- the child's slot was empty: no tree holds it
    refine ho.write hb.trees (p := .task s.nextPid) (hb.sound.fresh s.nextPid (Nat.le_refl _)).1
      rfl ?_
    intro q hq
    have hne : (addTask (finishChild c t) s).task q = s.task q := if_neg hq
    rw [Sys.value, hne, Sys.value]

theorem boot_sorted : Sorted boot := by
  intro c
  exact ⟨List.nodup_nil, List.Pairwise.nil, rfl⟩

theorem reached_sorted {ok : Sys → Act → Prop} (hok : ∀ s a, ok s a → keysKept E s a)
    (h : Reached E ok s) : Base s ∧ Scaled s ∧ Sorted s := by
  refine Reach.invariant (fun s => Base s ∧ Scaled s ∧ Sorted s) ?_ ?_ h
  · intro s hs
    rw [hs]
    exact ⟨boot_base, boot_scaled, boot_sorted⟩
  · rintro s a s' ⟨hb, hs, ho⟩ hk hstep
    have hkeys := hok s a hk
    exact ⟨step_base hb hkeys.1.1 hstep, step_scaled hs hkeys.1.2 hstep,
      step_sorted hb ho hs hkeys hstep⟩

/-! ## The maximum -/

theorem tree_sorted_by_current_value (E : Env) (s : Sys) (h : Reached E (keysKept E) s) (c : Cpu) :
    (s.queue c).Pairwise (fun p q => s.value p ≤ s.value q) ∧
    ((s.rq c).hvf.maxValueEntity = none ↔ s.queue c = []) ∧
    (∀ m, (s.rq c).hvf.maxValueEntity = some m →
      m ∈ s.queue c ∧ ∀ q ∈ s.queue c, s.value q ≤ s.value m) ∧
    (s.queue c ≠ [] →
      ∃ m ∈ s.queue c, pickTaskHvf s c = .ok m ∧ ∀ q ∈ s.queue c, s.value q ≤ s.value m) := by
  have ho := (reached_sorted (fun _ _ hk => hk) h).2.2 c
  refine ⟨?_, ?_, fun m hm => ho.max_mem hm, ?_⟩
  · exact ho.sorted.imp fun hpq => Int64.le_iff_toInt_le.mpr hpq
  · rw [ho.max]
    exact List.getLast?_eq_none_iff
  · intro hne
    obtain ⟨m, hpick, hmax⟩ := ho.pickTaskHvf hne
    obtain ⟨hmem, hall⟩ := ho.max_mem hmax
    exact ⟨m, hmem, hpick, hall⟩

/-- One of three tasks has run, used up its slice and gone back in front of
another; the third one runs. -/
theorem tree_sorted_by_current_value_after_slice :
    ∃ s, Reached wallEnv (keysKept wallEnv) s ∧
      (s.queue 0 = [.task 1, .task 3] ∧ s.value (.task 1) = 99 ∧ s.value (.task 3) = 100) ∧
      (s.queue 0).Pairwise (fun p q => s.value p ≤ s.value q) ∧
      ((s.rq 0).hvf.maxValueEntity = none ↔ s.queue 0 = []) ∧
      (∀ m, (s.rq 0).hvf.maxValueEntity = some m →
        m ∈ s.queue 0 ∧ ∀ q ∈ s.queue 0, s.value q ≤ s.value m) ∧
      (s.queue 0 ≠ [] →
        ∃ m ∈ s.queue 0, pickTaskHvf s 0 = .ok m ∧ ∀ q ∈ s.queue 0, s.value q ≤ s.value m) := by
  obtain ⟨s, hs, hf⟩ := Reached.of_check
    (b := ([TaskId.task 1, .task 3], (99 : Long), (100 : Long))) wallEnv (keysKept wallEnv)
    (fun s => (s.queue 0, s.value (.task 1), s.value (.task 3)))
    (startFirst ++ [.fork 0, .wakeNew 0 (.task 1) 0, .fork 0, .wakeNew 0 (.task 2) 0, .fork 0,
      .wakeNew 0 (.task 3) 0,
      .setscheduler permissive (.task 1) (plainAttr 8) true true,
      .setscheduler permissive (.task 2) (plainAttr 8) true true,
      .setscheduler permissive (.task 3) (plainAttr 8) true true,
      .setState 0 taskInterruptible, .schedule 0 .smNone ⟨false, false⟩ pickNone, .tick 0,
      .schedule 0 .smPreempt ⟨false, false⟩ pickNone])
    (by decide +kernel)
  injection hf with hq hv
  injection hv with h₁ h₃
  exact ⟨s, hs, ⟨hq, h₁, h₃⟩, tree_sorted_by_current_value wallEnv s hs 0⟩

/-- A task switches itself to HVF, so it runs while it is linked; its slice is
used up and a fair task takes the CPU. Its value is reduced in place, below
that of the task in front of it, and it is still the cached maximum. -/
theorem linked_task_is_reduced_in_place :
    ∃ s, Reached sampleEnv (fun _ _ => True) s ∧
      s.queue 0 = [.task 1, .task 0] ∧ s.value (.task 0) < s.value (.task 1) ∧
      pickTaskHvf s 0 = .ok (.task 0) := by
  refine Reached.exists_of_eval sampleEnv
    (startFirst ++ [.fork 0, .fork 0, .wakeNew 0 (.task 1) 0, .wakeNew 0 (.task 2) 0,
      .setscheduler permissive (.task 0) (plainAttr 8) true true,
      .setscheduler permissive (.task 1) (plainAttr 8) true true, .tick 0,
      .schedule 0 .smPreempt ⟨false, false⟩ (pickFair (.task 2))]) ?_
  decide +kernel

end HvfSched
