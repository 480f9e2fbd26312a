import HvfSched.Lib.Count
import HvfSched.Links.Sound

/-!
# Members of the class

`Members` says of the bookkeeping that only runnable HVF tasks are linked or
pointed to by `hvf_rq->curr`, and that `nr_running` is the number of tasks on
the runqueue, a count over the pids handed out. `RunningQueued` says that the
tasks that run are on the runqueue.

Every operation keeps both, except the class change of a runnable HVF task: a
dequeue, a `put_prev`, a write of the class and an enqueue. The four calls add
up in two ways. Either the dequeue takes the task out (`Out`) and the enqueue
counts it again, or the task stays inside (`Still`) and the enqueue refuses
it. `ChangeClean` says when one of the two happens.
-/

namespace HvfSched.Links

open Lib

variable {l l' : Links} {c : Cpu} {p next : TaskId} {how : Leave} {cls : SchedClass}

/-- `p` is on the runqueue of `c`. -/
def OnRunqueue (l : Links) (c : Cpu) (p : TaskId) : Prop :=
  (l.task p).onRq = .queued ∧ (l.task p).cpu = c

instance (l : Links) (c : Cpu) (p : TaskId) : Decidable (OnRunqueue l c p) :=
  inferInstanceAs (Decidable (_ ∧ _))

/-- The number of tasks on the runqueue of `c`. -/
def runnable (l : Links) (c : Cpu) : Nat := Nat.count (fun n => l.OnRunqueue c (.task n)) l.nextPid

/-- Only runnable HVF tasks are linked or pointed to, and `nr_running` is the
number of runnable tasks. -/
structure Members (l : Links) : Prop where
  linked : ∀ p, (l.task p).linked = true →
    (l.task p).schedClass = .hvf ∧ (l.task p).onRq = .queued
  hvfCurr : ∀ c p, (l.rq c).hvfCurr = some p →
    (l.task p).schedClass = .hvf ∧ l.OnRunqueue c p
  count : ∀ c, (l.rq c).nrRunning = l.runnable c

/-- The tasks that run are on the runqueue. -/
def RunningQueued (l : Links) : Prop :=
  ∀ c, l.isLive (l.rq c).curr = true → (l.task (l.rq c).curr).onRq = .queued

/-- The count, when one task changes. -/
theorem runnable_change (hlive : l.isLive p = true) (hpid : l'.nextPid = l.nextPid)
    (htask : ∀ q, q ≠ p → l'.task q = l.task q) (c : Cpu) :
    (l'.runnable c : Int) - indicator (l'.OnRunqueue c p)
      = l.runnable c - indicator (l.OnRunqueue c p) := by
  cases p with
  | idle d => cases hlive
  | task n =>
    unfold runnable
    rw [hpid]
    refine count_change (P := fun n => l.OnRunqueue c (.task n))
      (Q := fun n => l'.OnRunqueue c (.task n)) (of_decide_eq_true hlive) ?_
    intro j hj
    rw [OnRunqueue, OnRunqueue, htask (.task j)]
    intro e
    injection e with e
    exact hj e

namespace Members

/-- A task that is off the runqueue is neither linked nor pointed to. -/
theorem off (h : Members l) (hoff : (l.task p).onRq ≠ .queued) :
    (l.task p).linked = false ∧ ∀ c, (l.rq c).hvfCurr ≠ some p := by
  refine ⟨?_, fun c hc => hoff (h.hvfCurr c p hc).2.1⟩
  cases hlinked : (l.task p).linked with
  | false => rfl
  | true => exact absurd (h.linked p hlinked).2 hoff

theorem other (h : Members l) (hcls : (l.task p).schedClass ≠ .hvf) :
    (l.task p).linked = false ∧ ∀ c, (l.rq c).hvfCurr ≠ some p := by
  refine ⟨?_, fun c hc => hcls (h.hvfCurr c p hc).1⟩
  cases hlinked : (l.task p).linked with
  | false => rfl
  | true => exact absurd (h.linked p hlinked).1 hcls

/-- A change of one task: it stays a member in its own right, and every count
moves with it. -/
theorem update (h : Members l) (hlive : l.isLive p = true) (hpid : l'.nextPid = l.nextPid)
    (htask : ∀ q, q ≠ p → l'.task q = l.task q)
    (hlinked : (l'.task p).linked = true →
      (l'.task p).schedClass = .hvf ∧ (l'.task p).onRq = .queued)
    (hself : ∀ d, (l'.rq d).hvfCurr = some p →
      (l'.task p).schedClass = .hvf ∧ l'.OnRunqueue d p)
    (hcurr : ∀ d q, q ≠ p → (l'.rq d).hvfCurr = some q → (l.rq d).hvfCurr = some q)
    (hnr : ∀ d, (l'.rq d).nrRunning - indicator (l'.OnRunqueue d p)
      = (l.rq d).nrRunning - indicator (l.OnRunqueue d p)) : Members l' := by
  refine ⟨?_, ?_, ?_⟩
  · intro q hq
    by_cases hqp : q = p
    · rw [hqp] at hq ⊢
      exact hlinked hq
    · rw [htask q hqp] at hq ⊢
      exact h.linked q hq
  · intro d q hq
    by_cases hqp : q = p
    · rw [hqp] at hq ⊢
      exact hself d hq
    · rw [OnRunqueue, htask q hqp]
      exact h.hvfCurr d q (hcurr d q hqp hq)
  · intro d
    have hcount := runnable_change hlive hpid htask d
    have hold := h.count d
    have hnew := hnr d
    omega

/-- A hook that moves no count, and after which the task it is called for is a
runnable HVF task. -/
theorem of_hook (h : Members l) (hf : Frame c p l l') (hlive : l.isLive p = true)
    (hcls : (l.task p).schedClass = .hvf) (hon : l.OnRunqueue c p)
    (hcurr : ∀ q, q ≠ p → (l'.rq c).hvfCurr = some q → (l.rq c).hvfCurr = some q)
    (hnr : (l'.rq c).nrRunning = (l.rq c).nrRunning) : Members l' := by
  have hcls' : (l'.task p).schedClass = .hvf := by
    rw [hf.schedClass]
    exact hcls
  have hrq : ∀ d, l'.OnRunqueue d p ↔ l.OnRunqueue d p := by
    intro d
    rw [OnRunqueue, OnRunqueue, hf.onRq, hf.cpu]
  refine h.update hlive hf.nextPid hf.task_ne ?_ ?_ ?_ ?_
  · intro _
    exact ⟨hcls', by rw [hf.onRq]; exact hon.1⟩
  · intro d hd
    refine ⟨hcls', ?_⟩
    by_cases hdc : d = c
    · rw [hdc]
      exact (hrq c).mpr hon
    · rw [hf.rq_ne d hdc] at hd
      exact (hrq d).mpr (h.hvfCurr d p hd).2
  · intro d q hqp hq
    by_cases hdc : d = c
    · rw [hdc] at hq ⊢
      exact hcurr q hqp hq
    · rw [hf.rq_ne d hdc] at hq
      exact hq
  · intro d
    rw [indicator_congr (hrq d)]
    by_cases hdc : d = c
    · rw [hdc, hnr]
    · rw [hf.rq_ne d hdc]

/-- Links and pointers only go, and nothing else that counts is touched. -/
theorem weaken (h : Members l) (hpid : l'.nextPid = l.nextPid)
    (hbits : ∀ q, (l'.task q).schedClass = (l.task q).schedClass ∧
      (l'.task q).onRq = (l.task q).onRq ∧ (l'.task q).cpu = (l.task q).cpu)
    (hlinked : ∀ q, (l'.task q).linked = true → (l.task q).linked = true)
    (hcurr : ∀ d q, (l'.rq d).hvfCurr = some q → (l.rq d).hvfCurr = some q)
    (hnr : ∀ d, (l'.rq d).nrRunning = (l.rq d).nrRunning) : Members l' := by
  have hrq : ∀ d q, l'.OnRunqueue d q ↔ l.OnRunqueue d q := by
    intro d q
    rw [OnRunqueue, OnRunqueue, (hbits q).2.1, (hbits q).2.2]
  refine ⟨?_, ?_, ?_⟩
  · intro q hq
    rw [(hbits q).1, (hbits q).2.1]
    exact h.linked q (hlinked q hq)
  · intro d q hq
    rw [(hbits q).1, hrq]
    exact h.hvfCurr d q (hcurr d q hq)
  · intro d
    rw [hnr, h.count, runnable, runnable, hpid]
    exact congrArg Nat.cast (count_congr fun j _ => (hrq d (.task j)).symm)

theorem setState (h : Members l) (v : Mask) : Members (l.setState p v) := by
  have hbits : ∀ q, ((l.setState p v).task q).schedClass = (l.task q).schedClass ∧
      ((l.setState p v).task q).onRq = (l.task q).onRq ∧
      ((l.setState p v).task q).cpu = (l.task q).cpu ∧
      ((l.setState p v).task q).linked = (l.task q).linked := by
    intro q
    rw [Links.setState, setTask_task]
    split
    next hq =>
      rw [hq]
      exact ⟨rfl, rfl, rfl, rfl⟩
    next => exact ⟨rfl, rfl, rfl, rfl⟩
  refine h.weaken rfl (fun q => ⟨(hbits q).1, (hbits q).2.1, (hbits q).2.2.1⟩) ?_
    (fun _ _ hq => hq) (fun _ => rfl)
  intro q hq
  rw [(hbits q).2.2.2] at hq
  exact hq

/-! ## Blocking -/

end Members

/-- `p` has been taken out of the class's bookkeeping on `c`, and uncounted. -/
structure Out (c : Cpu) (p : TaskId) (l l₁ : Links) : Prop where
  frame : Frame c p l l₁
  unlinked : (l₁.task p).linked = false
  notCurr : (l₁.rq c).hvfCurr ≠ some p
  hvfCurr : ∀ q, q ≠ p → (l₁.rq c).hvfCurr = some q → (l.rq c).hvfCurr = some q
  nrRunning : (l₁.rq c).nrRunning = (l.rq c).nrRunning - 1

/-- A dequeue that answers true takes the task out, one that answers false
does nothing. -/
theorem dequeue_out (h : Members l) (hok : (l.dequeue c p).1 = true) :
    Out c p l (l.dequeue c p).2 := by
  have hf := dequeue_frame c p l
  by_cases hcls : (l.task p).schedClass = .hvf
  · by_cases hlink : (l.rq c).hvfCurr ≠ some p ∧ (l.task p).linked = true
    · rw [dequeue_linked hcls hlink.1 hlink.2] at hf ⊢
      refine ⟨hf, by simp, by simpa using hlink.1, ?_, by simp [Int.sub_eq_add_neg]⟩
      intro q _ hq
      simpa using hq
    · by_cases hsleep : (l.rq c).hvfCurr = some p ∧ (l.task p).state ≠ taskRunning
      · rw [dequeue_curr hcls hsleep.1 hsleep.2] at hf ⊢
        refine ⟨hf, by simp, by simp, ?_, by simp [Int.sub_eq_add_neg]⟩
        intro q _ hq
        simp at hq
      · rw [dequeue_missed hcls hlink hsleep] at hok
        cases hok
  · obtain ⟨hunlinked, hcurr⟩ := h.other hcls
    rw [dequeue_other hcls] at hf ⊢
    refine ⟨hf, by simpa using hunlinked, by simpa using hcurr c, ?_, by simp [Int.sub_eq_add_neg]⟩
    intro q _ hq
    simpa using hq

theorem dequeue_false (hok : (l.dequeue c p).1 = false) :
    (l.dequeue c p).2 = l ∧ (l.task p).schedClass = .hvf ∧
      ¬ ((l.rq c).hvfCurr ≠ some p ∧ (l.task p).linked = true) ∧
      ¬ ((l.rq c).hvfCurr = some p ∧ (l.task p).state ≠ taskRunning) := by
  by_cases hcls : (l.task p).schedClass = .hvf
  · by_cases hlink : (l.rq c).hvfCurr ≠ some p ∧ (l.task p).linked = true
    · rw [dequeue_linked hcls hlink.1 hlink.2] at hok
      cases hok
    · by_cases hsleep : (l.rq c).hvfCurr = some p ∧ (l.task p).state ≠ taskRunning
      · rw [dequeue_curr hcls hsleep.1 hsleep.2] at hok
        cases hok
      · rw [dequeue_missed hcls hlink hsleep]
        exact ⟨rfl, hcls, hlink, hsleep⟩
  · rw [dequeue_other hcls] at hok
    cases hok

namespace Members

/-- A task that has been taken out is marked as off the runqueue. -/
theorem setOff {l₁ : Links} (h : Members l) (hlive : l.isLive p = true) (hon : l.OnRunqueue c p)
    (hout : Out c p l l₁) : Members (l₁.setOnRq p .off) := by
  have hp : (l₁.setOnRq p .off).task p = { l₁.task p with onRq := .off } := if_pos rfl
  refine h.update hlive hout.frame.nextPid ?_ ?_ ?_ ?_ ?_
  · intro q hq
    rw [setOnRq, setTask_task, if_neg hq]
    exact hout.frame.task_ne q hq
  · rw [hp]
    intro hlinked
    exact absurd (hout.unlinked.symm.trans hlinked) Bool.false_ne_true
  · intro d hd
    by_cases hdc : d = c
    · rw [hdc] at hd
      exact absurd hd hout.notCurr
    · -- another CPU cannot point to a task of `c`
      have hd' : (l₁.rq d).hvfCurr = some p := hd
      rw [hout.frame.rq_ne d hdc] at hd'
      exact absurd ((h.hvfCurr d p hd').2.2.symm.trans hon.2) hdc
  · intro d q hqp hq
    have hq' : (l₁.rq d).hvfCurr = some q := hq
    by_cases hdc : d = c
    · rw [hdc] at hq' ⊢
      exact hout.hvfCurr q hqp hq'
    · rw [hout.frame.rq_ne d hdc] at hq'
      exact hq'
  · intro d
    have hoff : ¬ (l₁.setOnRq p .off).OnRunqueue d p := by
      rw [OnRunqueue, hp]
      rintro ⟨hq, -⟩
      cases hq
    rw [indicator_neg hoff]
    show (l₁.rq d).nrRunning - 0 = _
    by_cases hdc : d = c
    · rw [hdc, hout.nrRunning, indicator_pos hon]
      omega
    · have hnot : ¬ l.OnRunqueue d p := fun hd => hdc (hd.2.symm.trans hon.2)
      rw [hout.frame.rq_ne d hdc, indicator_neg hnot]

theorem block (h : Members l) (hlive : l.isLive p = true) (hon : l.OnRunqueue c p) :
    Members (l.block c p) := by
  unfold Links.block
  dsimp only
  split
  next hok => exact h.setOff hlive hon (dequeue_out h hok)
  next hok =>
    rw [(dequeue_false (Bool.eq_false_iff.mpr hok)).1]
    exact h

/-! ## A reschedule -/

theorem leave (h : Members l) (hl : l.Sound) (hrun : l.RunningQueued)
    (hstate : how ≠ .stay → (l.task (l.rq c).curr).state ≠ taskRunning) :
    Members (l.leave c (l.rq c).curr how) := by
  cases how with
  | stay => exact h
  | signalled => exact h.setState taskRunning
  | block =>
    obtain ⟨hlive, hcpu⟩ := hl.curr_awake (hstate (by decide))
    exact h.block hlive ⟨hrun c hlive, hcpu⟩

theorem put (h : Members l) (hlive : (l.task p).schedClass = .hvf → l.isLive p = true)
    (hon : (l.task p).schedClass = .hvf → (l.task p).state = taskRunning → l.OnRunqueue c p) :
    Members (l.put c p) := by
  by_cases hput : (l.task p).schedClass = .hvf ∧ (l.task p).state = taskRunning
  · have hf := put_frame c p l
    rw [put_running hput.1 hput.2] at hf ⊢
    refine h.of_hook hf (hlive hput.1) hput.1 (hon hput.1 hput.2) ?_ ?_
    · intro q _ hq
      simp at hq
    · simp
  · rw [put_idle hput]
    exact h

theorem setNext (h : Members l) (hnext : (l.task next).schedClass = .hvf →
    l.isLive next = true ∧ l.OnRunqueue c next) : Members (l.setNext c next) := by
  by_cases hcls : (l.task next).schedClass = .hvf
  · obtain ⟨hlive, hon⟩ := hnext hcls
    have hf := setNext_frame c next l
    rw [setNext_hvf hcls] at hf ⊢
    refine h.of_hook hf hlive hcls hon ?_ ?_
    · intro q hqn hq
      rw [setHvfCurr_self] at hq
      injection hq with hq
      exact absurd hq.symm hqn
    · simp
  · rw [setNext_other hcls]
    exact h

theorem switchTo {prev : TaskId} (h : Members l) : Members (l.switchTo c prev next) := by
  refine h.weaken (switchTo_nextPid prev next) ?_ ?_ ?_ ?_
  · intro q
    rw [switchTo_schedClass, switchTo_onRq, switchTo_cpu]
    exact ⟨rfl, rfl, rfl⟩
  · intro q hq
    rw [switchTo_linked] at hq
    exact hq
  · intro d q hq
    rw [switchTo_hvfCurr] at hq
    exact hq
  · intro d
    rw [switchTo_nrRunning]

end Members

/-- After it left, the task that is put is where its state says. -/
theorem leave_onRunqueue (hl : l.Sound) (hrun : l.RunningQueued)
    (hstate : how ≠ .stay → (l.task (l.rq c).curr).state ≠ taskRunning)
    (hlive : l.isLive (l.rq c).curr = true)
    (hafter : ((l.leave c (l.rq c).curr how).task (l.rq c).curr).state = taskRunning) :
    (l.leave c (l.rq c).curr how).OnRunqueue c (l.rq c).curr := by
  have hcpu : (l.task (l.rq c).curr).cpu = c := by
    rcases hl.curr c with hi | ⟨-, hcpu, -⟩
    · rw [hi] at hlive
      cases hlive
    · exact hcpu
  refine ⟨?_, (leave_bits how _).1.trans hcpu⟩
  cases how with
  | stay => exact hrun c hlive
  | signalled =>
    have hp : (l.leave c (l.rq c).curr .signalled).task (l.rq c).curr
        = { l.task (l.rq c).curr with state := taskRunning } := if_pos rfl
    rw [hp]
    exact hrun c hlive
  | block =>
    -- blocking keeps the state, and a task in `TASK_RUNNING` does not block
    refine absurd ?_ (hstate (by decide))
    rw [← hafter]
    show _ = ((l.block c (l.rq c).curr).task (l.rq c).curr).state
    unfold block
    dsimp only
    split
    next =>
      rw [setOnRq, setTask_task, if_pos rfl]
      exact ((dequeue_frame c _ l).state _).symm
    next => exact ((dequeue_frame c _ l).state _).symm

theorem schedule_onRq (q : TaskId) :
    ((l.schedule c how next).task q).onRq = ((l.leave c (l.rq c).curr how).task q).onRq := by
  unfold schedule
  dsimp only
  rw [switchTo_onRq]
  unfold putSetNext
  split
  next => rfl
  next => rw [(setNext_frame c next _).onRq, (put_frame c _ _).onRq]

/-- What the pick guarantees of the next task: it is the idle task or on the
runqueue of `c`. -/
def Runs (l : Links) (c : Cpu) (how : Leave) (next : TaskId) : Prop :=
  next = .idle c ∨
    (l.isLive next = true ∧ (l.leave c (l.rq c).curr how).OnRunqueue c next)

theorem Members.schedule (h : Members l) (hl : l.Sound) (hrun : l.RunningQueued)
    (hstate : how ≠ .stay → (l.task (l.rq c).curr).state ≠ taskRunning)
    (hnext : l.Runs c how next) : Members (l.schedule c how next) := by
  have h₁ := h.leave hl hrun hstate
  have hl₁ := hl.leave how hstate
  have hprev := fun hlive => leave_onRunqueue hl hrun hstate hlive
  have hcurr₁ := leave_curr (l := l) (c := c) (p := (l.rq c).curr) how c
  have hpid : ∀ q, (l.leave c (l.rq c).curr how).isLive q = l.isLive q :=
    isLive_congr (leave_nextPid how)
  unfold Links.schedule
  dsimp only
  refine Members.switchTo ?_
  unfold Links.putSetNext
  rw [Links.Runs, ← hpid] at hnext
  rw [← hpid] at hprev
  generalize l.leave c (l.rq c).curr how = l₁ at h₁ hl₁ hprev hcurr₁ hnext
  split
  next => exact h₁
  next =>
    have hlive₁ : (l₁.task (l.rq c).curr).schedClass = .hvf →
        l₁.isLive (l.rq c).curr = true := by
      intro hcls
      rw [← hcurr₁] at hcls ⊢
      exact (hl₁.curr_hvf hcls).1
    have hput := h₁.put hlive₁ fun hcls hrunning => hprev (hlive₁ hcls) hrunning
    have hf := put_frame c (l.rq c).curr l₁
    refine hput.setNext ?_
    intro hcls
    rw [hf.schedClass] at hcls
    rw [hf.isLive, OnRunqueue, hf.onRq, hf.cpu]
    rcases hnext with hi | hnext
    · rw [hi, (hl₁.idle c).1] at hcls
      cases hcls
    · exact hnext

theorem RunningQueued.schedule (hrun : l.RunningQueued) (hl : l.Sound)
    (hnext : l.Runs c how next) : (l.schedule c how next).RunningQueued := by
  intro d hlive
  rw [schedule_onRq]
  rw [isLive_congr schedule_nextPid] at hlive
  by_cases hd : d = c
  · rw [hd, schedule_curr_self] at hlive ⊢
    rcases hnext with hi | ⟨-, hon⟩
    · rw [hi] at hlive
      cases hlive
    · exact hon.1
  · -- the task another CPU runs is not the one that leaves
    rw [schedule_rq_ne hd] at hlive ⊢
    rw [leave_task_ne how ((hl.curr_mayRun c).ne_curr hl hd hlive)]
    exact hrun d hlive

/-! ## Wakeups -/

/-- A task that is not pointed to and not linked is enqueued and counted. -/
theorem enqueue_in (hunlinked : (l.task p).linked = false) (hcurr : (l.rq c).hvfCurr ≠ some p) :
    (∀ d, ((l.enqueue c p).rq d).hvfCurr = (l.rq d).hvfCurr) ∧
    ((l.enqueue c p).rq c).nrRunning = (l.rq c).nrRunning + 1 ∧
    (((l.enqueue c p).task p).linked = true → (l.task p).schedClass = .hvf) := by
  by_cases hcls : (l.task p).schedClass = .hvf
  · rw [enqueue_free hcls hcurr hunlinked]
    exact ⟨fun d => by simp, by simp, fun _ => hcls⟩
  · rw [enqueue_other hcls]
    refine ⟨fun d => by simp, by simp, ?_⟩
    intro hlinked
    rw [addNr_task, hunlinked] at hlinked
    cases hlinked

theorem Members.wake {dest : Cpu} (h : Members l) (hlive : l.isLive p = true)
    (hoff : (l.task p).onRq ≠ .queued) (v : Mask) : Members (l.wake p dest v) := by
  obtain ⟨hunlinked, hcurr⟩ := h.off hoff
  have hp : ((l.setState p v).setCpu p dest).task p = { l.task p with state := v, cpu := dest } := by
    rw [setCpu, setTask_task, if_pos rfl, Links.setState, setTask_task, if_pos rfl]
  obtain ⟨hhvf, hnr, -⟩ := enqueue_in (l := (l.setState p v).setCpu p dest) (p := p) (c := dest)
    (by rw [hp]; exact hunlinked) (hcurr dest)
  have hrq : ∀ d, (l.wake p dest v).rq d = (((l.setState p v).setCpu p dest).enqueue dest p).rq d :=
    fun _ => rfl
  refine h.update hlive wake_nextPid (fun q hq => wake_task_ne hq) ?_ ?_ ?_ ?_
  · rw [wake_self]
    intro hlinked
    dsimp only at hlinked ⊢
    split at hlinked
    next hcls => exact ⟨hcls.1, rfl⟩
    next => exact absurd (hunlinked.symm.trans hlinked) Bool.false_ne_true
  · intro d hd
    rw [hrq, hhvf] at hd
    exact absurd hd (hcurr d)
  · intro d q _ hq
    rw [hrq, hhvf] at hq
    exact hq
  · intro d
    have hbefore : ¬ l.OnRunqueue d p := fun hd => hoff hd.1
    rw [indicator_neg hbefore, hrq]
    by_cases hd : d = dest
    · have hafter : (l.wake p dest v).OnRunqueue dest p := by
        rw [OnRunqueue, wake_self]
        exact ⟨rfl, rfl⟩
      rw [hd, indicator_pos hafter, hnr]
      show (l.rq dest).nrRunning + 1 - 1 = _
      omega
    · have hafter : ¬ (l.wake p dest v).OnRunqueue d p := by
        rw [OnRunqueue, wake_self]
        exact fun hon => hd hon.2.symm
      rw [indicator_neg hafter, (enqueue_frame dest p _).rq_ne d hd]
      rfl

theorem RunningQueued.wake {dest : Cpu} (hrun : l.RunningQueued) (v : Mask) :
    (l.wake p dest v).RunningQueued := by
  intro d hlive
  rw [wake_curr, isLive_congr wake_nextPid] at hlive
  rw [wake_curr]
  by_cases hp : (l.rq d).curr = p
  · rw [hp, wake_self]
  · rw [wake_task_ne hp]
    exact hrun d hlive

/-! ## Class changes -/

/-- The dequeue recognises the task, and no put links it again. -/
def TakenOff (l : Links) (p : TaskId) : Prop :=
  (((l.rq (l.task p).cpu).hvfCurr ≠ some p ∧ (l.task p).linked = true) ∨
    ((l.rq (l.task p).cpu).hvfCurr = some p ∧ (l.task p).state ≠ taskRunning)) ∧
  ¬ ((l.rq (l.task p).cpu).curr = p ∧ (l.task p).state = taskRunning)

/-- The dequeue does not recognise the task, and the enqueue does not count it
again: it is still `hvf_rq->curr`, or the put has linked it. -/
def KeptOn (l : Links) (p : TaskId) : Prop :=
  (l.task p).state = taskRunning ∧
    ((l.rq (l.task p).cpu).hvfCurr = some p ∨
      ((l.task p).linked = false ∧ (l.rq (l.task p).cpu).curr = p))

/-- The class changes of a runnable HVF task that add up. -/
def ChangeClean (l : Links) (p : TaskId) (cls : SchedClass) : Prop :=
  l.TakenOff p ∨ (cls = .hvf ∧ l.KeptOn p)

instance (l : Links) (p : TaskId) : Decidable (TakenOff l p) := inferInstanceAs (Decidable (_ ∧ _))

instance (l : Links) (p : TaskId) : Decidable (KeptOn l p) := inferInstanceAs (Decidable (_ ∧ _))

instance (l : Links) (p : TaskId) (cls : SchedClass) : Decidable (ChangeClean l p cls) :=
  inferInstanceAs (Decidable (_ ∨ _))

theorem takeOff_out (h : Members l) (hq : (l.task p).onRq = .queued)
    (hclean : (l.task p).schedClass = .hvf → l.TakenOff p) :
    Out (l.task p).cpu p l (l.takeOff p) := by
  have hok : (l.dequeue (l.task p).cpu p).1 = true := by
    by_cases hcls : (l.task p).schedClass = .hvf
    · rcases (hclean hcls).1 with ⟨hcurr, hlinked⟩ | ⟨hcurr, hstate⟩
      · rw [dequeue_linked hcls hcurr hlinked]
      · rw [dequeue_curr hcls hcurr hstate]
    · rw [dequeue_other hcls]
  have hout := dequeue_out h hok
  unfold takeOff
  dsimp only
  rw [if_pos hq]
  split
  next hcur =>
    -- a put that links nothing
    rw [put_idle]
    · exact hout
    · rw [hout.frame.schedClass, hout.frame.state]
      rintro ⟨hcls, hstate⟩
      exact (hclean hcls).2 ⟨hcur, hstate⟩
  next => exact hout

/-- `p` is still in the class's bookkeeping on `c`, and still counted. -/
structure Still (c : Cpu) (p : TaskId) (l l₁ : Links) : Prop where
  frame : Frame c p l l₁
  inside : (l₁.task p).linked = true ∨ (l₁.rq c).hvfCurr = some p
  hvfCurr : ∀ q, q ≠ p → (l₁.rq c).hvfCurr = some q → (l.rq c).hvfCurr = some q
  nrRunning : (l₁.rq c).nrRunning = (l.rq c).nrRunning

theorem takeOff_still (hcls : (l.task p).schedClass = .hvf) (hq : (l.task p).onRq = .queued)
    (hkept : l.KeptOn p) : Still (l.task p).cpu p l (l.takeOff p) := by
  obtain ⟨hstate, hin⟩ := hkept
  have hmissed : (l.dequeue (l.task p).cpu p) = (false, l) := by
    refine dequeue_missed hcls ?_ (fun hs => hs.2 hstate)
    rintro ⟨hcurr, hlinked⟩
    rcases hin with hc | ⟨hunlinked, -⟩
    · exact hcurr hc
    · exact Bool.false_ne_true (hunlinked.symm.trans hlinked)
  have hf := takeOff_frame p l
  unfold takeOff at hf ⊢
  dsimp only at hf ⊢
  rw [if_pos hq, hmissed] at hf ⊢
  dsimp only at hf ⊢
  by_cases hcur : (l.rq (l.task p).cpu).curr = p
  · rw [if_pos hcur, put_running hcls hstate] at hf ⊢
    refine ⟨hf, Or.inl (by simp), ?_, by simp⟩
    intro q _ hq
    simp at hq
  · rw [if_neg hcur] at hf ⊢
    refine ⟨hf, ?_, fun q _ hq => hq, rfl⟩
    rcases hin with hc | ⟨-, hc⟩
    · exact Or.inr hc
    · exact absurd hc hcur

/-- A change that leaves the count of the task's CPU alone, and the task
linked or pointed to only as a runnable HVF task. -/
theorem Members.of_change (h : Members l) (hlive : l.isLive p = true)
    (hlinked : ((l.change p cls).task p).linked = true → cls = .hvf ∧ (l.task p).onRq = .queued)
    (hself : ((l.change p cls).rq (l.task p).cpu).hvfCurr = some p →
      cls = .hvf ∧ (l.task p).onRq = .queued)
    (hcurr : ∀ q, q ≠ p → ((l.change p cls).rq (l.task p).cpu).hvfCurr = some q →
      (l.rq (l.task p).cpu).hvfCurr = some q)
    (hnr : ((l.change p cls).rq (l.task p).cpu).nrRunning = (l.rq (l.task p).cpu).nrRunning) :
    Members (l.change p cls) := by
  have hrq : ∀ d, (l.change p cls).OnRunqueue d p ↔ l.OnRunqueue d p := by
    intro d
    rw [OnRunqueue, OnRunqueue, change_self]
  refine h.update hlive change_nextPid (fun q hq => change_task_ne hq) ?_ ?_ ?_ ?_
  · intro hl'
    rw [change_self]
    exact hlinked hl'
  · intro d hd
    rw [hrq, change_self]
    by_cases hdc : d = (l.task p).cpu
    · rw [hdc] at hd ⊢
      obtain ⟨hcls, hq⟩ := hself hd
      exact ⟨hcls, hq, rfl⟩
    · -- another CPU never pointed to it
      rw [change_rq_ne hdc] at hd
      exact absurd (h.hvfCurr d p hd).2.2.symm hdc
  · intro d q hqp hq
    by_cases hdc : d = (l.task p).cpu
    · rw [hdc] at hq ⊢
      exact hcurr q hqp hq
    · rw [change_rq_ne hdc] at hq
      exact hq
  · intro d
    rw [indicator_congr (hrq d)]
    by_cases hdc : d = (l.task p).cpu
    · rw [hdc, hnr]
    · rw [change_rq_ne hdc]

/-- The task was taken out, and goes back in under its new class. -/
theorem Members.change_of_out (h : Members l) (hlive : l.isLive p = true)
    (hq : (l.task p).onRq = .queued) (hout : Out (l.task p).cpu p l (l.takeOff p)) :
    Members (l.change p cls) := by
  have hp : ((l.takeOff p).setClass p cls).task p = { (l.takeOff p).task p with schedClass := cls } :=
    if_pos rfl
  obtain ⟨hhvf, hnr, hcls⟩ := enqueue_in (l := (l.takeOff p).setClass p cls) (p := p)
    (c := (l.task p).cpu) (by rw [hp]; exact hout.unlinked) hout.notCurr
  have hc : l.change p cls = ((l.takeOff p).setClass p cls).enqueue (l.task p).cpu p := if_pos hq
  rw [hp] at hcls
  rw [← hc] at hhvf hnr hcls
  refine h.of_change hlive (fun hl' => ⟨hcls hl', hq⟩) ?_ ?_ ?_
  · intro hs
    rw [hhvf] at hs
    exact absurd hs hout.notCurr
  · intro q hqp hs
    rw [hhvf] at hs
    exact hout.hvfCurr q hqp hs
  · rw [hnr]
    show ((l.takeOff p).rq (l.task p).cpu).nrRunning + 1 = _
    rw [hout.nrRunning]
    omega

/-- The task stayed inside, and the enqueue refuses it. -/
theorem Members.change_of_still (h : Members l) (hlive : l.isLive p = true)
    (hq : (l.task p).onRq = .queued) (hstill : Still (l.task p).cpu p l (l.takeOff p)) :
    Members (l.change p .hvf) := by
  have hp : ((l.takeOff p).setClass p .hvf).task p
      = { (l.takeOff p).task p with schedClass := .hvf } := if_pos rfl
  have hc : l.change p .hvf = (l.takeOff p).setClass p .hvf := by
    rw [Links.change, if_pos hq, enqueue_busy (by rw [hp])]
    rintro ⟨hcurr, hunlinked⟩
    rw [hp] at hunlinked
    rcases hstill.inside with hin | hin
    · exact Bool.false_ne_true (hunlinked.symm.trans hin)
    · exact hcurr hin
  have hrq : (l.change p .hvf).rq = (l.takeOff p).rq := by
    rw [hc]
    rfl
  refine h.of_change hlive (fun _ => ⟨rfl, hq⟩) (fun _ => ⟨rfl, hq⟩) ?_ ?_
  · intro q hqp hs
    rw [hrq] at hs
    exact hstill.hvfCurr q hqp hs
  · rw [hrq]
    exact hstill.nrRunning

theorem Members.change (h : Members l) (hrun : l.RunningQueued)
    (hlive : l.isLive p = true)
    (hclean : (l.task p).schedClass = .hvf → (l.task p).onRq = .queued → l.ChangeClean p cls) :
    Members (l.change p cls) := by
  by_cases hq : (l.task p).onRq = .queued
  · by_cases hcls : (l.task p).schedClass = .hvf
    · rcases hclean hcls hq with hoff | ⟨hnew, hkept⟩
      · exact h.change_of_out hlive hq (takeOff_out h hq fun _ => hoff)
      · rw [hnew]
        exact h.change_of_still hlive hq (takeOff_still hcls hq hkept)
    · exact h.change_of_out hlive hq (takeOff_out h hq fun hhvf => absurd hhvf hcls)
  · -- a task off the runqueue does not run: only its class is written
    obtain ⟨hunlinked, hcurr⟩ := h.off hq
    have hcur : (l.rq (l.task p).cpu).curr ≠ p := by
      intro e
      have hon := hrun (l.task p).cpu
      rw [e] at hon
      exact hq (hon hlive)
    have hc : l.change p cls = l.setClass p cls := by
      rw [Links.change, if_neg hq, takeOff, if_neg hq, if_neg hcur]
    have hp : (l.change p cls).task p = { l.task p with schedClass := cls } := by
      rw [hc]
      exact if_pos rfl
    have hrq : (l.change p cls).rq = l.rq := by
      rw [hc]
      rfl
    refine h.of_change hlive ?_ ?_ (fun q _ hs => by rw [hrq] at hs; exact hs) (by rw [hrq])
    · rw [hp]
      intro hl'
      exact absurd (hunlinked.symm.trans hl') Bool.false_ne_true
    · rw [hrq]
      intro hs
      exact absurd hs (hcurr _)

theorem RunningQueued.change (hrun : l.RunningQueued) : (l.change p cls).RunningQueued := by
  intro d hlive
  rw [change_curr, isLive_congr change_nextPid] at hlive
  rw [change_curr]
  by_cases hp : (l.rq d).curr = p
  · rw [hp] at hlive ⊢
    rw [change_self]
    have hon := hrun d
    rw [hp] at hon
    exact hon hlive
  · rw [change_task_ne hp]
    exact hrun d hlive

/-! ## Burials, forks and states -/

theorem Members.bury (h : Members l) (c : Cpu) (p : TaskId) : Members (l.bury c p) := by
  refine h.weaken bury_nextPid ?_ ?_ ?_ (fun d => (bury_rq d).1)
  · intro q
    have hcls := congrArg TaskLink.schedClass (bury_rest (l := l) (c := c) (p := p) q)
    have hon := congrArg TaskLink.onRq (bury_rest (l := l) (c := c) (p := p) q)
    have hcpu := congrArg TaskLink.cpu (bury_rest (l := l) (c := c) (p := p) q)
    exact ⟨hcls, hon, hcpu⟩
  · intro q hq
    by_cases hqp : q = p
    · rw [hqp, bury_self] at hq
      dsimp only at hq
      split at hq
      next => cases hq
      next =>
        rw [hqp]
        exact hq
    · rw [bury_task_ne hqp] at hq
      exact hq
  · intro d q hq
    rcases (bury_rq (l := l) (c := c) (p := p) d).2 with hn | hs
    · rw [hn] at hq
      cases hq
    · rw [hs] at hq
      exact hq

theorem RunningQueued.bury (hrun : l.RunningQueued) (c : Cpu) (p : TaskId) :
    (l.bury c p).RunningQueued := by
  intro d hlive
  rw [bury_curr, isLive_congr bury_nextPid] at hlive
  have hon := congrArg TaskLink.onRq (bury_rest (l := l) (c := c) (p := p) (l.rq d).curr)
  rw [bury_curr]
  exact hon.trans (hrun d hlive)

theorem Members.fork {t : TaskLink} (h : Members l) (hl : l.Sound) (hoff : t.onRq = .off)
    (hunlinked : t.linked = false) : Members (l.fork t) := by
  have hfresh : ¬ (l.task (.task l.nextPid)).onRq = .queued := by
    rw [(hl.fresh l.nextPid (Nat.le_refl _)).2]
    decide
  refine ⟨?_, ?_, ?_⟩
  · intro q hq
    by_cases hqn : q = .task l.nextPid
    · rw [hqn, fork_self, hunlinked] at hq
      cases hq
    · rw [fork_task_ne hqn] at hq ⊢
      exact h.linked q hq
  · intro d q hq
    have hold := h.hvfCurr d q hq
    have hqn : q ≠ .task l.nextPid := by
      intro e
      rw [e] at hold
      exact hfresh hold.2.1
    rw [OnRunqueue, fork_task_ne hqn]
    exact hold
  · intro d
    -- the new pid is the last one counted, and is off every runqueue
    have hlast : ¬ (l.fork t).OnRunqueue d (.task l.nextPid) := by
      rw [OnRunqueue, fork_self, hoff]
      rintro ⟨hq, -⟩
      cases hq
    have hrest : Nat.count (fun n => (l.fork t).OnRunqueue d (.task n)) l.nextPid
        = l.runnable d := by
      refine count_congr ?_
      intro j hj
      rw [OnRunqueue, OnRunqueue, fork_task_ne]
      intro e
      injection e with e
      omega
    show (l.rq d).nrRunning
      = (Nat.count (fun n => (l.fork t).OnRunqueue d (.task n)) (l.nextPid + 1) : Nat)
    rw [count_succ_indicator, hrest, indicator_neg hlast, h.count d]
    omega

theorem RunningQueued.fork {t : TaskLink} (hrun : l.RunningQueued) (hl : l.Sound) :
    (l.fork t).RunningQueued := by
  intro d hlive
  show ((l.fork t).task (l.rq d).curr).onRq = _
  rcases hl.curr d with hi | ⟨hold, -, -⟩
  · have hlive' : (l.fork t).isLive (l.rq d).curr = true := hlive
    rw [hi] at hlive'
    cases hlive'
  · rw [fork_task_ne]
    · exact hrun d hold
    · exact (fresh_ne_of_live hold (Nat.le_refl _)).symm

theorem RunningQueued.setState (hrun : l.RunningQueued) (v : Mask) :
    (l.setState p v).RunningQueued := by
  intro d hlive
  have hold := hrun d hlive
  rw [Links.setState, setTask_task]
  split
  next hp =>
    have hp' : (l.rq d).curr = p := hp
    rw [hp'] at hold
    exact hold
  next => exact hold

end HvfSched.Links
