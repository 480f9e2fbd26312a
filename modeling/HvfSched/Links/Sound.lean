import HvfSched.Links.Machine

/-!
# What always holds of the bookkeeping

`Sound` collects the facts every other argument starts from: a CPU runs its
idle task or a task assigned to it; idle tasks and pids not handed out yet are
never linked; and `hvf_rq->curr` is never linked in its own tree, because an
enqueue refuses it, a `put_prev` clears it and a `set_next` unlinks it first.

One lemma per operation. Hooks go through `Sound.of_hook`: by their frame
only the flag of one task and `hvf_rq->curr` of one CPU are in question.
-/

namespace HvfSched.Links

variable {l l' : Links} {c d : Cpu} {p q prev next : TaskId}

structure Sound (l : Links) : Prop where
  curr : ∀ c, (l.rq c).curr = .idle c ∨
    (l.isLive (l.rq c).curr = true ∧ (l.task (l.rq c).curr).cpu = c ∧
      (l.task (l.rq c).curr).onCpu = true)
  idle : ∀ c, (l.task (.idle c)).schedClass = .idle ∧ (l.task (.idle c)).state = taskRunning ∧
    (l.task (.idle c)).linked = false
  fresh : ∀ n, l.nextPid ≤ n →
    (l.task (.task n)).linked = false ∧ (l.task (.task n)).onRq = .off
  hvfCurr : ∀ c p, (l.rq c).hvfCurr = some p → (l.task p).linked = true → (l.task p).cpu ≠ c

namespace Sound

/-- An HVF task that runs on `c` is a real task, assigned to `c`. -/
theorem curr_hvf (h : Sound l) (hcls : (l.task (l.rq c).curr).schedClass = .hvf) :
    l.isLive (l.rq c).curr = true ∧ (l.task (l.rq c).curr).cpu = c := by
  rcases h.curr c with hi | ⟨hlive, hcpu, -⟩
  · rw [hi, (h.idle c).1] at hcls
    cases hcls
  · exact ⟨hlive, hcpu⟩

/-- A running task in another state than `TASK_RUNNING` is a real task. -/
theorem curr_awake (h : Sound l) (hstate : (l.task (l.rq c).curr).state ≠ taskRunning) :
    l.isLive (l.rq c).curr = true ∧ (l.task (l.rq c).curr).cpu = c := by
  rcases h.curr c with hi | ⟨hlive, hcpu, -⟩
  · rw [hi] at hstate
    exact absurd (h.idle c).2.1 hstate
  · exact ⟨hlive, hcpu⟩

/-- Only real tasks are linked. -/
theorem live_of_linked (h : Sound l) (hlinked : (l.task p).linked = true) :
    l.isLive p = true := by
  cases p with
  | idle c =>
    rw [(h.idle c).2.2] at hlinked
    cases hlinked
  | task n =>
    by_cases hn : n < l.nextPid
    · exact decide_eq_true hn
    · rw [(h.fresh n (Nat.le_of_not_lt hn)).1] at hlinked
      cases hlinked

/-- A hook called for a task on its own CPU: what is left to check is
`hvf_rq->curr` of that CPU. -/
theorem of_hook (h : Sound l) (hf : Frame c p l l') (hcpu : (l.task p).cpu = c)
    (hlive : (l'.task p).linked = true → l.isLive p = true)
    (hc : ∀ q, (l'.rq c).hvfCurr = some q → (l'.task q).linked = true → (l'.task q).cpu ≠ c) :
    Sound l' := by
  refine ⟨?_, ?_, ?_, ?_⟩
  · intro d
    rw [hf.curr, hf.isLive, hf.cpu, hf.onCpu]
    exact h.curr d
  · intro d
    rw [hf.schedClass, hf.state]
    refine ⟨(h.idle d).1, (h.idle d).2.1, ?_⟩
    by_cases hp : TaskId.idle d = p
    · cases hlinked : (l'.task (.idle d)).linked with
      | false => rfl
      | true =>
        rw [hp] at hlinked
        exact absurd hp (idle_ne_of_live (hlive hlinked) d)
    · rw [hf.task_ne _ hp]
      exact (h.idle d).2.2
  · intro n hn
    rw [hf.nextPid] at hn
    rw [hf.onRq]
    refine ⟨?_, (h.fresh n hn).2⟩
    by_cases hp : TaskId.task n = p
    · cases hlinked : (l'.task (.task n)).linked with
      | false => rfl
      | true =>
        rw [hp] at hlinked
        exact absurd hp (fresh_ne_of_live (hlive hlinked) hn)
    · rw [hf.task_ne _ hp]
      exact (h.fresh n hn).1
  · intro d q hq hlinked
    by_cases hd : d = c
    · rw [hd] at hq ⊢
      exact hc q hq hlinked
    · rw [hf.rq_ne d hd] at hq
      rw [hf.cpu]
      by_cases hqp : q = p
      · rw [hqp, hcpu]
        exact fun e => hd e.symm
      · rw [hf.task_ne q hqp] at hlinked
        exact h.hvfCurr d q hq hlinked

/-! ## Hooks -/

theorem enqueue (h : Sound l) (hcpu : (l.task p).cpu = c) (hlive : l.isLive p = true) :
    Sound (l.enqueue c p) := by
  refine h.of_hook (enqueue_frame c p l) hcpu (fun _ => hlive) ?_
  intro q hq hlinked
  rw [(enqueue_frame c p l).cpu]
  by_cases hcls : (l.task p).schedClass = .hvf
  · by_cases hfree : (l.rq c).hvfCurr ≠ some p ∧ (l.task p).linked = false
    · rw [enqueue_free hcls hfree.1 hfree.2] at hq hlinked
      have hq' : (l.rq c).hvfCurr = some q := by
        rw [addNr, setRq_rq, if_pos rfl] at hq
        exact hq
      have hqp : q ≠ p := by
        intro e
        rw [e] at hq'
        exact hfree.1 hq'
      have hlinked' : (l.task q).linked = true := by
        rw [addNr, setRq_task, setLinked, setTask_task, if_neg hqp] at hlinked
        exact hlinked
      exact h.hvfCurr c q hq' hlinked'
    · rw [enqueue_busy hcls hfree] at hq hlinked
      exact h.hvfCurr c q hq hlinked
  · rw [enqueue_other hcls] at hq hlinked
    rw [addNr, setRq_rq, if_pos rfl] at hq
    exact h.hvfCurr c q hq hlinked

/-- A flag set in `l.setLinked p false` was set before. -/
theorem linked_of_setLinked_false (hlinked : ((l.setLinked p false).task q).linked = true) :
    (l.task q).linked = true := by
  rw [setLinked, setTask_task] at hlinked
  split at hlinked
  next => cases hlinked
  next => exact hlinked

theorem dequeue (h : Sound l) (hcpu : (l.task p).cpu = c) (hlive : l.isLive p = true) :
    Sound (l.dequeue c p).2 := by
  refine h.of_hook (dequeue_frame c p l) hcpu (fun _ => hlive) ?_
  intro q hq hlinked
  rw [(dequeue_frame c p l).cpu]
  by_cases hcls : (l.task p).schedClass = .hvf
  · by_cases hlink : (l.rq c).hvfCurr ≠ some p ∧ (l.task p).linked = true
    · rw [dequeue_linked hcls hlink.1 hlink.2] at hq hlinked
      dsimp only at hq hlinked
      rw [addNr, setRq_rq, if_pos rfl] at hq
      exact h.hvfCurr c q hq (linked_of_setLinked_false hlinked)
    · by_cases hsleep : (l.rq c).hvfCurr = some p ∧ (l.task p).state ≠ taskRunning
      · rw [dequeue_curr hcls hsleep.1 hsleep.2] at hq
        dsimp only at hq
        rw [setHvfCurr, setRq_rq, if_pos rfl] at hq
        cases hq
      · rw [dequeue_missed hcls hlink hsleep] at hq hlinked
        exact h.hvfCurr c q hq hlinked
  · rw [dequeue_other hcls] at hq hlinked
    dsimp only at hq hlinked
    rw [addNr, setRq_rq, if_pos rfl] at hq
    exact h.hvfCurr c q hq hlinked

/-- The task put is the one `c` runs. -/
theorem put (h : Sound l) (hcpu : (l.task p).schedClass = .hvf →
    l.isLive p = true ∧ (l.task p).cpu = c) : Sound (l.put c p) := by
  by_cases hrun : (l.task p).schedClass = .hvf ∧ (l.task p).state = taskRunning
  · obtain ⟨hlive, hc⟩ := hcpu hrun.1
    refine h.of_hook (put_frame c p l) hc (fun _ => hlive) ?_
    intro q hq
    rw [put_running hrun.1 hrun.2, setHvfCurr, setRq_rq, if_pos rfl] at hq
    cases hq
  · rw [put_idle hrun]
    exact h

theorem setNext (h : Sound l) (hcpu : (l.task p).schedClass = .hvf →
    l.isLive p = true ∧ (l.task p).cpu = c) : Sound (l.setNext c p) := by
  by_cases hcls : (l.task p).schedClass = .hvf
  · obtain ⟨hlive, hc⟩ := hcpu hcls
    refine h.of_hook (setNext_frame c p l) hc (fun _ => hlive) ?_
    intro q hq hlinked
    rw [setNext_hvf hcls] at hq hlinked
    rw [setHvfCurr, setRq_rq, if_pos rfl] at hq
    injection hq with hq
    rw [← hq, setHvfCurr, setRq_task, setLinked, setTask_task, if_pos rfl] at hlinked
    cases hlinked
  · rw [setNext_other hcls]
    exact h

/-! ## Writes to a task -/

/-- A write that keeps flag, CPU and `on_cpu` of a real task. -/
theorem setTask {t : TaskLink} (h : Sound l) (hlive : l.isLive p = true)
    (hlinked : t.linked = (l.task p).linked) (hcpu : t.cpu = (l.task p).cpu)
    (hon : t.onCpu = (l.task p).onCpu) : Sound (l.setTask p t) := by
  have hidle := idle_ne_of_live hlive
  have hfresh : ∀ n, l.nextPid ≤ n → TaskId.task n ≠ p := fun n hn => fresh_ne_of_live hlive hn
  have hbits : ∀ q, ((l.setTask p t).task q).linked = (l.task q).linked ∧
      ((l.setTask p t).task q).cpu = (l.task q).cpu ∧
      ((l.setTask p t).task q).onCpu = (l.task q).onCpu := by
    intro q
    rw [setTask_task]
    split
    next hq =>
      rw [hq]
      exact ⟨hlinked, hcpu, hon⟩
    next => exact ⟨rfl, rfl, rfl⟩
  refine ⟨?_, ?_, ?_, ?_⟩
  · intro c
    rw [setTask_rq, (hbits _).2.1, (hbits _).2.2]
    exact h.curr c
  · intro c
    rw [setTask_task, if_neg (hidle c)]
    exact h.idle c
  · intro n hn
    rw [setTask_task, if_neg (hfresh n hn)]
    exact h.fresh n hn
  · intro c q hq hq'
    rw [(hbits q).1] at hq'
    rw [(hbits q).2.1]
    exact h.hvfCurr c q hq hq'

theorem setState (h : Sound l) (hlive : l.isLive p = true) (v : Mask) :
    Sound (l.setState p v) := h.setTask hlive rfl rfl rfl

theorem setOnRq (h : Sound l) (hlive : l.isLive p = true) (v : OnRq) :
    Sound (l.setOnRq p v) := h.setTask hlive rfl rfl rfl

theorem setClass (h : Sound l) (hlive : l.isLive p = true) (cls : SchedClass) :
    Sound (l.setClass p cls) := h.setTask hlive rfl rfl rfl

/-- Assigning a task that does not run and is not linked to another CPU. -/
theorem setCpu (h : Sound l) (hlive : l.isLive p = true) (hon : (l.task p).onCpu = false)
    (hlinked : (l.task p).cpu ≠ c → (l.task p).linked = false) : Sound (l.setCpu p c) := by
  by_cases hc : (l.task p).cpu = c
  · exact h.setTask hlive rfl hc.symm rfl
  · have hunlinked := hlinked hc
    -- not on a CPU, so not running anywhere
    have hne : ∀ d, (l.rq d).curr ≠ p := by
      intro d e
      rcases h.curr d with hi | ⟨-, -, hcur⟩
      · exact idle_ne_of_live hlive d (hi.symm.trans e)
      · rw [e, hon] at hcur
        cases hcur
    refine ⟨?_, ?_, ?_, ?_⟩
    · intro d
      rw [Links.setCpu, setTask_rq, setTask_task, if_neg (hne d)]
      exact h.curr d
    · intro d
      rw [Links.setCpu, setTask_task, if_neg (idle_ne_of_live hlive d)]
      exact h.idle d
    · intro n hn
      rw [Links.setCpu, setTask_task, if_neg (fresh_ne_of_live hlive hn)]
      exact h.fresh n hn
    · intro d q hq hq'
      rw [Links.setCpu, setTask_task] at hq' ⊢
      split at hq'
      next =>
        dsimp only at hq'
        rw [hunlinked] at hq'
        cases hq'
      next hqp =>
        rw [if_neg hqp]
        exact h.hvfCurr d q hq hq'

/-! ## `__schedule` -/

theorem block (h : Sound l) (hcpu : (l.task p).cpu = c) (hlive : l.isLive p = true) :
    Sound (l.block c p) := by
  have hd := h.dequeue hcpu hlive
  unfold Links.block
  dsimp only
  split
  next => exact hd.setOnRq (by rw [(dequeue_frame c p l).isLive]; exact hlive) .off
  next => exact hd

theorem leave (h : Sound l) (how : Leave)
    (hstate : how ≠ .stay → (l.task (l.rq c).curr).state ≠ taskRunning) :
    Sound (l.leave c (l.rq c).curr how) := by
  cases how with
  | stay => exact h
  | signalled => exact h.setState (h.curr_awake (hstate (by decide))).1 _
  | block =>
    obtain ⟨hlive, hcpu⟩ := h.curr_awake (hstate (by decide))
    exact h.block hcpu hlive

/-- A task that may follow on `c`: the idle task, or one assigned to `c`. -/
def MayRun (l : Links) (c : Cpu) (next : TaskId) : Prop :=
  next = .idle c ∨ (l.isLive next = true ∧ (l.task next).cpu = c)

theorem MayRun.of_hvf (h : Sound l) (hn : MayRun l c p) (hcls : (l.task p).schedClass = .hvf) :
    l.isLive p = true ∧ (l.task p).cpu = c := by
  rcases hn with hi | hl
  · rw [hi, (h.idle c).1] at hcls
    cases hcls
  · exact hl

/-- A task that runs on another CPU is not one that may run on `c`. -/
theorem MayRun.ne_curr (h : Sound l) (hn : MayRun l c q) (hd : d ≠ c)
    (hlive : l.isLive (l.rq d).curr = true) : (l.rq d).curr ≠ q := by
  intro e
  rcases hn with hi | ⟨-, hcpu'⟩
  · rw [e, hi] at hlive
    cases hlive
  · rcases h.curr d with hi | ⟨-, hcpu, -⟩
    · rw [hi] at hlive
      cases hlive
    · rw [e, hcpu'] at hcpu
      exact hd hcpu.symm

/-- What the running task of `c` is to the functions called for it. -/
theorem curr_mayRun (h : Sound l) (c : Cpu) : MayRun l c (l.rq c).curr := by
  rcases h.curr c with hi | ⟨hlive, hcpu, -⟩
  · exact Or.inl hi
  · exact Or.inr ⟨hlive, hcpu⟩

theorem MayRun.of_frame (hf : Frame d q l l') (hn : MayRun l c p) : MayRun l' c p := by
  rcases hn with hi | ⟨hlive, hcpu⟩
  · exact Or.inl hi
  · refine Or.inr ⟨?_, ?_⟩
    · rw [hf.isLive]
      exact hlive
    · rw [hf.cpu]
      exact hcpu

theorem putSetNext_curr (d : Cpu) :
    ((l.putSetNext c prev next).rq d).curr = (l.rq d).curr := by
  unfold Links.putSetNext
  split
  next => rfl
  next => rw [(setNext_frame c next _).curr, (put_frame c prev l).curr]

theorem MayRun.of_putSetNext (hn : MayRun l c p) : MayRun (l.putSetNext c prev next) c p := by
  unfold Links.putSetNext
  split
  next => exact hn
  next => exact MayRun.of_frame (setNext_frame c next _) (MayRun.of_frame (put_frame c prev l) hn)

theorem putSetNext (h : Sound l) (hprev : MayRun l c prev) (hnext : MayRun l c next) :
    Sound (l.putSetNext c prev next) := by
  unfold Links.putSetNext
  split
  next => exact h
  next =>
    have hp := h.put (c := c) (p := prev) (MayRun.of_hvf h hprev)
    have hn := MayRun.of_frame (put_frame c prev l) hnext
    exact hp.setNext (MayRun.of_hvf hp hn)

theorem switchTo (h : Sound l) (hc : (l.rq c).curr = prev) (hnext : MayRun l c next) :
    Sound (l.switchTo c prev next) := by
  have hprev : MayRun l c prev := hc ▸ h.curr_mayRun c
  refine ⟨?_, ?_, ?_, ?_⟩
  · intro d
    by_cases hd : d = c
    · subst hd
      rw [switchTo_curr_self hc]
      rcases hnext with hi | ⟨hlive, hcpu⟩
      · exact Or.inl hi
      · refine Or.inr ⟨by simpa using hlive, by simpa using hcpu, ?_⟩
        by_cases hne : next = prev
        · -- nothing is switched: `next` was running before
          rw [Links.switchTo, if_pos hne]
          rcases h.curr d with hi | ⟨-, -, hon⟩
          · rw [hc, ← hne] at hi
            rw [hi] at hlive
            cases hlive
          · rw [hc, ← hne] at hon
            exact hon
        · exact switchTo_onCpu_next hne
    · rw [switchTo_rq_ne hd]
      rcases h.curr d with hi | ⟨hlive, hcpu, hon⟩
      · exact Or.inl hi
      · -- a task running elsewhere is neither `prev` nor `next`
        refine Or.inr ⟨by simpa using hlive, by simpa using hcpu, ?_⟩
        rw [switchTo_onCpu (hprev.ne_curr h hd hlive) (hnext.ne_curr h hd hlive)]
        exact hon
  · intro d
    simpa using h.idle d
  · intro n hn
    rw [switchTo_nextPid] at hn
    simpa using h.fresh n hn
  · intro d q hq hlinked
    rw [switchTo_hvfCurr] at hq
    rw [switchTo_linked] at hlinked
    rw [switchTo_cpu]
    exact h.hvfCurr d q hq hlinked

theorem MayRun.of_leave (how : Leave) (hn : MayRun l c p) : MayRun (l.leave c q how) c p := by
  rcases hn with hi | ⟨hlive, hcpu⟩
  · exact Or.inl hi
  · refine Or.inr ⟨?_, ?_⟩
    · rw [isLive_congr (leave_nextPid how)]
      exact hlive
    · rw [(leave_bits how p).1]
      exact hcpu

theorem schedule (h : Sound l) (how : Leave)
    (hstate : how ≠ .stay → (l.task (l.rq c).curr).state ≠ taskRunning)
    (hnext : MayRun l c next) : Sound (l.schedule c how next) := by
  unfold Links.schedule
  dsimp only
  have h₁ := h.leave how hstate
  have hprev₁ := MayRun.of_leave (q := (l.rq c).curr) how (h.curr_mayRun c)
  have hnext₁ := MayRun.of_leave (q := (l.rq c).curr) how hnext
  have hcurr₁ := leave_curr (l := l) (c := c) (p := (l.rq c).curr) how c
  generalize l.leave c (l.rq c).curr how = l₁ at h₁ hprev₁ hnext₁ hcurr₁
  refine (h₁.putSetNext hprev₁ hnext₁).switchTo ?_ ?_
  · rw [putSetNext_curr]
    exact hcurr₁
  · exact MayRun.of_putSetNext hnext₁

/-! ## The other entry points -/

theorem bury (h : Sound l) (c : Cpu) (p : TaskId) : Sound (l.bury c p) := by
  have h₁ : Sound (l.setRq c { l.rq c with deadPrev := none }) := by
    refine ⟨?_, h.idle, h.fresh, ?_⟩
    · intro d
      rw [setRq_rq]
      split
      next hd =>
        rw [hd]
        exact h.curr c
      next => exact h.curr d
    · intro d q hq
      refine h.hvfCurr d q ?_
      rw [setRq_rq] at hq
      split at hq
      next hd =>
        rw [hd]
        exact hq
      next => exact hq
  unfold Links.bury
  dsimp only
  generalize l.setRq c { l.rq c with deadPrev := none } = l₁ at h₁
  split
  next =>
    refine h₁.of_hook ((setLinked_frame _ p l₁ false).trans (setHvfCurr_frame _ p _ none)) rfl ?_ ?_
    · intro hlinked
      rw [setHvfCurr, setRq_task, setLinked, setTask_task, if_pos rfl] at hlinked
      cases hlinked
    · intro q hq
      rw [setHvfCurr, setRq_rq, if_pos rfl] at hq
      cases hq
  next => exact h₁

theorem activate (h : Sound l) (hcpu : (l.task p).cpu = c) (hlive : l.isLive p = true) :
    Sound (l.activate c p) := by
  have he := h.enqueue hcpu hlive
  exact he.setOnRq (by rw [(enqueue_frame c p l).isLive]; exact hlive) .queued

theorem place (h : Sound l) (hlive : l.isLive p = true) (hon : (l.task p).onCpu = false)
    (hlinked : (l.task p).cpu ≠ c → (l.task p).linked = false) (v : Mask) :
    Sound (((l.setState p v).setCpu p c).activate c p) := by
  have h₁ := h.setState hlive v
  have hp : (l.setState p v).task p = { l.task p with state := v } := if_pos rfl
  have h₂ : Sound ((l.setState p v).setCpu p c) := by
    refine h₁.setCpu hlive ?_ ?_
    · rw [hp]
      exact hon
    · rw [hp]
      exact hlinked
  refine h₂.activate ?_ hlive
  rw [Links.setCpu, setTask_task, if_pos rfl]

theorem wake (h : Sound l) (hlive : l.isLive p = true) (hon : (l.task p).onCpu = false)
    (hlinked : (l.task p).cpu ≠ c → (l.task p).linked = false) (v : Mask) :
    Sound (l.wake p c v) := by
  refine (h.place hlive hon hlinked v).setState ?_ taskRunning
  rw [Links.activate]
  show ((((l.setState p v).setCpu p c).enqueue c p).setOnRq p .queued).isLive p = true
  exact (enqueue_frame c p ((l.setState p v).setCpu p c)).isLive p ▸ hlive

theorem takeOff (h : Sound l) (hlive : l.isLive p = true) : Sound (l.takeOff p) := by
  have hd : Sound (if (l.task p).onRq = .queued then (l.dequeue (l.task p).cpu p).2 else l) := by
    split
    next => exact h.dequeue rfl hlive
    next => exact h
  have hf : Frame (l.task p).cpu p l
      (if (l.task p).onRq = .queued then (l.dequeue (l.task p).cpu p).2 else l) := by
    split
    next => exact dequeue_frame _ p l
    next => exact Frame.refl l
  unfold Links.takeOff
  dsimp only
  split
  next =>
    refine hd.put fun _ => ⟨?_, ?_⟩
    · rw [hf.isLive]
      exact hlive
    · rw [hf.cpu]
  next => exact hd

theorem change (h : Sound l) (hlive : l.isLive p = true) (cls : SchedClass) :
    Sound (l.change p cls) := by
  have hf := takeOff_frame p l
  have hlive₁ : (l.takeOff p).isLive p = true := by
    rw [hf.isLive]
    exact hlive
  have h₁ := (h.takeOff hlive).setClass hlive₁ cls
  unfold Links.change
  dsimp only
  split
  next =>
    refine h₁.enqueue ?_ hlive₁
    rw [Links.setClass, setTask_task, if_pos rfl]
    exact hf.cpu p
  next => exact h₁

theorem fork (h : Sound l) {t : TaskLink} (hlinked : t.linked = false) : Sound (l.fork t) := by
  have hnew : ∀ q, l.isLive q = true → q ≠ .task l.nextPid :=
    fun q hq => (fresh_ne_of_live hq (Nat.le_refl _)).symm
  have hlive : ∀ q, l.isLive q = true → (l.fork t).isLive q = true := by
    intro q hq
    cases q with
    | idle d => cases hq
    | task n => exact decide_eq_true (Nat.lt_succ_of_lt (of_decide_eq_true hq))
  have htask : ∀ q, q ≠ .task l.nextPid → (l.fork t).task q = l.task q := fun q hq => if_neg hq
  refine ⟨?_, ?_, ?_, ?_⟩
  · intro c
    rcases h.curr c with hi | ⟨hl, hcpu, hon⟩
    · exact Or.inl hi
    · have hne := hnew _ hl
      show _ ∨ (l.fork t).isLive (l.rq c).curr = true ∧ ((l.fork t).task (l.rq c).curr).cpu = c ∧
        ((l.fork t).task (l.rq c).curr).onCpu = true
      rw [htask _ hne]
      exact Or.inr ⟨hlive _ hl, hcpu, hon⟩
  · intro c
    rw [htask _ (by intro e; cases e)]
    exact h.idle c
  · intro n hn
    have hn' : l.nextPid < n := hn
    rw [htask]
    · exact h.fresh n (Nat.le_of_lt hn')
    · intro e
      injection e with e
      omega
  · intro c q hq hq'
    by_cases hne : q = .task l.nextPid
    · have hself : (l.fork t).task q = t := if_pos hne
      rw [hself, hlinked] at hq'
      cases hq'
    · rw [htask q hne] at hq' ⊢
      exact h.hvfCurr c q hq hq'

end Sound

end HvfSched.Links
