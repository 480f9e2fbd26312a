import HvfSched.Links.Sound

/-!
# Recognising the running task

`dequeue_task_hvf` takes a task that blocks off the queue only if it
recognises it: by its link, or because `hvf_rq->curr` points to it. `Known`
says that every CPU recognises the HVF task it runs.

Six operations can break it in principle, since each writes `hvf_rq->curr` or
a link. Two do: a burial clears `hvf_rq->curr` of the dead task's CPU, whoever
runs there by then, and a class change of a running task that is off the
runqueue inserts nothing.
-/

namespace HvfSched.Links

variable {l : Links} {c : Cpu} {p next : TaskId} {how : Leave} {cls : SchedClass}

/-- The running task of `c` is recognised when it leaves: it is linked, or
`hvf_rq->curr` points to it. -/
def Recognised (l : Links) (c : Cpu) : Prop :=
  (l.task (l.rq c).curr).linked = true ∨ (l.rq c).hvfCurr = some (l.rq c).curr

instance (l : Links) (c : Cpu) : Decidable (Recognised l c) := inferInstanceAs (Decidable (_ ∨ _))

/-- A recognised task that sleeps is dequeued. -/
theorem dequeue_recognised (hcls : (l.task (l.rq c).curr).schedClass = .hvf)
    (hrec : l.Recognised c) (hstate : (l.task (l.rq c).curr).state ≠ taskRunning) :
    (l.dequeue c (l.rq c).curr).1 = true := by
  by_cases hcurr : (l.rq c).hvfCurr = some (l.rq c).curr
  · rw [dequeue_curr hcls hcurr hstate]
  · rw [dequeue_linked hcls hcurr (hrec.resolve_right hcurr)]

/-- Blocking a recognised task takes it off the runqueue. -/
theorem block_off (hcls : (l.task (l.rq c).curr).schedClass = .hvf) (hrec : l.Recognised c)
    (hstate : (l.task (l.rq c).curr).state ≠ taskRunning) :
    ((l.block c (l.rq c).curr).task (l.rq c).curr).onRq = .off := by
  unfold block
  dsimp only
  rw [if_pos (dequeue_recognised hcls hrec hstate), setOnRq, setTask_task, if_pos rfl]

/-- An HVF task that has tried to block is not linked. -/
theorem block_unlinked (hcls : (l.task p).schedClass = .hvf)
    (hstate : (l.task p).state ≠ taskRunning) : ((l.block c p).task p).linked = false := by
  unfold block
  dsimp only
  by_cases hcurr : (l.rq c).hvfCurr = some p
  · rw [dequeue_curr hcls hcurr hstate, if_pos rfl, setOnRq, setTask_task, if_pos rfl]
    simp
  · cases hlinked : (l.task p).linked with
    | true =>
      rw [dequeue_linked hcls hcurr hlinked, if_pos rfl, setOnRq, setTask_task, if_pos rfl]
      simp
    | false =>
      rw [dequeue_missed hcls (fun h => Bool.false_ne_true (hlinked.symm.trans h.2))
        (fun h => hcurr h.1)]
      exact hlinked

/-- Every CPU recognises the HVF task it runs. -/
def Known (l : Links) : Prop :=
  ∀ c, (l.task (l.rq c).curr).schedClass = .hvf → l.Recognised c

namespace Known

theorem setState (h : Known l) (v : Mask) : Known (l.setState p v) := by
  have hbits : ∀ q, ((l.setState p v).task q).schedClass = (l.task q).schedClass ∧
      ((l.setState p v).task q).linked = (l.task q).linked := by
    intro q
    rw [Links.setState, setTask_task]
    split
    next hq =>
      rw [hq]
      exact ⟨rfl, rfl⟩
    next => exact ⟨rfl, rfl⟩
  intro d hcls
  rw [(hbits _).1] at hcls
  rw [Recognised, (hbits _).2]
  exact h d hcls

/-- A task that goes on running was not blocked. -/
theorem schedule_same (h : Known l) (hcls : (l.task (l.rq c).curr).schedClass = .hvf)
    (hblock : how ≠ .block) :
    (l.schedule c how (l.rq c).curr).Recognised c := by
  have hsame : l.schedule c how (l.rq c).curr = l.leave c (l.rq c).curr how := by
    unfold Links.schedule
    dsimp only
    rw [switchTo, if_pos rfl, putSetNext, if_pos rfl]
  rw [hsame]
  cases how with
  | stay => exact h c hcls
  | signalled =>
    have hold := h c hcls
    have hp : (l.leave c (l.rq c).curr .signalled).task (l.rq c).curr
        = { l.task (l.rq c).curr with state := taskRunning } := if_pos rfl
    show ((l.leave c (l.rq c).curr .signalled).task (l.rq c).curr).linked = true ∨ _
    rw [hp]
    exact hold
  | block => exact absurd rfl hblock

theorem schedule (h : Known l) (hl : l.Sound) (hnext : Sound.MayRun l c next)
    (hblock : next = (l.rq c).curr → (l.task next).schedClass = .hvf → how ≠ .block) :
    Known (l.schedule c how next) := by
  intro d hcls
  rw [(schedule_bits _).2] at hcls
  by_cases hd : d = c
  · subst hd
    rw [schedule_curr_self] at hcls
    by_cases hne : next = (l.rq d).curr
    · have hb := hblock hne hcls
      rw [hne] at hcls ⊢
      exact h.schedule_same hcls hb
    · -- `set_next_task` has just set `hvf_rq->curr`
      refine Or.inr ?_
      rw [schedule_curr_self]
      unfold Links.schedule
      dsimp only
      rw [switchTo_hvfCurr, putSetNext, if_neg hne, setNext_hvf, setHvfCurr_self]
      rw [(put_frame d _ _).schedClass, (leave_bits how _).2.1]
      exact hcls
  · rw [schedule_rq_ne hd] at hcls
    have hlive := (hl.curr_hvf hcls).1
    have hprev := (hl.curr_mayRun c).ne_curr hl hd hlive
    rw [Recognised, schedule_rq_ne hd, schedule_task_ne hprev (hnext.ne_curr hl hd hlive)]
    exact h d hcls

theorem wake {dest : Cpu} (h : Known l) (v : Mask) : Known (l.wake p dest v) := by
  have hhvf : ∀ d, ((l.wake p dest v).rq d).hvfCurr = (l.rq d).hvfCurr := fun _ => enqueue_hvfCurr
  intro d hcls
  rw [Recognised, wake_curr, hhvf]
  rw [wake_curr] at hcls
  by_cases hp : (l.rq d).curr = p
  · rw [hp, wake_self] at hcls ⊢
    have hold := h d
    rw [Recognised, hp] at hold
    rcases hold hcls with hlinked | hcurr
    · refine Or.inl ?_
      dsimp only
      rw [hlinked]
      exact ite_self true
    · exact Or.inr hcurr
  · rw [wake_task_ne hp] at hcls ⊢
    exact h d hcls

end Known

/-- The class change of a task that does not run leaves `hvf_rq->curr` alone
when it points to another task. -/
theorem change_hvfCurr_of_ne {d : Cpu} (hcurr : (l.rq (l.task p).cpu).hvfCurr ≠ some p)
    (hcur : (l.rq (l.task p).cpu).curr ≠ p) :
    ((l.change p cls).rq d).hvfCurr = (l.rq d).hvfCurr := by
  have hoff : ((l.takeOff p).rq d).hvfCurr = (l.rq d).hvfCurr := by
    unfold takeOff
    dsimp only
    rw [if_neg hcur]
    split
    next => exact dequeue_hvfCurr_of_ne hcurr
    next => rfl
  unfold change
  dsimp only
  split
  next =>
    rw [enqueue_hvfCurr]
    exact hoff
  next => exact hoff

/-- A task that is put back by an enqueue of the class is recognised. -/
theorem change_recognised_of_queued (hq : (l.task p).onRq = .queued) :
    ((l.change p .hvf).task p).linked = true ∨
      ((l.change p .hvf).rq (l.task p).cpu).hvfCurr = some p := by
  have hp : ((l.takeOff p).setClass p .hvf).task p
      = { (l.takeOff p).task p with schedClass := .hvf } := if_pos rfl
  have hc : l.change p .hvf = ((l.takeOff p).setClass p .hvf).enqueue (l.task p).cpu p := if_pos hq
  rw [hc, enqueue_linked_self, enqueue_hvfCurr, hp]
  by_cases hcurr : (((l.takeOff p).setClass p .hvf).rq (l.task p).cpu).hvfCurr = some p
  · exact Or.inr hcurr
  · exact Or.inl (if_pos ⟨rfl, hcurr⟩)

namespace Known

theorem change (h : Known l) (hl : l.Sound) (hlive : l.isLive p = true)
    (henter : cls = .hvf → (l.task p).schedClass ≠ .hvf → (l.rq (l.task p).cpu).curr = p →
      (l.task p).onRq = .queued ∨ l.Recognised (l.task p).cpu) : Known (l.change p cls) := by
  intro d hcls
  rw [change_curr] at hcls
  rw [Recognised, change_curr]
  by_cases hp : (l.rq d).curr = p
  · -- the task runs on its own CPU
    have hd : (l.task p).cpu = d := by
      rcases hl.curr d with hi | ⟨-, hcpu, -⟩
      · rw [hp] at hi
        rw [hi] at hlive
        cases hlive
      · rw [hp] at hcpu
        exact hcpu
    subst hd
    rw [hp] at hcls ⊢
    rw [change_self] at hcls
    have hcls' : cls = .hvf := hcls
    subst hcls'
    by_cases hq : (l.task p).onRq = .queued
    · exact change_recognised_of_queued hq
    · -- off the runqueue there is only the put, and the write of the class
      have hc : l.change p .hvf = (l.put (l.task p).cpu p).setClass p .hvf := by
        rw [Links.change, if_neg hq, takeOff, if_neg hq, if_pos hp]
      have hself : ((l.put (l.task p).cpu p).setClass p .hvf).task p
          = { (l.put (l.task p).cpu p).task p with schedClass := .hvf } := if_pos rfl
      have hrq : ((l.put (l.task p).cpu p).setClass p .hvf).rq = (l.put (l.task p).cpu p).rq := rfl
      rw [hc, hself, hrq]
      by_cases hput : (l.task p).schedClass = .hvf ∧ (l.task p).state = taskRunning
      · rw [put_running hput.1 hput.2]
        exact Or.inl (by simp)
      · rw [put_idle hput]
        have hrec : l.Recognised (l.task p).cpu := by
          by_cases hold : (l.task p).schedClass = .hvf
          · exact h _ (by rw [hp]; exact hold)
          · exact (henter rfl hold hp).resolve_left hq
        rw [Recognised, hp] at hrec
        exact hrec
  · rw [change_task_ne hp] at hcls ⊢
    rcases h d hcls with hlinked | hcurr
    · exact Or.inl hlinked
    · refine Or.inr ?_
      by_cases hd : d = (l.task p).cpu
      · rw [change_hvfCurr_of_ne]
        · exact hcurr
        · rw [← hd, hcurr]
          intro e
          injection e with e
          exact hp e
        · rw [← hd]
          exact hp
      · rw [change_rq_ne hd]
        exact hcurr

theorem bury (h : Known l) (hl : l.Sound) (c : Cpu)
    (hnew : (l.task p).schedClass = .hvf →
      (l.task (l.rq (l.task p).cpu).curr).schedClass = .hvf →
      (l.rq (l.task p).cpu).curr ≠ p ∧
        (l.task (l.rq (l.task p).cpu).curr).linked = true) : Known (l.bury c p) := by
  intro d hcls
  rw [bury_curr] at hcls
  rw [Recognised, bury_curr]
  by_cases hp : (l.rq d).curr = p
  · -- a task is not buried by the CPU that runs it
    rw [hp, bury_self] at hcls
    have hcls' : (l.task p).schedClass = .hvf := hcls
    have hcpu := (hl.curr_hvf (c := d) (by rw [hp]; exact hcls')).2
    rw [hp] at hcpu
    rw [hcpu, hp] at hnew
    exact absurd rfl (hnew hcls' hcls').1
  · rw [bury_task_ne hp] at hcls ⊢
    rcases h d hcls with hlinked | hcurr
    · exact Or.inl hlinked
    · by_cases hlost : (l.task p).schedClass = .hvf ∧ d = (l.task p).cpu
      · obtain ⟨hold, hd⟩ := hlost
        rw [hd] at hcls ⊢
        exact Or.inl (hnew hold hcls).2
      · refine Or.inr ?_
        rw [bury_hvfCurr_of_ne hlost]
        exact hcurr

theorem fork {t : TaskLink} (h : Known l) (hcls : t.schedClass ≠ .hvf) :
    Known (l.fork t) := by
  intro d hd
  by_cases hn : (l.rq d).curr = .task l.nextPid
  · have hd' : ((l.fork t).task (l.rq d).curr).schedClass = .hvf := hd
    rw [hn, fork_self] at hd'
    exact absurd hd' hcls
  · have hd' : ((l.fork t).task (l.rq d).curr).schedClass = .hvf := hd
    rw [fork_task_ne hn] at hd'
    show ((l.fork t).task (l.rq d).curr).linked = true ∨ _
    rw [fork_task_ne hn]
    exact h d hd'

end Known

end HvfSched.Links
