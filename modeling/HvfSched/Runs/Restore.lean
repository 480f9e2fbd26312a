import HvfSched.Queue.Recompute
import HvfSched.Queue.Trees
import HvfSched.Tasks.Steps

/-!
# Saving and restoring a task

`sched_move_task` takes a task off its runqueue and puts it back where it
was: dequeue and put, enqueue and set. The pair is meant to leave no trace in
the runqueue. What it does depends on five bits: whether the task is queued,
running, `TASK_RUNNING`, linked, and `hvf_rq->curr`.

* A running task that could go on is put into the tree by `put_prev_task`,
  which also forgets `hvf_rq->curr`; `set_next_task` with `first` false does
  not take it out again.
* A queued task has its value computed anew by the enqueue, so a value that
  had decayed is back at where it started.

`moved_task_restored_iff` is the exact condition, over all states.
-/

namespace HvfSched

open Lib Sys

variable {E : Env} {s s' s₁ s₂ : Sys} {c d : Cpu} {p q : TaskId}

/-- The runqueues are as before: who is in the trees and with what value,
`hvf_rq->curr`, and the two counters. -/
structure Transparent (s s' : Sys) : Prop where
  entities : ∀ d q, q ∈ s'.queue d ↔ q ∈ s.queue d
  values : ∀ q, s'.value q = s.value q
  hvfCurr : ∀ d, (s'.rq d).hvf.curr = (s.rq d).hvf.curr
  nrHvfQueued : ∀ d, (s'.rq d).hvf.nrHvfQueued = (s.rq d).hvf.nrHvfQueued
  nrRunning : ∀ d, (s'.rq d).nrRunning = (s.rq d).nrRunning

/-! ## The bits -/

namespace Links

variable {l : Links}

/-- The bits under which a save and restore of `p` keeps `hvf_rq->curr`, the
link and the counter. -/
def SeatKept (l : Links) (p : TaskId) : Prop :=
  let t := l.task p
  let r := l.rq t.cpu
  if t.onRq = .queued then
    (r.hvfCurr ≠ some p ∧ t.linked = true ∧ ¬ (r.curr = p ∧ t.state = taskRunning)) ∨
      (r.hvfCurr = some p ∧ t.state = taskRunning ∧ r.curr ≠ p)
  else ¬ (r.curr = p ∧ t.state = taskRunning) ∨ (t.linked = true ∧ r.hvfCurr = none)

/-- The three of them are the same in `l'`. -/
structure SameSeat (l l' : Links) (p : TaskId) : Prop where
  hvfCurr : (l'.rq (l.task p).cpu).hvfCurr = (l.rq (l.task p).cpu).hvfCurr
  nrRunning : (l'.rq (l.task p).cpu).nrRunning = (l.rq (l.task p).cpu).nrRunning
  linked : (l'.task p).linked = (l.task p).linked

/-- `change` within the class. -/
theorem change_hvf (hcls : (l.task p).schedClass = .hvf) :
    l.change p .hvf = if (l.task p).onRq = .queued then (l.takeOff p).enqueue (l.task p).cpu p
      else l.takeOff p := by
  have hkept : ((l.takeOff p).task p).schedClass = .hvf :=
    ((takeOff_frame p l).schedClass p).trans hcls
  have hsame : (l.takeOff p).setClass p .hvf = l.takeOff p := by
    rw [setClass, ← hkept, setTask_same]
  unfold change
  rw [hsame]

/-- A running task that could go on ends up linked, and `curr` forgotten. -/
theorem takeOff_running (hcls : (l.task p).schedClass = .hvf)
    (hcurr : (l.rq (l.task p).cpu).curr = p) (hstate : (l.task p).state = taskRunning) :
    l.takeOff p = ((if (l.task p).onRq = .queued then (l.dequeue (l.task p).cpu p).2 else l).setLinked
      p true).setHvfCurr (l.task p).cpu none := by
  unfold takeOff
  rw [if_pos hcurr]
  split
  next =>
    have hf := dequeue_frame (l.task p).cpu p l
    exact put_running ((hf.schedClass p).trans hcls) ((hf.state p).trans hstate)
  next => exact put_running hcls hstate

/-- Any other task is only dequeued. -/
theorem takeOff_idle (h : ¬ ((l.rq (l.task p).cpu).curr = p ∧ (l.task p).state = taskRunning)) :
    l.takeOff p = if (l.task p).onRq = .queued then (l.dequeue (l.task p).cpu p).2 else l := by
  unfold takeOff
  dsimp only
  by_cases hcurr : (l.rq (l.task p).cpu).curr = p
  · rw [if_pos hcurr]
    split
    next =>
      have hf := dequeue_frame (l.task p).cpu p l
      exact put_idle (fun hput => h ⟨hcurr, (hf.state p).symm.trans hput.2⟩)
    next => exact put_idle (fun hput => h ⟨hcurr, hput.2⟩)
  · rw [if_neg hcurr]

/-- The save and restore of a running task that could go on. -/
theorem change_running (hcls : (l.task p).schedClass = .hvf)
    (hcurr : (l.rq (l.task p).cpu).curr = p) (hstate : (l.task p).state = taskRunning) :
    l.SameSeat (l.change p .hvf) p ↔ l.SeatKept p := by
  have hoff := takeOff_running hcls hcurr hstate
  by_cases hq : (l.task p).onRq = .queued
  · -- it was dequeued as well, unless `curr` pointed to it
    rw [if_pos hq] at hoff
    have hbusy : (l.takeOff p).enqueue (l.task p).cpu p = l.takeOff p := by
      apply enqueue_busy (((takeOff_frame p l).schedClass p).trans hcls)
      rw [hoff, setHvfCurr_task, setLinked_self]
      rintro ⟨-, hf⟩
      cases hf
    have hkept : ¬ l.SeatKept p := by
      unfold SeatKept
      rw [if_pos hq]
      rintro (⟨-, -, h⟩ | ⟨-, -, h⟩)
      · exact h ⟨hcurr, hstate⟩
      · exact h hcurr
    refine iff_of_false ?_ hkept
    rw [change_hvf hcls, if_pos hq, hbusy, hoff]
    rintro ⟨hnone, hnr, hlinked⟩
    rw [setHvfCurr_self] at hnone
    rw [setHvfCurr_task, setLinked_self] at hlinked
    rw [setHvfCurr_nrRunning, setLinked_rq, dequeue_linked hcls (by rw [← hnone]; exact nofun)
      hlinked.symm, addNr_nrRunning, setLinked_rq] at hnr
    omega
  · rw [if_neg hq] at hoff
    have hkept : l.SeatKept p ↔ (l.task p).linked = true ∧ (l.rq (l.task p).cpu).hvfCurr = none := by
      unfold SeatKept
      rw [if_neg hq]
      exact ⟨fun h => h.resolve_left (fun hn => hn ⟨hcurr, hstate⟩), Or.inr⟩
    rw [change_hvf hcls, if_neg hq, hoff, hkept]
    constructor
    · rintro ⟨hnone, -, hlinked⟩
      rw [setHvfCurr_self] at hnone
      rw [setHvfCurr_task, setLinked_self] at hlinked
      exact ⟨hlinked.symm, hnone.symm⟩
    · rintro ⟨hlinked, hnone⟩
      refine ⟨?_, ?_, ?_⟩
      · rw [setHvfCurr_self, hnone]
      · rw [setHvfCurr_nrRunning, setLinked_rq]
      · rw [setHvfCurr_task, setLinked_self, hlinked]

/-- The save and restore of any other task. -/
theorem change_idle (hcls : (l.task p).schedClass = .hvf)
    (hidle : ¬ ((l.rq (l.task p).cpu).curr = p ∧ (l.task p).state = taskRunning)) :
    l.SameSeat (l.change p .hvf) p ↔ l.SeatKept p := by
  have hoff := takeOff_idle hidle
  rw [change_hvf hcls]
  unfold SeatKept
  by_cases hq : (l.task p).onRq = .queued
  · rw [if_pos hq] at hoff
    rw [if_pos hq, if_pos hq, hoff]
    by_cases hcurr : (l.rq (l.task p).cpu).hvfCurr = some p
    · by_cases hstate : (l.task p).state = taskRunning
      · -- neither hook does anything
        rw [dequeue_missed hcls (fun h => h.1 hcurr) (fun h => h.2 hstate),
          enqueue_busy hcls (fun h => h.1 hcurr)]
        exact iff_of_true ⟨rfl, rfl, rfl⟩
          (Or.inr ⟨hcurr, hstate, fun h => hidle ⟨h, hstate⟩⟩)
      · -- the dequeue forgets `curr`, and nothing brings it back
        rw [dequeue_curr hcls hcurr hstate]
        refine iff_of_false ?_ ?_
        · rintro ⟨hsame, -, -⟩
          rw [enqueue_hvfCurr, setHvfCurr_self, hcurr] at hsame
          cases hsame
        · rintro (⟨h, -⟩ | ⟨-, h, -⟩)
          · exact h hcurr
          · exact hstate h
    · by_cases hlinked : (l.task p).linked = true
      · -- out of the tree and back
        rw [dequeue_linked hcls hcurr hlinked]
        have hout : (((l.setLinked p false).addNr (l.task p).cpu (-1)).task p).linked = false := by
          rw [addNr_task, setLinked_self]
        have hcls' : (((l.setLinked p false).addNr (l.task p).cpu (-1)).task p).schedClass = .hvf := by
          rw [addNr_task, setLinked, setTask_task, if_pos rfl]
          exact hcls
        have hcurr' : (((l.setLinked p false).addNr (l.task p).cpu (-1)).rq (l.task p).cpu).hvfCurr
            ≠ some p := by
          rw [addNr_hvfCurr]
          exact hcurr
        rw [enqueue_free hcls' hcurr' hout]
        refine iff_of_true ⟨?_, ?_, ?_⟩ (Or.inl ⟨hcurr, hlinked, hidle⟩)
        · rw [addNr_hvfCurr, setLinked_rq, addNr_hvfCurr, setLinked_rq]
        · rw [addNr_nrRunning, setLinked_rq, addNr_nrRunning, setLinked_rq]
          omega
        · rw [addNr_task, setLinked_self, hlinked]
      · -- missed by the dequeue, but counted by the enqueue
        have hunlinked : (l.task p).linked = false := Bool.eq_false_iff.mpr hlinked
        rw [dequeue_missed hcls (fun h => hlinked h.2) (fun h => hcurr h.1),
          enqueue_free hcls hcurr hunlinked]
        refine iff_of_false ?_ ?_
        · rintro ⟨-, hnr, -⟩
          rw [addNr_nrRunning, setLinked_rq] at hnr
          omega
        · rintro (⟨-, h, -⟩ | ⟨h, -⟩)
          · exact hlinked h
          · exact hcurr h
  · rw [if_neg hq] at hoff
    rw [if_neg hq, if_neg hq, hoff]
    exact iff_of_true ⟨rfl, rfl, rfl⟩ (Or.inl hidle)

theorem change_sameSeat_iff (hcls : (l.task p).schedClass = .hvf) :
    l.SameSeat (l.change p .hvf) p ↔ l.SeatKept p := by
  by_cases hrun : (l.rq (l.task p).cpu).curr = p ∧ (l.task p).state = taskRunning
  · exact change_running hcls hrun.1 hrun.2
  · exact change_idle hcls hrun

end Links

/-! ## The counter of the tree -/

/-- `nr_hvf_queued`, not counting `p`. -/
def Sys.othersQueued (s : Sys) (c : Cpu) (p : TaskId) : Int :=
  (s.rq c).hvf.nrHvfQueued - if (s.task p).hvf.onRq then 1 else 0

/-- A hook for `p` on `c` keeps the other runqueues, and counts nobody but
`p`. -/
structure OwnCount (c : Cpu) (p : TaskId) (s s' : Sys) : Prop where
  rq_ne : ∀ d, d ≠ c → s'.rq d = s.rq d
  others : s'.othersQueued c p = s.othersQueued c p

namespace OwnCount

theorem refl (s : Sys) : OwnCount c p s s := ⟨fun _ _ => rfl, rfl⟩

theorem trans (h : OwnCount c p s s₁) (h' : OwnCount c p s₁ s') : OwnCount c p s s' :=
  ⟨fun d hd => (h'.rq_ne d hd).trans (h.rq_ne d hd), h'.others.trans h.others⟩

/-- A write to the task that leaves the flag alone. -/
theorem setTask {t : TaskStruct} (h : t.hvf.onRq = (s.task p).hvf.onRq) :
    OwnCount c p s (s.setTask p t) := by
  refine ⟨fun _ _ => rfl, ?_⟩
  unfold Sys.othersQueued
  rw [setTask_self, h, setTask_rq]

/-- A write to the runqueue that leaves the counter alone. -/
theorem setRq {r : Rq} (h : r.hvf.nrHvfQueued = (s.rq c).hvf.nrHvfQueued) :
    OwnCount c p s (s.setRq c r) := by
  refine ⟨fun d hd => setRq_ne s r hd, ?_⟩
  unfold Sys.othersQueued
  rw [setRq_self, h, setRq_task]

theorem tickClock (s : Sys) : OwnCount c p s s.tickClock := ⟨fun _ _ => rfl, rfl⟩

theorem enqueueHvfEntity (E : Env) (h : (s.task p).hvf.onRq = false) :
    OwnCount c p s (HvfSched.enqueueHvfEntity E c p s) := by
  refine ⟨fun d hd => enqueueHvfEntity_rq_ne E p s hd, ?_⟩
  unfold Sys.othersQueued
  rw [enqueueHvfEntity_nr, enqueueHvfEntity_task, if_pos rfl, h]
  show (s.rq c).hvf.nrHvfQueued + 1 - 1 = (s.rq c).hvf.nrHvfQueued - 0
  omega

theorem dequeueHvfEntity (h : (s.task p).hvf.onRq = true)
    (hdeq : HvfSched.dequeueHvfEntity E c p s = .ok s') : OwnCount c p s s' := by
  have hu := dequeueHvfEntity_unlinked hdeq
  refine ⟨hu.rq_ne, ?_⟩
  unfold Sys.othersQueued
  rw [hu.nr, hu.task, if_pos rfl, h]
  show (s.rq c).hvf.nrHvfQueued - 1 - 0 = (s.rq c).hvf.nrHvfQueued - 1
  omega

theorem dequeueIfOnRq (hdeq : HvfSched.dequeueIfOnRq E c p s = .ok s') : OwnCount c p s s' := by
  rcases dequeueIfOnRq_cases hdeq with ⟨hf, hd⟩ | ⟨-, hs⟩
  · exact dequeueHvfEntity hf hd
  · rw [hs]
    exact refl s

theorem dequeueTask {r : Bool × Sys} (hcls : (s.task p).schedClass = .hvf)
    (hdeq : HvfSched.dequeueTask E c p s = .ok r) : OwnCount c p s r.2 := by
  rcases dequeueTask_cases hdeq with ⟨-, hd⟩ | ⟨hne, -⟩
  · rcases dequeueTaskHvf_cases hd with ⟨hlinked, s₁, h₁, hr⟩ | ⟨-, s₁, h₁, hr⟩ | ⟨-, -, hr⟩
    · rw [hr]
      exact (dequeueHvfEntity hlinked.2 h₁).trans (setRq rfl)
    · rw [hr]
      refine (dequeueIfOnRq h₁).trans ((setRq ?_).trans (setRq ?_))
      · rfl
      · rfl
    · rw [hr]
      exact refl s
  · exact absurd hcls hne

theorem putPrevTask (E : Env) (hcls : (s.task p).schedClass = .hvf) :
    OwnCount c p s (HvfSched.putPrevTask E c p s) := by
  rw [HvfSched.putPrevTask, if_pos hcls, putPrevTaskHvf_eq]
  have hused : OwnCount c p s (withUsed E p s) := (tickClock s).trans (setTask rfl)
  split
  next =>
    have hreduced : OwnCount c p (withUsed E p s) (reduced p (withUsed E p s)) :=
      setTask (reduceIfExpired_onRq _)
    unfold putPrevHvfEntity
    dsimp only
    split
    next => exact (hused.trans hreduced).trans (setRq rfl)
    next hf =>
      have hlink := enqueueHvfEntity E (c := c) (Bool.eq_false_iff.mpr hf)
      exact ((hused.trans hreduced).trans hlink).trans (setRq rfl)
  next => exact hused

theorem enqueueTask {flags : Mask} (hcls : (s.task p).schedClass = .hvf)
    (hflags : renews flags = true) (henq : HvfSched.enqueueTask E c p flags s = .ok s') :
    OwnCount c p s s' := by
  rw [enqueueTask_renews hcls hflags] at henq
  have hrenewed : OwnCount c p s (s.setTask p (s.task p).renewed) := setTask rfl
  split at henq
  next =>
    split at henq
    next hfree =>
      rw [← Except.ok.inj henq]
      refine (hrenewed.trans (enqueueHvfEntity E ?_)).trans (setRq rfl)
      rw [setTask_self]
      exact hfree.2
    next =>
      rw [← Except.ok.inj henq]
      exact hrenewed
  next => cases henq

end OwnCount

/-! ## The stages -/

/-- The flags of `sched_move_task`. -/
def moveFlags : Mask := dequeueSave ||| dequeueMove ||| dequeueNoclock

theorem moveFlags_renews : renews moveFlags = true := by decide

/-- `set_next_task` with `first` false does nothing, so that three stages are
left: the task is taken off, enqueued if it was queued, and the CPU is asked
to reschedule. -/
theorem schedMoveTask_eq (E : Env) (p : TaskId) (s : Sys) :
    schedMoveTask E p s = takeOff E p s >>= fun s₁ =>
      (if (s.task p).isQueued then enqueueTask E (s₁.task p).cpu p moveFlags s₁ else .ok s₁) >>=
        fun s₂ => .ok (if s.isCurrent p then reschedCurr (s₂.task p).cpu s₂ else s₂) := by
  unfold schedMoveTask
  cases takeOff E p s with
  | error e => rfl
  | ok s₁ =>
    show (putBack E p (s.task p).isQueued (s.isCurrent p) moveFlags s₁ >>= _) = (_ >>= _)
    have hback : putBack E p (s.task p).isQueued (s.isCurrent p) moveFlags s₁
        = if (s.task p).isQueued then enqueueTask E (s₁.task p).cpu p moveFlags s₁ else .ok s₁ := by
      unfold putBack
      dsimp only
      generalize (if (s.task p).isQueued then enqueueTask E (s₁.task p).cpu p moveFlags s₁
        else .ok s₁) = r
      cases r with
      | error e => rfl
      | ok s₂ =>
        show (if s.isCurrent p then setNextTask E (s₁.task p).cpu p false s₂ else .ok s₂) = .ok s₂
        rw [setNextTask_false, ite_self]
    rw [hback]
    rfl

/-- What the three stages leave alone. -/
structure Moved (E : Env) (p : TaskId) (s s' : Sys) : Prop where
  links : s'.links = s.links.change p .hvf
  count : OwnCount (s.task p).cpu p s s'
  values : ∀ q, q ≠ p → s'.value q = s.value q

theorem takeOff_cpu (h : takeOff E p s = .ok s₁) : (s₁.task p).cpu = (s.task p).cpu := by
  have hl := congrArg (fun l : Links => (l.task p).cpu) (links_takeOff h)
  exact hl.trans ((Links.takeOff_frame p s.links).cpu p)

theorem OwnCount.takeOff (hcls : (s.task p).schedClass = .hvf) (h : takeOff E p s = .ok s₁) :
    OwnCount (s.task p).cpu p s s₁ := by
  obtain ⟨s₀, h₀, hs⟩ := takeOff_cases h
  have hdeq : OwnCount (s.task p).cpu p s s₀ ∧ (s₀.task p).schedClass = .hvf := by
    rcases h₀ with ⟨-, b, hr⟩ | ⟨-, h₀⟩
    · exact ⟨OwnCount.dequeueTask hcls hr, (dequeueTask_bits hr p).1.trans hcls⟩
    · rw [h₀]
      exact ⟨OwnCount.refl s, hcls⟩
  rw [hs]
  split
  next => exact hdeq.1.trans (OwnCount.putPrevTask E hdeq.2)
  next => exact hdeq.1

theorem schedMoveTask_moved (hcls : (s.task p).schedClass = .hvf)
    (h : schedMoveTask E p s = .ok s') : Moved E p s s' := by
  refine ⟨?_, ?_, ?_⟩
  · have hl := (schedMoveTask_change h).links
    rw [hcls] at hl
    exact hl
  · rw [schedMoveTask_eq] at h
    obtain ⟨s₁, h₁, h⟩ := bind_ok.mp h
    obtain ⟨s₂, h₂, h₃⟩ := bind_ok.mp h
    have hcls₁ : (s₁.task p).schedClass = .hvf := (takeOff_schedClass h₁).trans hcls
    have henq : OwnCount (s.task p).cpu p s₁ s₂ ∧ (s₂.task p).cpu = (s₁.task p).cpu := by
      rw [takeOff_cpu h₁] at h₂
      split at h₂
      next =>
        have hl := congrArg (fun l : Links => (l.task p).cpu) (links_enqueueTask h₂)
        exact ⟨OwnCount.enqueueTask hcls₁ moveFlags_renews h₂,
          hl.trans ((Links.enqueue_frame _ p s₁.links).cpu p)⟩
      next =>
        rw [← Except.ok.inj h₂]
        exact ⟨OwnCount.refl s₁, rfl⟩
    rw [henq.2, takeOff_cpu h₁] at h₃
    rw [← Except.ok.inj h₃]
    refine ((OwnCount.takeOff hcls h₁).trans henq.1).trans ?_
    split
    next => exact OwnCount.setRq rfl
    next => exact OwnCount.refl s₂
  · intro q hq
    have hd := (schedMoveTask_on h).others q hq
    have hv := congrArg (fun t : TaskStruct => t.hvf.currSchedValue) hd
    exact hv

/-- Once the task has been moved, only its place in the tree and its value are
left to look at. -/
theorem Moved.transparent_iff (hcls : (s.task p).schedClass = .hvf) (h : Moved E p s s') :
    Transparent s s' ↔ s.links.SeatKept p ∧
      (∀ q, q ∈ s'.queue (s.task p).cpu ↔ q ∈ s.queue (s.task p).cpu) ∧
      s'.value p = s.value p := by
  have hseat := Links.change_sameSeat_iff (l := s.links) (p := p) hcls
  rw [← h.links] at hseat
  have hothers := h.count.others
  unfold Sys.othersQueued at hothers
  constructor
  · intro ht
    refine ⟨hseat.mp ⟨ht.hvfCurr _, ht.nrRunning _, ?_⟩, ht.entities _, ht.values p⟩
    -- the counter is the same, so the flag is
    show (s'.task p).hvf.onRq = (s.task p).hvf.onRq
    rw [ht.nrHvfQueued] at hothers
    by_cases hf : (s.task p).hvf.onRq = true
    · by_cases hf' : (s'.task p).hvf.onRq = true
      · rw [hf, hf']
      · rw [if_pos hf, if_neg hf'] at hothers
        omega
    · by_cases hf' : (s'.task p).hvf.onRq = true
      · rw [if_neg hf, if_pos hf'] at hothers
        omega
      · rw [Bool.eq_false_iff.mpr hf, Bool.eq_false_iff.mpr hf']
  · rintro ⟨hkept, hqueue, hvalue⟩
    obtain ⟨hcurr, hnr, hlinked⟩ := hseat.mpr hkept
    have hlinked : (s'.task p).hvf.onRq = (s.task p).hvf.onRq := hlinked
    rw [hlinked] at hothers
    refine ⟨?_, ?_, ?_, ?_, ?_⟩
    · intro d q
      by_cases hd : d = (s.task p).cpu
      · rw [hd]
        exact hqueue q
      · rw [queue_eq_of_rq (h.count.rq_ne d hd)]
    · intro q
      by_cases hq : q = p
      · rw [hq]
        exact hvalue
      · exact h.values q hq
    · intro d
      by_cases hd : d = (s.task p).cpu
      · rw [hd]
        exact hcurr
      · rw [h.count.rq_ne d hd]
    · intro d
      by_cases hd : d = (s.task p).cpu
      · rw [hd]
        omega
      · rw [h.count.rq_ne d hd]
    · intro d
      by_cases hd : d = (s.task p).cpu
      · rw [hd]
        exact hnr
      · rw [h.count.rq_ne d hd]

/-! ## The four ways to be restored -/

/-- The time used, with the time since `latest_time` if the task is running. -/
def movedUsed (E : Env) (s : Sys) (p : TaskId) : Long :=
  if s.isCurrent p then (s.task p).hvf.timeUsed + (stampMs (s.now E) - (s.task p).hvf.latestTime)
  else (s.task p).hvf.timeUsed

/-- A linked task between the stages. -/
def offTask (E : Env) (s : Sys) (p : TaskId) : TaskStruct :=
  { unlinkedTask (s.task p) with
    hvf := { (unlinkedTask (s.task p)).hvf with timeUsed := movedUsed E s p } }

/-- A task that is not `TASK_RUNNING` is charged, and that is all. -/
theorem putPrevTask_idle (E : Env) (c : Cpu) (hcls : (s.task p).schedClass = .hvf)
    (hidle : (s.task p).isRunning = false) : putPrevTask E c p s = withUsed E p s := by
  rw [putPrevTask, if_pos hcls, putPrevTaskHvf_eq, hidle]
  rfl

theorem takeOff_linked (hcls : (s.task p).schedClass = .hvf) (hq : (s.task p).isQueued = true)
    (hcurr : (s.rq (s.task p).cpu).hvf.curr ≠ some p) (hflag : (s.task p).hvf.onRq = true)
    (hidle : ¬ (s.isCurrent p = true ∧ (s.task p).isRunning = true))
    (h : takeOff E p s = .ok s₁) :
    p ∈ s.queue (s.task p).cpu ∧ s₁.task p = offTask E s p ∧
      s₁.queue (s.task p).cpu = (s.queue (s.task p).cpu).erase p := by
  unfold takeOff at h
  dsimp only at h
  rw [if_pos hq, dequeueTask, if_pos hcls, dequeueTaskHvf, if_pos ⟨hcurr, hflag⟩] at h
  obtain ⟨s₀, h₀, h⟩ := bind_ok.mp h
  obtain ⟨r, hr, hs₀⟩ := map_ok.mp h₀
  obtain ⟨s₂, h₂, h₃⟩ := bind_ok.mp hr
  have hu := dequeueHvfEntity_unlinked h₂
  have hnow' : (s₂.addNrRunning (s.task p).cpu (-1)).now E = s.now E :=
    congrArg E.clock (SameData.dequeueHvfEntity h₂).reads
  rw [← Except.ok.inj h₃] at hs₀
  rw [← Except.ok.inj h, ← hs₀]
  have hqueue : (s₂.addNrRunning (s.task p).cpu (-1)).queue (s.task p).cpu
      = (s.queue (s.task p).cpu).erase p := by
    rw [← hu.queue]
    unfold Sys.queue
    rw [Sys.addNrRunning, setRq_self]
  have htask : (s₂.addNrRunning (s.task p).cpu (-1)).task p = unlinkedTask (s.task p) := by
    rw [Sys.addNrRunning, setRq_task, hu.task, if_pos rfl]
  generalize s₂.addNrRunning (s.task p).cpu (-1) = s₃ at hnow' hqueue htask
  refine ⟨hu.mem, ?_⟩
  unfold offTask movedUsed
  by_cases hrun : s.isCurrent p = true
  · have hstate : (s₃.task p).isRunning = false := by
      rw [htask, Bool.eq_false_iff]
      exact fun hr => hidle ⟨hrun, hr⟩
    have hput := putPrevTask_idle E (s.task p).cpu (by rw [htask]; exact hcls) hstate
    rw [if_pos hrun, if_pos hrun, hput]
    refine ⟨?_, hqueue⟩
    rw [withUsed_task, if_pos rfl, htask, hnow']
    rfl
  · rw [if_neg hrun, if_neg hrun]
    exact ⟨htask, hqueue⟩

theorem takeOff_of_mem (E : Env) (hcls : (s.task p).schedClass = .hvf)
    (hq : (s.task p).isQueued = true) (hcurr : (s.rq (s.task p).cpu).hvf.curr ≠ some p)
    (hflag : (s.task p).hvf.onRq = true) (hmem : p ∈ s.queue (s.task p).cpu) :
    ∃ s₁, takeOff E p s = .ok s₁ := by
  obtain ⟨s₂, h₂⟩ := dequeueHvfEntity_of_mem E hmem
  unfold takeOff
  dsimp only
  rw [if_pos hq, dequeueTask, if_pos hcls, dequeueTaskHvf, if_pos ⟨hcurr, hflag⟩, h₂]
  exact ⟨_, rfl⟩

/-- The request to reschedule is no part of the tree. -/
theorem resched_frame (b : Bool) (c : Cpu) (s : Sys) :
    (∀ q, (if b then reschedCurr c s else s).value q = s.value q) ∧
      ∀ d, (if b then reschedCurr c s else s).queue d = s.queue d := by
  cases b with
  | false => exact ⟨fun _ => rfl, fun _ => rfl⟩
  | true =>
    refine ⟨fun _ => rfl, ?_⟩
    intro d
    have hhvf := reschedCurr_hvf c s d
    show ((reschedCurr c s).rq d).hvf.hvfTaskQueue.toList = _
    rw [hhvf]
    rfl

/-- The enqueue and the end, for a queued task. -/
theorem schedMoveTask_queued (hcls : (s.task p).schedClass = .hvf)
    (hq : (s.task p).isQueued = true) (h₁ : takeOff E p s = .ok s₁) :
    (∃ s', schedMoveTask E p s = .ok s') ↔ DivisorOk (s₁.task p) := by
  have hcls₁ : (s₁.task p).schedClass = .hvf := (takeOff_schedClass h₁).trans hcls
  rw [schedMoveTask_eq, h₁]
  show (∃ s', ((if (s.task p).isQueued then enqueueTask E (s₁.task p).cpu p moveFlags s₁
    else .ok s₁) >>= _) = .ok s') ↔ _
  rw [if_pos hq, enqueueTask_renews hcls₁ moveFlags_renews]
  constructor
  · rintro ⟨s', hs'⟩
    obtain ⟨s₂, h₂, -⟩ := bind_ok.mp hs'
    split at h₂
    next hok => exact hok
    next => cases h₂
  · intro hok
    rw [if_pos hok]
    split
    next => exact ⟨_, rfl⟩
    next => exact ⟨_, rfl⟩

theorem schedMoveTask_queued_cases (hcls : (s.task p).schedClass = .hvf)
    (hq : (s.task p).isQueued = true) (h : schedMoveTask E p s = .ok s') :
    ∃ s₁, takeOff E p s = .ok s₁ ∧
      (if (s₁.rq (s.task p).cpu).hvf.curr ≠ some p ∧ (s₁.task p).hvf.onRq = false then
        s'.value p = relinkValue (s₁.task p) (s₁.task p).hvf.timeUsed ∧
          (s'.queue (s.task p).cpu).Perm (p :: s₁.queue (s.task p).cpu)
      else s'.value p = dueValue (s₁.task p) ∧
        s'.queue (s.task p).cpu = s₁.queue (s.task p).cpu) := by
  rw [schedMoveTask_eq] at h
  obtain ⟨s₁, h₁, h⟩ := bind_ok.mp h
  obtain ⟨s₂, h₂, h₃⟩ := bind_ok.mp h
  have hcls₁ : (s₁.task p).schedClass = .hvf := (takeOff_schedClass h₁).trans hcls
  obtain ⟨hvalue, hqueue⟩ := resched_frame (s.isCurrent p) (s₂.task p).cpu s₂
  rw [Except.ok.inj h₃] at hvalue hqueue
  rw [if_pos hq, takeOff_cpu h₁, enqueueTask_renews hcls₁ moveFlags_renews] at h₂
  refine ⟨s₁, h₁, ?_⟩
  rw [hvalue, hqueue]
  split at h₂
  next =>
    split at h₂
    next hfree =>
      rw [if_pos hfree, ← Except.ok.inj h₂]
      constructor
      · have hself := enqueueHvfEntity_value_self E (s.task p).cpu p
          (s₁.setTask p (s₁.task p).renewed)
        rw [setTask_self, linkValue_renewed] at hself
        exact hself
      · have hperm := enqueueHvfEntity_perm E (s.task p).cpu p (s₁.setTask p (s₁.task p).renewed)
        unfold Sys.queue at hperm ⊢
        rw [Sys.addNrRunning, setRq_self]
        exact hperm
    next hbusy =>
      rw [if_neg hbusy, ← Except.ok.inj h₂]
      constructor
      · rw [Sys.value, setTask_self]
        rfl
      · rfl
  next => cases h₂

/-- The bits, in terms of the machine. -/
def SeatKept (s : Sys) (p : TaskId) : Prop :=
  if (s.task p).isQueued then
    ((s.rq (s.task p).cpu).hvf.curr ≠ some p ∧ (s.task p).hvf.onRq = true ∧
      ¬ (s.isCurrent p = true ∧ (s.task p).isRunning = true)) ∨
    ((s.rq (s.task p).cpu).hvf.curr = some p ∧ (s.task p).isRunning = true ∧
      s.isCurrent p = false)
  else ¬ (s.isCurrent p = true ∧ (s.task p).isRunning = true) ∨
    ((s.task p).hvf.onRq = true ∧ (s.rq (s.task p).cpu).hvf.curr = none)

theorem seatKept_links : s.links.SeatKept p ↔ SeatKept s p := by
  unfold Links.SeatKept SeatKept
  dsimp only
  have hidle : s.isCurrent p = false ↔ (s.rq (s.task p).cpu).curr ≠ p := by
    rw [Bool.eq_false_iff, ne_eq, isCurrent_iff]
  rw [isCurrent_iff, isRunning_iff, hidle]
  by_cases hq : (s.task p).onRq = .queued
  · rw [if_pos ((isQueued_iff _).mpr hq), if_pos (by exact hq)]
    rfl
  · rw [if_neg (fun h => hq ((isQueued_iff _).mp h)), if_neg (by exact hq)]
    rfl

/-- The task is linked, and it does not run or is about to sleep: it leaves
the tree and comes back with a new value. -/
theorem restored_linked_iff (hcls : (s.task p).schedClass = .hvf) (hq : (s.task p).isQueued = true)
    (hcurr : (s.rq (s.task p).cpu).hvf.curr ≠ some p) (hflag : (s.task p).hvf.onRq = true)
    (hidle : ¬ (s.isCurrent p = true ∧ (s.task p).isRunning = true)) :
    (∃ s', schedMoveTask E p s = .ok s' ∧ Transparent s s') ↔
      p ∈ s.queue (s.task p).cpu ∧ DivisorOk (s.task p) ∧
        relinkValue (s.task p) (movedUsed E s p) = s.value p := by
  have hseat : s.links.SeatKept p := by
    rw [seatKept_links, SeatKept, if_pos hq]
    exact Or.inl ⟨hcurr, hflag, hidle⟩
  -- `curr` is not touched on the way
  have hfree : ∀ {s₁}, takeOff E p s = .ok s₁ → (s₁.rq (s.task p).cpu).hvf.curr ≠ some p := by
    intro s₁ h₁
    have hoff : s.links.takeOff p = _ := Links.takeOff_idle (fun h =>
      hidle ⟨(isCurrent_iff s p).mpr h.1, (isRunning_iff _).mpr h.2⟩)
    rw [if_pos (by exact (isQueued_iff _).mp hq), Links.dequeue_linked hcls hcurr hflag] at hoff
    have hl := congrArg (fun l : Links => (l.rq (s.task p).cpu).hvfCurr)
      ((links_takeOff h₁).trans hoff)
    dsimp only at hl
    rw [Links.addNr_hvfCurr, Links.setLinked_rq] at hl
    exact fun h => hcurr (hl.symm.trans h)
  have hmoved : ∀ {s'}, schedMoveTask E p s = .ok s' →
      p ∈ s.queue (s.task p).cpu ∧ DivisorOk (s.task p) ∧
        s'.value p = relinkValue (s.task p) (movedUsed E s p) ∧
        (s'.queue (s.task p).cpu).Perm (s.queue (s.task p).cpu) := by
    intro s' h
    obtain ⟨s₁, h₁, hend⟩ := schedMoveTask_queued_cases hcls hq h
    obtain ⟨hmem, htask, hqueue⟩ := takeOff_linked hcls hq hcurr hflag hidle h₁
    have hok := (schedMoveTask_queued hcls hq h₁).mp ⟨s', h⟩
    rw [htask] at hok hend
    rw [if_pos ⟨hfree h₁, rfl⟩, hqueue] at hend
    exact ⟨hmem, hok, hend.1, hend.2.trans (List.perm_cons_erase hmem).symm⟩
  constructor
  · rintro ⟨s', h, ht⟩
    obtain ⟨hmem, hok, hvalue, -⟩ := hmoved h
    exact ⟨hmem, hok, hvalue.symm.trans (ht.values p)⟩
  · rintro ⟨hmem, hok, hvalue⟩
    obtain ⟨s₁, h₁⟩ := takeOff_of_mem E hcls hq hcurr hflag hmem
    obtain ⟨-, htask, -⟩ := takeOff_linked hcls hq hcurr hflag hidle h₁
    obtain ⟨s', h⟩ := (schedMoveTask_queued hcls hq h₁).mpr (by rw [htask]; exact hok)
    obtain ⟨-, -, hvalue', hperm⟩ := hmoved h
    refine ⟨s', h, ?_⟩
    rw [(schedMoveTask_moved hcls h).transparent_iff hcls]
    exact ⟨hseat, fun q => hperm.mem_iff, hvalue'.trans hvalue⟩

/-- `hvf_rq->curr` points to the task, which is `TASK_RUNNING` but does not
run: neither hook moves it, but the enqueue computes its value. -/
theorem restored_seated_iff (hcls : (s.task p).schedClass = .hvf)
    (hq : (s.task p).isQueued = true) (hcurr : (s.rq (s.task p).cpu).hvf.curr = some p)
    (hrun : (s.task p).isRunning = true) (hidle : s.isCurrent p = false) :
    (∃ s', schedMoveTask E p s = .ok s' ∧ Transparent s s') ↔
      DivisorOk (s.task p) ∧ dueValue (s.task p) = s.value p := by
  have hseat : s.links.SeatKept p := by
    rw [seatKept_links, SeatKept, if_pos hq]
    exact Or.inr ⟨hcurr, hrun, hidle⟩
  have h₁ : takeOff E p s = .ok s := by
    unfold takeOff
    dsimp only
    rw [if_pos hq, dequeueTask, if_pos hcls, dequeueTaskHvf, if_neg (fun h => h.1 hcurr), if_neg, hidle]
    · rfl
    · rintro ⟨-, hsleep⟩
      rw [hrun] at hsleep
      cases hsleep
  have hmoved : ∀ {s'}, schedMoveTask E p s = .ok s' →
      s'.value p = dueValue (s.task p) ∧ s'.queue (s.task p).cpu = s.queue (s.task p).cpu := by
    intro s' h
    obtain ⟨s₁, h₁', hend⟩ := schedMoveTask_queued_cases hcls hq h
    obtain rfl : s = s₁ := Except.ok.inj (h₁.symm.trans h₁')
    rw [if_neg (fun hfree => hfree.1 hcurr)] at hend
    exact hend
  rw [← schedMoveTask_queued hcls hq h₁]
  constructor
  · rintro ⟨s', h, ht⟩
    exact ⟨⟨s', h⟩, (hmoved h).1.symm.trans (ht.values p)⟩
  · rintro ⟨⟨s', h⟩, hvalue⟩
    obtain ⟨hvalue', hqueue⟩ := hmoved h
    refine ⟨s', h, ?_⟩
    rw [(schedMoveTask_moved hcls h).transparent_iff hcls]
    refine ⟨hseat, ?_, hvalue'.trans hvalue⟩
    intro q
    rw [hqueue]

/-- A task that is not queued is put only if it runs, and not put back. -/
theorem schedMoveTask_off (hq : (s.task p).isQueued = false) :
    schedMoveTask E p s = .ok (if s.isCurrent p
      then reschedCurr ((putPrevTask E (s.task p).cpu p s).task p).cpu
        (putPrevTask E (s.task p).cpu p s)
      else s) := by
  rw [schedMoveTask_eq, hq]
  unfold takeOff
  dsimp only
  rw [hq]
  cases s.isCurrent p with
  | false => rfl
  | true => rfl

/-- The task is not queued, and does not run or is about to sleep: it is
charged at most. -/
theorem restored_off (hcls : (s.task p).schedClass = .hvf) (hq : (s.task p).isQueued = false)
    (hidle : ¬ (s.isCurrent p = true ∧ (s.task p).isRunning = true)) :
    ∃ s', schedMoveTask E p s = .ok s' ∧ Transparent s s' := by
  have hmove := schedMoveTask_off (E := E) hq
  refine ⟨_, hmove, ?_⟩
  rw [(schedMoveTask_moved hcls hmove).transparent_iff hcls]
  have hseat : s.links.SeatKept p := by
    rw [seatKept_links, SeatKept, if_neg (by rw [hq]; exact Bool.false_ne_true)]
    exact Or.inl hidle
  refine ⟨hseat, ?_⟩
  by_cases hrun : s.isCurrent p = true
  · obtain ⟨hrq, hvalues⟩ := putPrevTask_quiet (E := E) (c := (s.task p).cpu)
      (fun h => hidle ⟨hrun, h.2⟩)
    obtain ⟨hvalue, hqueue⟩ := resched_frame true
      ((putPrevTask E (s.task p).cpu p s).task p).cpu (putPrevTask E (s.task p).cpu p s)
    rw [if_pos hrun]
    refine ⟨?_, (hvalue p).trans (hvalues p)⟩
    intro q
    have hsame : (putPrevTask E (s.task p).cpu p s).queue (s.task p).cpu = s.queue (s.task p).cpu :=
      queue_eq_of_rq (congrFun hrq _)
    rw [← hsame]
    exact iff_of_eq (congrArg (fun l => q ∈ l) (hqueue (s.task p).cpu))
  · rw [if_neg hrun]
    exact ⟨fun _ => Iff.rfl, rfl⟩

/-- The put of a task that is linked already. -/
theorem putPrevTask_linked (E : Env) (c : Cpu) (hcls : (s.task p).schedClass = .hvf)
    (hrun : (s.task p).isRunning = true) (hflag : (s.task p).hvf.onRq = true) :
    (putPrevTask E c p s).value p = requeueValue E s p ∧
      (putPrevTask E c p s).queue c = s.queue c := by
  have htask := reduced_withUsed_task E p s p
  rw [if_pos rfl] at htask
  have hflag' : ((reduced p (withUsed E p s)).task p).hvf.onRq = true := by
    rw [htask, putTask_onRq]
    exact hflag
  rw [putPrevTask, if_pos hcls, putPrevTaskHvf_eq, if_pos hrun, putPrevHvfEntity]
  dsimp only
  rw [if_pos hflag', requeueValue_eq, if_pos hflag]
  constructor
  · rw [← htask]
    rfl
  · exact queue_setHvf_curr (reduced p (withUsed E p s)) c none

/-- The task runs without being queued, could go on, and is linked: the put
takes it for a task that comes back, and reduces it. -/
theorem restored_running_iff (hcls : (s.task p).schedClass = .hvf)
    (hq : (s.task p).isQueued = false) (hcurr : s.isCurrent p = true)
    (hrun : (s.task p).isRunning = true) (hflag : (s.task p).hvf.onRq = true)
    (hnone : (s.rq (s.task p).cpu).hvf.curr = none) :
    (∃ s', schedMoveTask E p s = .ok s' ∧ Transparent s s') ↔
      requeueValue E s p = s.value p := by
  have hseat : s.links.SeatKept p := by
    rw [seatKept_links, SeatKept, if_neg (by rw [hq]; exact Bool.false_ne_true)]
    exact Or.inr ⟨hflag, hnone⟩
  have hmove := schedMoveTask_off (E := E) hq
  rw [if_pos hcurr] at hmove
  obtain ⟨hput, hqueue⟩ := putPrevTask_linked E (s.task p).cpu hcls hrun hflag
  obtain ⟨hvalue', hqueue'⟩ := resched_frame true
    ((putPrevTask E (s.task p).cpu p s).task p).cpu (putPrevTask E (s.task p).cpu p s)
  rw [if_pos rfl] at hvalue' hqueue'
  generalize reschedCurr ((putPrevTask E (s.task p).cpu p s).task p).cpu
    (putPrevTask E (s.task p).cpu p s) = s' at hmove hvalue' hqueue'
  have hvalue : s'.value p = requeueValue E s p := (hvalue' p).trans hput
  have htransparent := (schedMoveTask_moved hcls hmove).transparent_iff hcls
  constructor
  · rintro ⟨s₁, h₁, ht⟩
    obtain rfl : s' = s₁ := Except.ok.inj (hmove.symm.trans h₁)
    exact hvalue.symm.trans (ht.values p)
  · intro hsame
    refine ⟨s', hmove, htransparent.mpr ⟨hseat, ?_, hvalue.trans hsame⟩⟩
    intro q
    rw [hqueue', hqueue]

/-! ## The condition -/

/-- When a save and restore of `p` leaves no trace. -/
def MoveKept (E : Env) (s : Sys) (p : TaskId) : Prop :=
  let t := s.task p
  let curr := (s.rq t.cpu).hvf.curr
  if t.isQueued then
    (curr ≠ some p ∧ t.hvf.onRq = true ∧ ¬ (s.isCurrent p = true ∧ t.isRunning = true) ∧
      p ∈ s.queue t.cpu ∧ DivisorOk t ∧ relinkValue t (movedUsed E s p) = s.value p) ∨
    (curr = some p ∧ t.isRunning = true ∧ s.isCurrent p = false ∧
      DivisorOk t ∧ dueValue t = s.value p)
  else ¬ (s.isCurrent p = true ∧ t.isRunning = true) ∨
    (t.hvf.onRq = true ∧ curr = none ∧ requeueValue E s p = s.value p)

instance (E : Env) (s : Sys) (p : TaskId) : Decidable (MoveKept E s p) :=
  inferInstanceAs (Decidable (if (s.task p).isQueued = true then _ ∨ _ else _ ∨ _))

/-- In every state, `sched_move_task` of an HVF task leaves the runqueues as
they were if and only if the condition holds. -/
theorem moved_task_restored_iff (E : Env) (s : Sys) (p : TaskId)
    (hcls : (s.task p).schedClass = .hvf) :
    (∃ s', schedMoveTask E p s = .ok s' ∧ Transparent s s') ↔ MoveKept E s p := by
  have hseat : (∃ s', schedMoveTask E p s = .ok s' ∧ Transparent s s') → SeatKept s p := by
    rintro ⟨s', h, ht⟩
    rw [← seatKept_links]
    exact (((schedMoveTask_moved hcls h).transparent_iff hcls).mp ht).1
  unfold SeatKept at hseat
  unfold MoveKept
  dsimp only
  by_cases hq : (s.task p).isQueued = true
  · rw [if_pos hq] at hseat ⊢
    constructor
    · intro h
      rcases hseat h with ⟨hcurr, hflag, hidle⟩ | ⟨hcurr, hrun, hidle⟩
      · exact Or.inl ⟨hcurr, hflag, hidle, (restored_linked_iff hcls hq hcurr hflag hidle).mp h⟩
      · exact Or.inr ⟨hcurr, hrun, hidle, (restored_seated_iff hcls hq hcurr hrun hidle).mp h⟩
    · rintro (⟨hcurr, hflag, hidle, h⟩ | ⟨hcurr, hrun, hidle, h⟩)
      · exact (restored_linked_iff hcls hq hcurr hflag hidle).mpr h
      · exact (restored_seated_iff hcls hq hcurr hrun hidle).mpr h
  · rw [if_neg hq] at hseat ⊢
    have hoff : (s.task p).isQueued = false := Bool.eq_false_iff.mpr hq
    by_cases hidle : s.isCurrent p = true ∧ (s.task p).isRunning = true
    · obtain ⟨hcurr, hrun⟩ := hidle
      constructor
      · intro h
        obtain ⟨hflag, hnone⟩ := (hseat h).resolve_left (not_not.mpr ⟨hcurr, hrun⟩)
        exact Or.inr ⟨hflag, hnone,
          (restored_running_iff hcls hoff hcurr hrun hflag hnone).mp h⟩
      · intro h
        obtain ⟨hflag, hnone, hvalue⟩ := h.resolve_left (not_not.mpr ⟨hcurr, hrun⟩)
        exact (restored_running_iff hcls hoff hcurr hrun hflag hnone).mpr hvalue
    · exact iff_of_true (restored_off hcls hoff hidle) (Or.inl hidle)

/-- A task that has just joined the class and waits is moved without a trace. -/
theorem waiting_task_restored :
    ∃ s, Reached sampleEnv (fun _ _ => True) s ∧ (s.task (.task 1)).schedClass = .hvf ∧
      s.queue 0 = [.task 1] ∧
      ∃ s', schedMoveTask sampleEnv (.task 1) s = .ok s' ∧ Transparent s s' := by
  obtain ⟨s, hs, hf⟩ := Reached.of_eval (b := (true, true)) sampleEnv
    (fun s => (decide ((s.task (.task 1)).schedClass = .hvf ∧ s.queue 0 = [.task 1]),
      decide (MoveKept sampleEnv s (.task 1))))
    (startFirst ++ [.fork 0, .wakeNew 0 (.task 1) 0,
      .setscheduler permissive (.task 1) (plainAttr 8) true true]) (by decide +kernel)
  injection hf with hcls hkept
  obtain ⟨hcls, hqueue⟩ := of_decide_eq_true hcls
  exact ⟨s, hs, hcls, hqueue, (moved_task_restored_iff sampleEnv s (.task 1) hcls).mpr
    (of_decide_eq_true hkept)⟩

/-- A running task is in the tree afterwards, and `hvf_rq->curr` is null. A
task that waits with a value of 99, for a slice it has used up, is back at
100. -/
theorem moved_task_leaves_trace :
    (∃ s s', Reached sampleEnv (fun _ _ => True) s ∧
      schedMoveTask sampleEnv (.task 1) s = .ok s' ∧
      ((s.rq 0).curr = .task 1 ∧ s.queue 0 = [] ∧ (s.rq 0).hvf.curr = some (.task 1)) ∧
      s'.queue 0 = [.task 1] ∧ (s'.rq 0).hvf.curr = none) ∧
    ∃ s s', Reached sampleEnv (fun _ _ => True) s ∧
      schedMoveTask sampleEnv (.task 1) s = .ok s' ∧
      s.queue 0 = [.task 1] ∧ s.value (.task 1) = 99 ∧ s'.value (.task 1) = 100 := by
  constructor
  · obtain ⟨s, hs, hf⟩ := Reached.of_eval (b := (true, some true)) sampleEnv
      (fun s => (decide ((s.rq 0).curr = .task 1 ∧ s.queue 0 = [] ∧
          (s.rq 0).hvf.curr = some (.task 1)),
        (schedMoveTask sampleEnv (.task 1) s).toOption.map fun s' : Sys =>
          decide (s'.queue 0 = [.task 1] ∧ (s'.rq 0).hvf.curr = none)))
      dispatchSecond (by decide +kernel)
    injection hf with hbefore hafter
    obtain ⟨s', hs', hafter⟩ := toOption_map_eq_some hafter
    exact ⟨s, s', hs, hs', of_decide_eq_true hbefore, of_decide_eq_true hafter⟩
  · obtain ⟨s, hs, hf⟩ := Reached.of_eval (b := (true, some (100 : Long))) sampleEnv
      (fun s => (decide (s.queue 0 = [.task 1] ∧ s.value (.task 1) = 99),
        (schedMoveTask sampleEnv (.task 1) s).toOption.map fun s' : Sys => s'.value (.task 1)))
      (useUpSlice ++ [.schedule 0 .smPreempt ⟨false, false⟩ pickNone]) (by decide +kernel)
    injection hf with hbefore hafter
    obtain ⟨s', hs', hvalue'⟩ := toOption_map_eq_some hafter
    obtain ⟨hqueue, hvalue⟩ := of_decide_eq_true hbefore
    exact ⟨s, s', hs, hs', hqueue, hvalue, hvalue'⟩

end HvfSched
