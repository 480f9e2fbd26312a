import HvfSched.Lib.Run
import HvfSched.Lib.StableQueue
import HvfSched.Queue.Ordered

/-!
# The queue of a CPU is a stable max-priority queue

The abstract queue is the list of the entities enqueued and not yet dequeued,
in order of arrival. The concrete one is the tree of a CPU under
`enqueue_hvf_entity` and `dequeue_hvf_entity`. The two are run side by side
(`lockstep`): an enqueue needs a clear flag, a dequeue a set one, and in
between an entity that is not queued may be rewritten in any way.

`StableMaxQueue` is what the tree then is to the list: the same entities,
each once and counted; the in-order sequence sorted by value, equal values
latest first; the cached maximum the last of the sequence, which is the
earliest arrival among those of maximal value.
-/

namespace HvfSched

open Lib

variable {E : Env} {c : Cpu} {s s' : Sys} {arrivals : List TaskId}

inductive QueueAct
  | enqueue (p : TaskId)
  | dequeue (p : TaskId)
  | write (p : TaskId) (t : TaskStruct)

/-- A step of the concrete queue. -/
def queueStep (E : Env) (c : Cpu) (s : Sys) : QueueAct → Option Sys
  | .enqueue p =>
    if (s.task p).hvf.onRq = false then some (enqueueHvfEntity E c p s) else none
  | .dequeue p =>
    if (s.task p).hvf.onRq = true then (dequeueHvfEntity E c p s).toOption else none
  | .write p t =>
    if (s.task p).hvf.onRq = false ∧ t.hvf.onRq = false then some (s.setTask p t) else none

/-- A step of the abstract queue. -/
def arrivalStep (arrivals : List TaskId) : QueueAct → List TaskId
  | .enqueue p => arrivals ++ [p]
  | .dequeue p => arrivals.erase p
  | .write _ _ => arrivals

def lockstep (E : Env) (c : Cpu) (x : Sys × List TaskId) (a : QueueAct) :
    Option (Sys × List TaskId) :=
  (queueStep E c x.1 a).map fun s => (s, arrivalStep x.2 a)

/-- The value an enqueue links with is less than `2^31` away from those in
the tree. -/
def nearQueued (c : Cpu) (x : Sys × List TaskId) : QueueAct → Prop
  | .enqueue p => ∀ q ∈ x.1.queue c, Near (linkValue (x.1.task p)) (x.1.value q)
  | _ => True

/-- `init_hvf_rq` has run and nothing is queued. -/
def emptyQueue (c : Cpu) (x : Sys × List TaskId) : Prop :=
  (x.1.rq c).hvf = initHvfRq ∧ (∀ p, (x.1.task p).hvf.onRq = false) ∧ x.2 = []

structure StableMaxQueue (s : Sys) (c : Cpu) (arrivals : List TaskId) : Prop where
  same : (s.queue c).Perm arrivals
  once : (s.queue c).Nodup
  count : (s.rq c).hvf.nrHvfQueued = arrivals.length
  onRq : ∀ p, (s.task p).hvf.onRq = true ↔ p ∈ arrivals
  sorted : (s.queue c).Pairwise (fun a b => s.value a ≤ s.value b)
  ties : ∀ v, (s.queue c).filter (fun a => s.value a = v)
    = (arrivals.filter (fun a => s.value a = v)).reverse
  last : (s.rq c).hvf.maxValueEntity = (s.queue c).getLast?
  earliest : (s.rq c).hvf.maxValueEntity = earliestMax s.key arrivals
  empty : (s.rq c).hvf.maxValueEntity = none ↔ arrivals = []

/-! ## The simulation relation -/

/-- The tree follows the list of arrivals. -/
structure Follows (c : Cpu) (s : Sys) (arrivals : List TaskId) : Prop where
  ordered : Ordered s c
  byKey : ByKey s.key arrivals (s.queue c)
  count : (s.rq c).hvf.nrHvfQueued = arrivals.length
  onRq : ∀ p, (s.task p).hvf.onRq = true ↔ p ∈ arrivals

theorem Follows.nodup (h : Follows c s arrivals) : arrivals.Nodup :=
  h.byKey.perm.nodup_iff.mp h.ordered.nodup

theorem Follows.not_mem {p : TaskId} (h : Follows c s arrivals)
    (hp : (s.task p).hvf.onRq = false) : p ∉ arrivals := by
  intro hm
  rw [(h.onRq p).mpr hm] at hp
  cases hp

theorem follows_start (h : emptyQueue c (s, arrivals)) : Follows c s arrivals := by
  obtain ⟨hrq, hflag, harr⟩ := h
  have hq : s.queue c = [] := by
    unfold Sys.queue
    rw [hrq]
    rfl
  dsimp only at harr
  subst harr
  refine ⟨⟨?_, ?_, ?_⟩, ?_, ?_, ?_⟩
  · rw [hq]
    exact List.nodup_nil
  · rw [hq]
    exact .nil
  · rw [hq, hrq]
    rfl
  · rw [hq]
    exact ByKey.nil
  · rw [hrq]
    rfl
  · intro p
    rw [hflag p]
    simp

theorem follows_enqueue {p : TaskId} (h : Follows c s arrivals)
    (hp : (s.task p).hvf.onRq = false)
    (hnear : ∀ q ∈ s.queue c, Near (linkValue (s.task p)) (s.value q)) :
    Follows c (enqueueHvfEntity E c p s) (arrivals ++ [p]) := by
  have hpa := h.not_mem hp
  have hpq : p ∉ s.queue c := fun hm => hpa (h.byKey.perm.mem_iff.mp hm)
  refine ⟨enqueueHvfEntity_ordered h.ordered hpq hnear, ?_, ?_, ?_⟩
  · rw [enqueueHvfEntity_queue_sorted hpq h.ordered.sorted hnear]
    refine (h.byKey.congr ?_).insert p
    intro q hq
    have hqp : q ≠ p := fun e => hpa (e ▸ hq)
    unfold Sys.key
    rw [enqueueHvfEntity_value_ne E c s hqp]
  · rw [enqueueHvfEntity_nr, h.count, List.length_append]
    simp
  · intro q
    rw [enqueueHvfEntity_task, List.mem_append, List.mem_singleton]
    split
    next hq =>
      subst hq
      exact ⟨fun _ => Or.inr rfl, fun _ => rfl⟩
    next hq =>
      rw [h.onRq q]
      exact ⟨Or.inl, fun hm => hm.resolve_right hq⟩

theorem follows_dequeue {p : TaskId} (h : Follows c s arrivals)
    (hd : dequeueHvfEntity E c p s = .ok s') : Follows c s' (arrivals.erase p) := by
  have hu := dequeueHvfEntity_unlinked hd
  have hpa : p ∈ arrivals := h.byKey.perm.mem_iff.mp hu.mem
  refine ⟨unlinked_ordered hu h.ordered, ?_, ?_, ?_⟩
  · rw [hu.queue]
    refine (h.byKey.erase h.nodup p).congr ?_
    intro q _
    unfold Sys.key
    rw [unlinked_value hu]
  · rw [hu.nr, h.count, List.length_erase_of_mem hpa]
    have hpos := List.length_pos_of_mem hpa
    omega
  · intro q
    rw [hu.task, h.nodup.mem_erase_iff]
    split
    next hq =>
      subst hq
      simp [unlinkedTask]
    next hq =>
      rw [h.onRq q]
      exact ⟨fun hm => ⟨hq, hm⟩, fun hm => hm.2⟩

/-- Rewriting an entity that is not queued changes nothing in the queue. -/
theorem follows_write {p : TaskId} {t : TaskStruct} (h : Follows c s arrivals)
    (hp : (s.task p).hvf.onRq = false) (ht : t.hvf.onRq = false) :
    Follows c (s.setTask p t) arrivals := by
  have hkey : ∀ q ∈ arrivals, (s.setTask p t).key q = s.key q := by
    intro q hq
    have hqp : q ≠ p := fun e => h.not_mem hp (e ▸ hq)
    unfold Sys.key Sys.value
    rw [Sys.setTask_ne _ _ hqp]
  have hby : ByKey (s.setTask p t).key arrivals (s.queue c) := h.byKey.congr hkey
  refine ⟨⟨h.ordered.nodup, hby.sorted, h.ordered.max⟩, hby, h.count, ?_⟩
  intro q
  rw [Sys.setTask_task]
  split
  next hq =>
    subst hq
    rw [ht]
    exact ⟨fun hf => absurd hf (by decide), fun hm => absurd hm (h.not_mem hp)⟩
  next => exact h.onRq q

/-- One step of the two queues side by side. -/
theorem lockstep_follows {x y : Sys × List TaskId} {a : QueueAct} (h : Follows c x.1 x.2)
    (hnear : nearQueued c x a) (hstep : lockstep E c x a = some y) : Follows c y.1 y.2 := by
  unfold lockstep queueStep at hstep
  cases a with
  | enqueue p =>
    dsimp only at hstep
    split at hstep
    next hp =>
      injection hstep with hstep
      rw [← hstep]
      exact follows_enqueue h hp hnear
    next => cases hstep
  | dequeue p =>
    dsimp only at hstep
    split at hstep
    next =>
      cases hd : dequeueHvfEntity E c p x.1 with
      | error e =>
        rw [hd] at hstep
        cases hstep
      | ok s₁ =>
        rw [hd] at hstep
        injection hstep with hstep
        rw [← hstep]
        exact follows_dequeue h hd
    next => cases hstep
  | write p t =>
    dsimp only at hstep
    split at hstep
    next hp =>
      injection hstep with hstep
      rw [← hstep]
      exact follows_write h hp.1 hp.2
    next => cases hstep

theorem Follows.stableMaxQueue (h : Follows c s arrivals) : StableMaxQueue s c arrivals where
  same := h.byKey.perm
  once := h.ordered.nodup
  count := h.count
  onRq := h.onRq
  sorted := h.ordered.sorted.imp fun hab => Int64.le_iff_toInt_le.mpr hab
  ties v := by
    have hv : (fun a => decide (s.value a = v)) = fun a => decide (s.key a = v.toInt) := by
      funext a
      rw [decide_eq_decide]
      exact Int64.toInt_inj.symm
    rw [hv]
    exact h.byKey.ties v.toInt
  last := h.ordered.max
  earliest := h.ordered.max.trans h.byKey.getLast?_eq
  empty := by
    rw [h.ordered.max, List.getLast?_eq_none_iff]
    constructor
    · intro hq
      have hp := h.byKey.perm
      rw [hq] at hp
      exact hp.nil_eq.symm
    · intro ha
      have hp := h.byKey.perm
      rw [ha] at hp
      exact hp.eq_nil

/-! ## The refinement -/

/-- In every run the tree is the stable max-priority queue of its arrivals,
and a dequeue of a queued entity never fails. -/
theorem entity_queue_refines_stable_max_queue (E : Env) (c : Cpu) (s : Sys)
    (arrivals : List TaskId)
    (h : Reach (emptyQueue c) (lockstep E c) (nearQueued c) (s, arrivals)) :
    StableMaxQueue s c arrivals ∧
    ∀ p, (s.task p).hvf.onRq = true → ∃ s', dequeueHvfEntity E c p s = .ok s' := by
  have hf : Follows c s arrivals :=
    Reach.invariant (fun x => Follows c x.1 x.2) (fun x hx => follows_start hx)
      (fun x a y hx hok hstep => lockstep_follows hx hok hstep) h
  refine ⟨hf.stableMaxQueue, ?_⟩
  intro p hp
  exact dequeueHvfEntity_of_mem E (hf.byKey.perm.mem_iff.mpr ((hf.onRq p).mp hp))

/-- Two tasks of equal value, in order of arrival. -/
theorem entity_queue_refines_stable_max_queue_two :
    StableMaxQueue
      (enqueueHvfEntity sampleEnv 0 (.task 1) (enqueueHvfEntity sampleEnv 0 (.task 0) boot)) 0
      [.task 0, .task 1] :=
  (entity_queue_refines_stable_max_queue sampleEnv 0 _ [.task 0, .task 1]
    (.next (a := .enqueue (.task 1))
      (.next (s := (boot, [])) (a := .enqueue (.task 0)) (.start ⟨rfl, fun p => by cases p <;> rfl, rfl⟩)
        (by intro q hq; cases hq) rfl)
      (by intro q hq; revert q; decide) rfl)).1

end HvfSched
