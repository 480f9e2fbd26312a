import HvfSched.Lib.StableQueue
import HvfSched.Queue.Sorted

/-!
# Seats in the trees

`Shift p s s'` is what the functions of a step that work on one task `p` do to
the trees: everybody else keeps its value and its place, and `p` keeps its
seat, goes, or arrives in front of its equals. The relation is transitive, so
a step is followed function by function, as in `Queue.Sorted`; where an entity
is linked, the conditions are those of `Keyed`.
-/

namespace HvfSched

open Lib Sys

variable {E : Env} {s₀ s s' s'' : Sys} {c d : Cpu} {p q : TaskId} {n : Nat}

/-! ## The same seats -/

/-- Every tree holds the same entities in the same order, and nobody's value
changed. -/
structure SameSeats (s s' : Sys) : Prop where
  queue : ∀ d, s'.queue d = s.queue d
  value : ∀ q, s'.value q = s.value q

namespace SameSeats

theorem refl (s : Sys) : SameSeats s s := ⟨fun _ => rfl, fun _ => rfl⟩

theorem trans (h : SameSeats s s') (h' : SameSeats s' s'') : SameSeats s s'' where
  queue d := (h'.queue d).trans (h.queue d)
  value q := (h'.value q).trans (h.value q)

theorem setTask {t : TaskStruct} (ht : t.hvf.currSchedValue = (s.task p).hvf.currSchedValue) :
    SameSeats s (s.setTask p t) := by
  refine ⟨fun _ => rfl, ?_⟩
  intro q
  unfold Sys.value
  rw [setTask_task]
  split
  next hq =>
    rw [hq]
    exact ht
  next => rfl

theorem setRq {r : Rq} (hr : r.hvf.content = (s.rq c).hvf.content) :
    SameSeats s (s.setRq c r) := by
  refine ⟨?_, fun _ => rfl⟩
  intro d
  unfold Sys.queue
  rw [setRq_rq]
  split
  next hd =>
    rw [hd]
    have htree := congrArg HvfRq.hvfTaskQueue hr
    exact congrArg OrdTree.toList htree
  next => rfl

theorem tickClock : SameSeats s s.tickClock := ⟨fun _ => rfl, fun _ => rfl⟩

theorem switchTo (c : Cpu) (prev next : TaskId) (s : Sys) :
    SameSeats s (switchTo c prev next s) where
  queue d := switchTo_queue c prev next s d
  value := (SameAccounts.of_data (.switchTo c prev next s)).value

end SameSeats

/-! ## One task moves -/

/-- Nobody but `p` changes its value, and in each tree `p` keeps its seat,
goes or arrives. -/
structure Shift (p : TaskId) (s s' : Sys) : Prop where
  others : ∀ q, q ≠ p → s'.key q = s.key q
  seat : ∀ d, Seated s.key s'.key p (s.queue d) (s'.queue d)

namespace Shift

theorem trans (h : Shift p s s') (h' : Shift p s' s'') (ht : Trees s) : Shift p s s'' where
  others q hq := (h'.others q hq).trans (h.others q hq)
  seat d := (h.seat d).trans (h'.seat d) (ht.nodup d) h'.others

/-- The seats of a state that has the same ones. -/
theorem of_same (h : SameSeats s s') : Shift p s s' where
  others q _ := congrArg Int64.toInt (h.value q)
  seat d := .kept (h.queue d) (congrArg Int64.toInt (h.value p))

theorem refl (p : TaskId) (s : Sys) : Shift p s s := .of_same (.refl s)

/-- A write to an entity that is in no tree. -/
theorem write (ht : Trees s) (hflag : (s.task p).hvf.onRq = false) (hrq : s'.rq = s.rq)
    (hv : ∀ q, q ≠ p → s'.value q = s.value q) : Shift p s s' where
  others q hq := congrArg Int64.toInt (hv q hq)
  seat d := by
    have hp : p ∉ s.queue d := by
      intro hm
      rw [((ht.mem d p).mp hm).1] at hflag
      cases hflag
    refine .gone ?_
    rw [List.erase_of_not_mem hp]
    exact queue_eq_of_rq (by rw [hrq])

theorem setTask {t : TaskStruct} (ht : t.hvf.currSchedValue = (s.task q).hvf.currSchedValue) :
    Shift p s (s.setTask q t) := .of_same (.setTask ht)

theorem setRq {r : Rq} (hr : r.hvf.content = (s.rq c).hvf.content) : Shift p s (s.setRq c r) :=
  .of_same (.setRq hr)

theorem tickClock : Shift p s s.tickClock := .of_same .tickClock

/-- `enqueue_hvf_entity` of an entity that is in no tree: it arrives in the
tree of `c`, in front of its equals, because the comparisons of the descent do
not overflow on the scale. -/
theorem link (ho : Sorted s) (ht : Trees s) (hs : Scaled s) (hflag : (s.task p).hvf.onRq = false)
    (hlink : OnScale (linkValue (s.task p))) : Shift p s (enqueueHvfEntity E c p s) where
  others q hq := congrArg Int64.toInt (enqueueHvfEntity_value_ne E c s hq)
  seat d := by
    have hp : ∀ d, p ∉ s.queue d := by
      intro d hm
      rw [((ht.mem d p).mp hm).1] at hflag
      cases hflag
    by_cases hd : d = c
    · subst hd
      refine .arrived ?_
      rw [List.erase_of_not_mem (hp d)]
      exact enqueueHvfEntity_queue_sorted (hp d) (ho d).sorted
        fun q _ => near_of_onScale hlink (hs q)
    · refine .gone ?_
      rw [List.erase_of_not_mem (hp d)]
      exact queue_eq_of_rq (enqueueHvfEntity_rq_ne E p s hd)

/-- `dequeue_hvf_entity`: the entity goes, and no value changes. -/
theorem unlink (h : dequeueHvfEntity E c p s = .ok s') : Shift p s s' where
  others q _ := congrArg Int64.toInt (unlinked_value (dequeueHvfEntity_unlinked h) q)
  seat d := by
    have hu := dequeueHvfEntity_unlinked h
    by_cases hd : d = c
    · subst hd
      exact .gone hu.queue
    · exact .kept (queue_eq_of_rq (hu.rq_ne d hd)) (congrArg Int64.toInt (unlinked_value hu p))

theorem dequeueIfOnRq (h : dequeueIfOnRq E c p s = .ok s') : Shift p s s' := by
  rcases dequeueIfOnRq_cases h with ⟨-, hd⟩ | ⟨-, hs⟩
  · exact .unlink hd
  · rw [hs]
    exact .refl p s

/-- `dequeue_task`, in each of the three outcomes of the HVF hook. -/
theorem dequeueTask {r : Bool × Sys} (ht : Trees s) (h : dequeueTask E c p s = .ok r) :
    Shift p s r.2 := by
  rcases dequeueTask_cases h with ⟨-, hd⟩ | ⟨-, hr⟩
  · rcases dequeueTaskHvf_cases hd with ⟨-, s₁, h₁, hr⟩ | ⟨-, s₁, h₁, hr⟩ | ⟨-, -, hr⟩
    · rw [hr]
      exact (Shift.unlink h₁).trans (.setRq rfl) ht
    · rw [hr]
      have hnr : Shift p s (s₁.addNrRunning c (-1)) :=
        (Shift.dequeueIfOnRq h₁).trans (.setRq rfl) ht
      exact hnr.trans (.setRq rfl) ht
    · rw [hr]
      exact .refl p s
  · rw [hr]
    exact .setRq rfl

/-- The first part of `__schedule`: `prev` is the task that may go. -/
theorem leavePrev {mode : SchedMode} {sig : Signals} (ht : Trees s)
    (h : leavePrev E c mode sig s = .ok s') : Shift (s.rq c).curr s s' := by
  rcases leavePrev_cases h with ⟨-, ⟨-, hs⟩ | ⟨-, hb⟩⟩ | ⟨-, hs⟩
  · rw [hs]
    exact .setTask rfl
  · obtain ⟨b, s₁, h₁, hs⟩ := blockTask_cases hb
    have hd : Shift (s.rq c).curr s s₁ := .dequeueTask ht h₁
    rw [hs]
    split
    next => exact hd.trans (.setTask rfl) ht
    next => exact hd
  · rw [hs]
    exact .refl _ s

/-- The task that gets the CPU leaves its tree. -/
theorem setNextTask (ht : Trees s) (h : setNextTask E c p true s = .ok s') : Shift p s s' := by
  rcases setNextTask_cases h with ⟨-, s₁, h₁, hs⟩ | ⟨-, hs⟩
  · rw [hs]
    have hd : Shift p s s₁ := .dequeueIfOnRq h₁
    have htick : Shift p s s₁.tickClock := hd.trans .tickClock ht
    refine Shift.trans ?_ (.setRq rfl) ht
    exact htick.trans (.setTask rfl) ht
  · rw [hs]
    exact .refl p s

/-- `task_dead_hvf` unlinks the dead task if it is still linked. -/
theorem finishTaskSwitch (ht : Trees s) (h : finishTaskSwitch E c p s = .ok s') : Shift p s s' := by
  have hdead : Shift p s (s.setRq c { s.rq c with deadPrev := none }) := .setRq rfl
  rcases finishTaskSwitch_cases h with ⟨-, s₁, h₁, hs⟩ | ⟨-, hs⟩
  · rw [hs]
    have htick : Shift p s (s.setRq c { s.rq c with deadPrev := none }).tickClock :=
      hdead.trans .tickClock ht
    exact (htick.trans (.dequeueIfOnRq h₁) ht).trans (.setRq rfl) ht
  · rw [hs]
    exact hdead

/-- Either the entity is in no tree, or there is nothing to reduce. -/
theorem reduced (ht : Trees s)
    (hkey : (s.task p).hvf.onRq = true → (s.task p).hvf.sliceExpired = false) :
    Shift p s (reduced p s) := by
  by_cases hflag : (s.task p).hvf.onRq = true
  · unfold Sys.reduced reduceIfExpired
    rw [hkey hflag]
    exact .setTask rfl
  · refine .write ht (Bool.eq_false_iff.mpr hflag) rfl ?_
    intro q hq
    rw [Sys.value, Sys.reduced, Sys.setEntity, setTask_ne _ _ hq]
    rfl

end Shift

/-! ## Functions that leave the seats alone

A task that is linked after a function that can only unlink it was linked
before, and nothing happened to the trees. -/

theorem dequeueIfOnRq_unlinks (h : dequeueIfOnRq E c p s = .ok s') :
    (s'.task p).hvf.onRq = false := by
  rcases dequeueIfOnRq_cases h with ⟨-, hd⟩ | ⟨hflag, hs⟩
  · rw [(dequeueHvfEntity_unlinked hd).task, if_pos rfl]
    rfl
  · rw [hs]
    exact hflag

namespace SameSeats

/-- A task that is still linked after `dequeue_task` was not taken off a tree. -/
theorem dequeueTask {r : Bool × Sys} (h : dequeueTask E c p s = .ok r)
    (hflag : (r.2.task p).hvf.onRq = true) : SameSeats s r.2 := by
  rcases dequeueTask_cases h with ⟨-, hd⟩ | ⟨-, hr⟩
  · rcases dequeueTaskHvf_cases hd with ⟨-, s₁, h₁, hr⟩ | ⟨-, s₁, h₁, hr⟩ | ⟨-, -, hr⟩
    · rw [hr] at hflag
      have hoff : (s₁.task p).hvf.onRq = false := by
        rw [(dequeueHvfEntity_unlinked h₁).task, if_pos rfl]
        rfl
      exact absurd hoff (by rw [Bool.not_eq_false]; exact hflag)
    · rw [hr] at hflag
      exact absurd (dequeueIfOnRq_unlinks h₁) (by rw [Bool.not_eq_false]; exact hflag)
    · rw [hr]
      exact .refl s
  · rw [hr]
    exact .setRq rfl

/-- `prev` is still linked after the first part of `__schedule`: it did not
block. -/
theorem leavePrev {mode : SchedMode} {sig : Signals} (h : leavePrev E c mode sig s = .ok s')
    (hflag : (s'.task (s.rq c).curr).hvf.onRq = true) : SameSeats s s' := by
  rcases leavePrev_cases h with ⟨-, ⟨-, hs⟩ | ⟨-, hb⟩⟩ | ⟨-, hs⟩
  · rw [hs]
    exact .setTask rfl
  · obtain ⟨b, s₁, h₁, hs⟩ := blockTask_cases hb
    rw [hs] at hflag ⊢
    split at hflag
    next hb =>
      rw [if_pos hb]
      rw [setOnRq, setTask_self] at hflag
      exact (SameSeats.dequeueTask h₁ hflag).trans (.setTask rfl)
    next hb =>
      rw [if_neg hb]
      exact .dequeueTask h₁ hflag
  · rw [hs]
    exact .refl s

/-- A linked `next` is one of another class, and `set_next_task` does nothing
here. -/
theorem setNextTask (h : setNextTask E c p true s = .ok s')
    (hflag : (s'.task p).hvf.onRq = true) : SameSeats s s' := by
  rcases setNextTask_cases h with ⟨-, s₁, h₁, hs⟩ | ⟨-, hs⟩
  · have hself : (s'.task p).hvf.onRq = (s₁.task p).hvf.onRq := by
      rw [hs, Sys.setHvf, setRq_task, Sys.setEntity, setTask_self]
      rfl
    rw [hself, dequeueIfOnRq_unlinks h₁] at hflag
    cases hflag
  · rw [hs]
    exact .refl s

theorem finishTaskSwitch (h : finishTaskSwitch E c p s = .ok s')
    (hflag : (s'.task p).hvf.onRq = true) : SameSeats s s' := by
  rcases finishTaskSwitch_cases h with ⟨-, s₁, h₁, hs⟩ | ⟨-, hs⟩
  · rw [hs] at hflag
    have hoff := dequeueIfOnRq_unlinks h₁
    exact absurd hoff (by rw [Bool.not_eq_false]; exact hflag)
  · rw [hs]
    exact .setRq rfl

/-- The put of a linked task that has not used up its slice. -/
theorem putPrevTask (hflag : (s.task p).hvf.onRq = true)
    (hkey : (s.task p).isRunning = true → (s.task p).hvf.sliceExpired = false) :
    SameSeats s (putPrevTask E c p s) := by
  unfold HvfSched.putPrevTask
  split
  next =>
    have hused : SameSeats s (withUsed E p s) := tickClock.trans (.setTask rfl)
    have hself : (withUsed E p s).task p
        = { s.task p with hvf := updateUsedSeHvf (s.now E) (s.task p).hvf } := by
      unfold Sys.withUsed
      rw [Sys.setEntity, setTask_self]
      rfl
    rw [putPrevTaskHvf_eq]
    split
    next hrun =>
      have hexp : ((withUsed E p s).task p).hvf.sliceExpired = false := by
        rw [hself]
        exact hkey hrun
      have hred : SameSeats s (reduced p (withUsed E p s)) := by
        refine hused.trans ?_
        unfold Sys.reduced reduceIfExpired
        rw [hexp]
        exact .setTask rfl
      have hlinked : ((reduced p (withUsed E p s)).task p).hvf.onRq = true := by
        rw [Sys.reduced, Sys.setEntity, setTask_self, hself]
        exact (reduceIfExpired_onRq _).trans hflag
      unfold HvfSched.putPrevHvfEntity
      dsimp only
      rw [if_pos hlinked]
      exact hred.trans (.setRq rfl)
    next => exact hused
  next => exact .refl s

end SameSeats

/-! ## Where a value may change -/

namespace Keyed

section Safe

variable {w : Work} (hB : ((s₀.task p).budget E s₀.reads w).Safe) (hs₀ : Scaled s₀)

include hB hs₀

/-- A link, where the overrun of the task is one of those the step may compute
with. -/
theorem shift_link (h : Keyed E s₀ p w n s)
    (hm : ((s.task p).hvf.timeUsed, (s.task p).computationTime) ∈
      ((s₀.task p).budget E s₀.reads w).overruns)
    (hflag : (s.task p).hvf.onRq = false) : Shift p s (HvfSched.enqueueHvfEntity E c p s) := by
  refine .link h.sorted h.trees (h.tracked.scaled hB hs₀) hflag ?_
  rw [← enqueueHvfEntity_value_self E c p s]
  exact (h.tracked.enqueueHvfEntity (c := c) hm).scaled hB hs₀ p

/-- `put_prev_hvf_entity` links the entity unless it is linked already. -/
theorem shift_putPrevHvfEntity (h : Keyed E s₀ p w n s)
    (hm : (s.task p).hvf.onRq = false → ((s.task p).hvf.timeUsed, (s.task p).computationTime) ∈
      ((s₀.task p).budget E s₀.reads w).overruns) :
    Shift p s (HvfSched.putPrevHvfEntity E c p s) := by
  unfold HvfSched.putPrevHvfEntity
  dsimp only
  split
  next => exact .setRq rfl
  next hflag =>
    have hflag := Bool.eq_false_iff.mpr hflag
    exact (h.shift_link hB hs₀ (hm hflag) hflag).trans (.setRq rfl) h.trees

/-- `enqueue_task` of a task that is in no tree: the value is written first,
and the link then uses it. -/
theorem shift_enqueueTask {flags : Mask} (h : Keyed E s₀ p w n s) (hp : Pending E s₀ p w s)
    (hn : n ≤ 1) (henq : w.enqueues = true) (hentry : isEntry flags = w.inits)
    (hflag : (s.task p).schedClass = .hvf → (s.task p).hvf.onRq = false)
    (he : HvfSched.enqueueTask E c p flags s = .ok s') : Shift p s s' := by
  rcases enqueueTask_cases he with ⟨hcls, he⟩ | ⟨-, hs⟩
  · obtain ⟨s₁, h₁, h₂⟩ := enqueueTaskHvf_cases he
    obtain ⟨htr, hm⟩ := h.tracked.refreshValue hp hn henq hentry h₁
    have hval : ∀ q, q ≠ p → s₁.value q = s.value q := by
      intro q hq
      rw [htr.others q hq, h.tracked.others q hq]
    have hrefresh : Shift p s s₁ := .write h.trees (hflag hcls) (refreshValue_rq h₁) hval
    have hk₁ : Keyed E s₀ p w (n + 2) s₁ :=
      ⟨htr, h.trees.rewrite (refreshValue_rq h₁) (links_refreshValue h₁),
        h.sorted.write h.trees (hflag hcls) (refreshValue_rq h₁) hval⟩
    rcases h₂ with ⟨hfree, hs⟩ | ⟨-, hs⟩
    · rw [hs]
      have hlinked := hrefresh.trans (hk₁.shift_link (c := c) hB hs₀ hm hfree.2) h.trees
      exact hlinked.trans (.setRq rfl) h.trees
    · rw [hs]
      exact hrefresh
  · rw [hs]
    exact .setRq rfl

/-- A linked task that is put must not have used up its slice. -/
theorem shift_putPrevTask (hs : SameAccounts s₀ s) (ht : Trees s) (ho : Sorted s)
    (hw : w.Puts (s.task p))
    (hkey : (s.task p).isRunning = true → (s.task p).hvf.onRq = true →
      (s.task p).hvf.sliceExpired = false) : Shift p s (HvfSched.putPrevTask E c p s) := by
  unfold HvfSched.putPrevTask
  split
  next =>
    have hused : Shift p s (Sys.withUsed E p s) := Shift.tickClock.trans (.setTask rfl) ht
    have hkused := Keyed.withUsed (E := E) (p := p) (w := w) hs ht ho
    rw [putPrevTaskHvf_eq]
    split
    next hrun =>
      have hkeyu : ((Sys.withUsed E p s).task p).hvf.onRq = true →
          ((Sys.withUsed E p s).task p).hvf.sliceExpired = false := by
        rw [withUsed_self]
        exact hkey hrun
      have hred := hused.trans (.reduced hkused.trees hkeyu) ht
      have hkred := hkused.reduced (mem_reduces_withUsed hs hw hrun) hkeyu
      exact hred.trans (hkred.shift_putPrevHvfEntity hB hs₀ (mem_overruns_reduced hs hw hrun)) ht
    next => exact hused
  next => exact .refl p s

end Safe

end Keyed

end HvfSched
