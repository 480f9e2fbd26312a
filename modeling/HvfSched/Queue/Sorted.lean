import HvfSched.Queue.Ordered
import HvfSched.Queue.Trees
import HvfSched.Values.Scale

/-!
# Sorted trees under changing keys

The key of a node is a field of the entity it is embedded in, and the hooks
write it without regard to the tree. `Sorted s` says that every tree is
ordered by the values its entities have now; it survives a hook unless the
hook writes the value of a linked entity.

There are two hooks that can do so. `put_prev_task_hvf` reduces the value of
a task whose slice is used up before it looks at the flag, and
`enqueue_task_hvf` recomputes the value before it looks at the flag. The
lemmas about these two ask for an unlinked entity; those about linking,
unlinking and everything else ask for nothing.

`Keyed` is what is known in the middle of a step: the trees agree with the
flags and are sorted, and the values are those of `Tracked`.
-/

namespace HvfSched

open Lib Sys

variable {E : Env} {s₀ s s' : Sys} {c d : Cpu} {p q : TaskId} {n : Nat}

def Sorted (s : Sys) : Prop := ∀ c, Ordered s c

namespace Sorted

/-- Same queues, and the same values inside them. -/
theorem congr (h : Sorted s) (hq : ∀ c, (s'.rq c).hvf.content = (s.rq c).hvf.content)
    (hv : ∀ c, ∀ p ∈ s.queue c, s'.value p = s.value p) : Sorted s' := by
  intro c
  have htree := congrArg (fun h : HvfRq => h.hvfTaskQueue.toList) (hq c)
  have hmax := congrArg HvfRq.maxValueEntity (hq c)
  exact (h c).congr htree hmax (hv c)

/-- No queue and no value changed. -/
theorem same (h : Sorted s) (hq : ∀ c, (s'.rq c).hvf.content = (s.rq c).hvf.content)
    (hv : ∀ p, s'.value p = s.value p) : Sorted s' := h.congr hq fun _ p _ => hv p

theorem setRq (h : Sorted s) {r : Rq} (hr : r.hvf.content = (s.rq c).hvf.content) :
    Sorted (s.setRq c r) := by
  refine h.same ?_ fun _ => rfl
  intro d
  rw [setRq_rq]
  split
  next hd =>
    rw [hd]
    exact hr
  next => rfl

/-- A write to the entity of one task, if that task is in no tree. -/
theorem write (h : Sorted s) (ht : Trees s) (hflag : (s.task p).hvf.onRq = false)
    (hrq : s'.rq = s.rq) (hv : ∀ q, q ≠ p → s'.value q = s.value q) : Sorted s' := by
  refine h.congr (fun c => by rw [hrq]) ?_
  intro c q hq
  refine hv q ?_
  intro e
  have hlinked := ((ht.mem c q).mp hq).1
  rw [e, hflag] at hlinked
  cases hlinked

theorem enqueueHvfEntity (h : Sorted s) (ht : Trees s) (hflag : (s.task p).hvf.onRq = false)
    (hs : Scaled s) (hlink : OnScale (linkValue (s.task p))) :
    Sorted (enqueueHvfEntity E c p s) := by
  have hp : ∀ d, p ∉ s.queue d := by
    intro d hm
    have hlinked := ((ht.mem d p).mp hm).1
    rw [hflag] at hlinked
    cases hlinked
  intro d
  by_cases hd : d = c
  · rw [hd]
    exact enqueueHvfEntity_ordered (h c) (hp c) fun q _ => near_of_onScale hlink (hs q)
  · have hrq := enqueueHvfEntity_rq_ne E p s hd
    refine (h d).congr (queue_eq_of_rq hrq) (by rw [hrq]) ?_
    intro q hq
    have hqp : q ≠ p := fun e => hp d (e ▸ hq)
    exact enqueueHvfEntity_value_ne E c s hqp

theorem dequeueHvfEntity (h : Sorted s) (hd : dequeueHvfEntity E c p s = .ok s') : Sorted s' := by
  have hu := dequeueHvfEntity_unlinked hd
  intro d
  by_cases hdc : d = c
  · rw [hdc]
    exact unlinked_ordered hu (h c)
  · have hrq := hu.rq_ne d hdc
    exact (h d).congr (queue_eq_of_rq hrq) (by rw [hrq]) fun q _ => unlinked_value hu q

theorem dequeueIfOnRq (h : Sorted s) (hd : dequeueIfOnRq E c p s = .ok s') : Sorted s' := by
  rcases dequeueIfOnRq_cases hd with ⟨-, hd⟩ | ⟨-, hs⟩
  · exact h.dequeueHvfEntity hd
  · rw [hs]
    exact h

theorem dequeueTask {r : Bool × Sys} (h : Sorted s) (hd : dequeueTask E c p s = .ok r) :
    Sorted r.2 := by
  rcases dequeueTask_cases hd with ⟨-, hd⟩ | ⟨-, hr⟩
  · rcases dequeueTaskHvf_cases hd with ⟨-, s₁, h₁, hr⟩ | ⟨-, s₁, h₁, hr⟩ | ⟨-, -, hr⟩
    · rw [hr]
      exact (h.dequeueHvfEntity h₁).setRq rfl
    · rw [hr]
      refine Sorted.setRq ?_ rfl
      exact (h.dequeueIfOnRq h₁).setRq rfl
    · rw [hr]
      exact h
  · rw [hr]
    exact h.setRq rfl

theorem setTask (h : Sorted s) {t : TaskStruct}
    (ht : t.hvf.currSchedValue = (s.task p).hvf.currSchedValue) : Sorted (s.setTask p t) := by
  refine h.same (fun _ => rfl) ?_
  intro q
  unfold Sys.value
  rw [setTask_task]
  split
  next hq =>
    rw [hq]
    exact ht
  next => rfl

theorem leavePrev {mode : SchedMode} {sig : Signals} (h : Sorted s)
    (hl : leavePrev E c mode sig s = .ok s') : Sorted s' := by
  rcases leavePrev_cases hl with ⟨-, ⟨-, hs⟩ | ⟨-, hb⟩⟩ | ⟨-, hs⟩
  · rw [hs]
    exact h.setTask rfl
  · obtain ⟨b, s₁, h₁, hs⟩ := blockTask_cases hb
    have hd : Sorted s₁ := h.dequeueTask h₁
    rw [hs]
    split
    next => exact hd.setTask rfl
    next => exact hd
  · rw [hs]
    exact h

theorem setNextTask (h : Sorted s) (hn : setNextTask E c p true s = .ok s') : Sorted s' := by
  rcases setNextTask_cases hn with ⟨-, s₁, h₁, hs⟩ | ⟨-, hs⟩
  · rw [hs]
    have hd := h.dequeueIfOnRq h₁
    have htick : Sorted s₁.tickClock := hd.same (fun _ => rfl) fun _ => rfl
    refine Sorted.setRq ?_ rfl
    exact htick.setTask rfl
  · rw [hs]
    exact h

theorem finishTaskSwitch (h : Sorted s) (hf : finishTaskSwitch E c p s = .ok s') : Sorted s' := by
  have hdead : Sorted (s.setRq c { s.rq c with deadPrev := none }) := h.setRq rfl
  rcases finishTaskSwitch_cases hf with ⟨-, s₁, h₁, hs⟩ | ⟨-, hs⟩
  · rw [hs]
    have htick : Sorted (s.setRq c { s.rq c with deadPrev := none }).tickClock :=
      hdead.same (fun _ => rfl) fun _ => rfl
    exact (htick.dequeueIfOnRq h₁).setRq rfl
  · rw [hs]
    exact hdead
end Sorted

/-! ## In the middle of a step -/

structure Keyed (E : Env) (s₀ : Sys) (p : TaskId) (w : Work) (n : Nat) (s : Sys) : Prop where
  tracked : Tracked E s₀ p w n s
  trees : Trees s
  sorted : Sorted s

namespace Keyed

variable {w : Work}

theorem withUsed (hs : SameAccounts s₀ s) (ht : Trees s) (ho : Sorted s) :
    Keyed E s₀ p w 1 (withUsed E p s) := by
  refine ⟨.withUsed hs, ht.tickClock.setEntity rfl, ?_⟩
  have htick : Sorted s.tickClock := ho.same (fun _ => rfl) fun _ => rfl
  exact htick.setTask rfl

/-- A value is reduced while the entity is in no tree, or there is nothing to
reduce. -/
theorem reduced (h : Keyed E s₀ p w n s)
    (hm : (s.task p).hvf.sliceExpired = true →
      (s.task p).hvf.timeUsed ∈ ((s₀.task p).budget E s₀.reads w).reduces)
    (hkey : (s.task p).hvf.onRq = true → (s.task p).hvf.sliceExpired = false) :
    Keyed E s₀ p w n (reduced p s) := by
  refine ⟨h.tracked.reduced hm, h.trees.setEntity (reduceIfExpired_onRq _), ?_⟩
  by_cases hflag : (s.task p).hvf.onRq = true
  · unfold Sys.reduced reduceIfExpired
    rw [hkey hflag]
    exact h.sorted.setTask rfl
  · refine h.sorted.write h.trees (Bool.eq_false_iff.mpr hflag) rfl ?_
    intro q hq
    rw [Sys.value, Sys.reduced, Sys.setEntity, setTask_ne _ _ hq]
    rfl

section Safe

variable (hB : ((s₀.task p).budget E s₀.reads w).Safe) (hs₀ : Scaled s₀)

include hB hs₀

theorem enqueueHvfEntity (h : Keyed E s₀ p w n s)
    (hm : ((s.task p).hvf.timeUsed, (s.task p).computationTime) ∈
      ((s₀.task p).budget E s₀.reads w).overruns)
    (hflag : (s.task p).hvf.onRq = false) (hcpu : (s.task p).cpu = c) :
    Keyed E s₀ p w n (enqueueHvfEntity E c p s) := by
  have htr := h.tracked.enqueueHvfEntity (c := c) hm
  refine ⟨htr, h.trees.enqueueHvfEntity hflag hcpu, ?_⟩
  refine h.sorted.enqueueHvfEntity h.trees hflag (h.tracked.scaled hB hs₀) ?_
  rw [← enqueueHvfEntity_value_self E c p s]
  exact htr.scaled hB hs₀ p

theorem putPrevHvfEntity (h : Keyed E s₀ p w n s)
    (hm : (s.task p).hvf.onRq = false → ((s.task p).hvf.timeUsed, (s.task p).computationTime) ∈
      ((s₀.task p).budget E s₀.reads w).overruns) (hcpu : (s.task p).cpu = c) :
    Keyed E s₀ p w n (putPrevHvfEntity E c p s) := by
  refine ⟨h.tracked.putPrevHvfEntity hm, h.trees.putPrevHvfEntity hcpu, ?_⟩
  unfold HvfSched.putPrevHvfEntity
  dsimp only
  split
  next => exact h.sorted.setRq rfl
  next hflag =>
    have hflag := Bool.eq_false_iff.mpr hflag
    exact (h.enqueueHvfEntity hB hs₀ (hm hflag) hflag hcpu).sorted.setRq rfl

/-- The value may be recomputed while the entity is in no tree. -/
theorem enqueueTask {flags : Mask} (h : Keyed E s₀ p w n s) (hp : Pending E s₀ p w s)
    (hn : n ≤ 1) (henq : w.enqueues = true) (hentry : isEntry flags = w.inits)
    (hflag : (s.task p).schedClass = .hvf → (s.task p).hvf.onRq = false)
    (hcpu : (s.task p).cpu = c) (he : enqueueTask E c p flags s = .ok s') :
    Keyed E s₀ p w (n + 2) s' := by
  refine ⟨h.tracked.enqueueTask hp hn henq hentry he, h.trees.enqueueTask hcpu he, ?_⟩
  rcases enqueueTask_cases he with ⟨hcls, he⟩ | ⟨-, hs⟩
  · obtain ⟨s₁, h₁, h₂⟩ := enqueueTaskHvf_cases he
    have hl := links_refreshValue h₁
    obtain ⟨htr, hm⟩ := h.tracked.refreshValue hp hn henq hentry h₁
    have hcpu₁ : (s₁.task p).cpu = c := by
      have hb := congrArg (fun l => (l.task p).cpu) hl
      exact hb.trans hcpu
    have hval : ∀ q, q ≠ p → s₁.value q = s.value q := by
      intro q hq
      rw [htr.others q hq, h.tracked.others q hq]
    have h₁ : Keyed E s₀ p w (n + 2) s₁ :=
      ⟨htr, h.trees.rewrite (refreshValue_rq h₁) hl,
        h.sorted.write h.trees (hflag hcls) (refreshValue_rq h₁) hval⟩
    rcases h₂ with ⟨hfree, hs⟩ | ⟨-, hs⟩
    · rw [hs]
      exact (h₁.enqueueHvfEntity hB hs₀ hm hfree.2 hcpu₁).sorted.setRq rfl
    · rw [hs]
      exact h₁.sorted
  · rw [hs]
    exact h.sorted.setRq rfl

/-- A linked task that is put must not have used up its slice. -/
theorem putPrevTask (hs : SameAccounts s₀ s) (ht : Trees s) (ho : Sorted s)
    (hw : w.Puts (s.task p)) (hcpu : (s.task p).cpu = c)
    (hkey : (s.task p).isRunning = true → (s.task p).hvf.onRq = true →
      (s.task p).hvf.sliceExpired = false) :
    Keyed E s₀ p w 1 (putPrevTask E c p s) := by
  refine ⟨.putPrevTask hs hw, ht.putPrevTask fun _ => hcpu, ?_⟩
  unfold HvfSched.putPrevTask
  split
  next =>
    have hused := Keyed.withUsed (E := E) (p := p) (w := w) hs ht ho
    rw [putPrevTaskHvf_eq]
    split
    next hrun =>
      have hkeyu : ((HvfSched.Sys.withUsed E p s).task p).hvf.onRq = true →
          ((HvfSched.Sys.withUsed E p s).task p).hvf.sliceExpired = false := by
        rw [withUsed_self]
        exact hkey hrun
      have hred := hused.reduced (mem_reduces_withUsed hs hw hrun) hkeyu
      refine (hred.putPrevHvfEntity hB hs₀ (mem_overruns_reduced hs hw hrun) ?_).sorted
      rw [Sys.reduced, Sys.setEntity, setTask_self, withUsed_self]
      exact hcpu
    next => exact hused.sorted
  next => exact ho

end Safe

end Keyed

end HvfSched
