import HvfSched.Queue.Put
import HvfSched.Queue.Trees

/-!
# What the hooks leave of a runqueue

A hook of the class writes the HVF part of a runqueue and `nr_running`, and may
ask for a reschedule; nothing else. So a relation between a runqueue before and
after that allows these writes holds across every hook, and it is enough to say
so once. `HookFrame` is such a relation and `Along` is the relation for a whole
state. It may look at the CPU: "the request of `c` is not withdrawn" is one, and
so is "the counter of the fair class is the same".
-/

namespace HvfSched

open Lib Sys

variable {E : Env} {s s' s₁ : Sys} {c d : Cpu} {p : TaskId} {R : Cpu → Rq → Rq → Prop}

/-- A relation that the writes of the hooks are part of. -/
structure HookFrame (R : Cpu → Rq → Rq → Prop) : Prop where
  refl : ∀ d r, R d r r
  trans : ∀ {d r r₁ r'}, R d r r₁ → R d r₁ r' → R d r r'
  hvf : ∀ d r h, R d r { r with hvf := h }
  nrRunning : ∀ d r n, R d r { r with nrRunning := n }
  request : ∀ d r, R d r { r with needResched := true }
  buried : ∀ d r, R d r { r with deadPrev := none }

/-- The relation, on every CPU. -/
def Along (R : Cpu → Rq → Rq → Prop) (s s' : Sys) : Prop := ∀ d, R d (s.rq d) (s'.rq d)

namespace HookFrame

theorem same (F : HookFrame R) (s : Sys) : Along R s s := fun d => F.refl d _

theorem comp (F : HookFrame R) (h : Along R s s₁) (h' : Along R s₁ s') : Along R s s' :=
  fun d => F.trans (h d) (h' d)

theorem of_rq (F : HookFrame R) (h : s'.rq = s.rq) : Along R s s' := by
  intro d
  rw [h]
  exact F.refl d _

theorem setRq {r : Rq} (F : HookFrame R) (h : R c (s.rq c) r) : Along R s (s.setRq c r) := by
  intro d
  rw [setRq_rq]
  split
  next hd =>
    rw [hd]
    exact h
  next => exact F.refl d _

/-- A write of the HVF part, after writes that reach no runqueue. -/
theorem setHvf (F : HookFrame R) (h : HvfRq) (hs : s.rq = s₁.rq) : Along R s₁ (s.setHvf c h) :=
  F.comp (F.of_rq hs) (F.setRq (F.hvf c _ h))

theorem addNrRunning (F : HookFrame R) (s : Sys) (c : Cpu) (n : Int) :
    Along R s (s.addNrRunning c n) :=
  F.setRq (F.nrRunning c _ _)

theorem enqueueHvfEntity (F : HookFrame R) (E : Env) (c : Cpu) (p : TaskId) (s : Sys) :
    Along R s (enqueueHvfEntity E c p s) := F.setHvf _ rfl

theorem dequeueHvfEntity (F : HookFrame R) (h : dequeueHvfEntity E c p s = .ok s') : Along R s s' := by
  unfold HvfSched.dequeueHvfEntity at h
  dsimp only at h
  split at h
  next =>
    injection h with h
    rw [← h]
    exact F.setHvf _ rfl
  next => cases h

theorem dequeueIfOnRq (F : HookFrame R) (h : dequeueIfOnRq E c p s = .ok s') : Along R s s' := by
  rcases dequeueIfOnRq_cases h with ⟨-, hd⟩ | ⟨-, hs⟩
  · exact F.dequeueHvfEntity hd
  · rw [hs]
    exact F.same s

theorem enqueueTaskHvf {flags : Mask} (F : HookFrame R)
    (h : enqueueTaskHvf E c p flags s = .ok s') : Along R s s' := by
  obtain ⟨s₁, h₁, h₂⟩ := enqueueTaskHvf_cases h
  refine F.comp (F.of_rq (refreshValue_rq h₁)) ?_
  rcases h₂ with ⟨-, hs⟩ | ⟨-, hs⟩
  · rw [hs]
    exact F.comp (F.enqueueHvfEntity E c p s₁) (F.addNrRunning _ c 1)
  · rw [hs]
    exact F.same s₁

theorem dequeueTaskHvf {r : Bool × Sys} (F : HookFrame R)
    (h : dequeueTaskHvf E c p s = .ok r) : Along R s r.2 := by
  rcases dequeueTaskHvf_cases h with ⟨-, s₁, h₁, hr⟩ | ⟨-, s₁, h₁, hr⟩ | ⟨-, -, hr⟩
  · rw [hr]
    exact F.comp (F.dequeueHvfEntity h₁) (F.addNrRunning s₁ c (-1))
  · rw [hr]
    exact F.comp (F.comp (F.dequeueIfOnRq h₁) (F.addNrRunning s₁ c (-1))) (F.setHvf _ rfl)
  · rw [hr]
    exact F.same s

theorem putPrevTask (F : HookFrame R) (E : Env) (c : Cpu) (p : TaskId) (s : Sys) :
    Along R s (putPrevTask E c p s) := by
  unfold HvfSched.putPrevTask
  split
  next =>
    rw [putPrevTaskHvf_eq]
    split
    next =>
      have hred : Along R s (reduced p (withUsed E p s)) := F.of_rq rfl
      refine F.comp hred ?_
      unfold putPrevHvfEntity
      dsimp only
      split
      next => exact F.setHvf _ rfl
      next => exact F.comp (F.enqueueHvfEntity E c p _) (F.setHvf _ rfl)
    next => exact F.of_rq rfl
  next => exact F.same s

theorem setNextTask (F : HookFrame R) (h : setNextTask E c p true s = .ok s') : Along R s s' := by
  rcases setNextTask_cases h with ⟨-, s₁, h₁, hs⟩ | ⟨-, hs⟩
  · rw [hs]
    exact F.comp (F.dequeueIfOnRq h₁) (F.setHvf _ rfl)
  · rw [hs]
    exact F.same s

theorem putPrevSetNextTask {prev next : TaskId} (F : HookFrame R)
    (h : putPrevSetNextTask E c prev next s = .ok s') : Along R s s' := by
  rcases putPrevSetNextTask_cases h with ⟨-, hs⟩ | ⟨-, hset⟩
  · rw [hs]
    exact F.same s
  · exact F.comp (F.putPrevTask E c prev s) (F.setNextTask hset)

/-- The context switch writes more than a hook. -/
theorem switchTo {prev next : TaskId} (F : HookFrame R)
    (hsame : R c (s.rq c) { s.rq c with needResched := false })
    (hother : ∀ dead, R c (s.rq c)
      { s.rq c with curr := next, needResched := false, deadPrev := dead }) :
    Along R s (switchTo c prev next s) := by
  unfold HvfSched.switchTo
  split
  next => exact F.setRq hsame
  next => exact F.setRq (s := s) (hother _)

theorem finishTaskSwitch (F : HookFrame R) (h : finishTaskSwitch E c p s = .ok s') : Along R s s' := by
  have hdead : Along R s (s.setRq c { s.rq c with deadPrev := none }) := F.setRq (F.buried c _)
  rcases finishTaskSwitch_cases h with ⟨-, s₁, h₁, hs⟩ | ⟨-, hs⟩
  · rw [hs]
    have htick : Along R (s.setRq c { s.rq c with deadPrev := none })
        (s.setRq c { s.rq c with deadPrev := none }).tickClock := F.of_rq rfl
    exact F.comp (F.comp (F.comp hdead htick) (F.dequeueIfOnRq h₁)) (F.setHvf _ rfl)
  · rw [hs]
    exact hdead

theorem reschedCurr (F : HookFrame R) (c : Cpu) (s : Sys) : Along R s (reschedCurr c s) :=
  F.setRq (F.request c _)

theorem schedTick (F : HookFrame R) (E : Env) (c : Cpu) (s : Sys) : Along R s (schedTick E c s) := by
  unfold HvfSched.schedTick taskTickHvf
  dsimp only
  split
  next =>
    split
    next => exact F.comp (F.of_rq rfl) (F.reschedCurr c _)
    next => exact F.of_rq rfl
  next => exact F.same s

theorem wakeupPreempt (F : HookFrame R) (thisCpu c : Cpu) (p : TaskId) (s : Sys) :
    Along R s (wakeupPreempt thisCpu c p s) := by
  rcases wakeupPreempt_cases thisCpu c p s with hs | hs
  · rw [hs]
    exact F.same s
  · rw [hs]
    exact F.reschedCurr c s

theorem checkClassChanging {cls : SchedClass} (F : HookFrame R)
    (h : checkClassChanging E p cls s = .ok s') : Along R s s' := by
  rcases checkClassChanging_cases h with ⟨-, hg⟩ | ⟨-, hs⟩
  · exact F.of_rq (giveDefaults_rq hg)
  · rw [hs]
    exact F.same s

end HookFrame

end HvfSched
