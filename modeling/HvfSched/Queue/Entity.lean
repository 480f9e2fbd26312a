import HvfSched.Model.System

/-!
# What linking and unlinking an entity does to the machine

`enqueue_hvf_entity` and `dequeue_hvf_entity` are the only functions that
change a tree, its cached maximum or its counter. The lemmas here say what
each of them does to every part of the state, so that nothing above has to
unfold them.
-/

namespace HvfSched

open Lib

variable {E : Env} {s s' : Sys} {c d : Cpu} {p q : TaskId}

/-! ## `enqueue_hvf_entity` -/

/-- The entity as it is linked: punished if it overran, flag set. -/
def linkedTask (t : TaskStruct) : TaskStruct :=
  { penaltyIfExceeded t with hvf := { (penaltyIfExceeded t).hvf with onRq := true } }

theorem enqueueHvfEntity_task (E : Env) (c : Cpu) (p : TaskId) (s : Sys) (q : TaskId) :
    (enqueueHvfEntity E c p s).task q = if q = p then linkedTask (s.task p) else s.task q := by
  unfold enqueueHvfEntity
  dsimp only
  rw [Sys.setHvf, Sys.setRq_task, Sys.setEntity, Sys.setTask_setTask, Sys.setTask_task]
  simp only [Sys.setTask_self]
  rfl

theorem enqueueHvfEntity_rq_ne (E : Env) (p : TaskId) (s : Sys) (hd : d ≠ c) :
    (enqueueHvfEntity E c p s).rq d = s.rq d := by
  unfold enqueueHvfEntity
  dsimp only
  rw [Sys.setHvf, Sys.setRq_ne _ _ hd]
  rfl

theorem enqueueHvfEntity_nr (E : Env) (c : Cpu) (p : TaskId) (s : Sys) :
    ((enqueueHvfEntity E c p s).rq c).hvf.nrHvfQueued = (s.rq c).hvf.nrHvfQueued + 1 := by
  unfold enqueueHvfEntity
  dsimp only
  rw [Sys.setHvf, Sys.setRq_self]
  rfl

/-- The tree after the insertion. -/
def insertedTree (E : Env) (c : Cpu) (p : TaskId) (s : Sys) : OrdTree TaskId :=
  hvfRqRbtreeInsert E (s.setTask p (penaltyIfExceeded (s.task p))) p (s.rq c).hvf.hvfTaskQueue

theorem enqueueHvfEntity_queue_self (E : Env) (c : Cpu) (p : TaskId) (s : Sys) :
    (enqueueHvfEntity E c p s).queue c = (insertedTree E c p s).toList := by
  unfold enqueueHvfEntity Sys.queue
  dsimp only
  rw [Sys.setHvf, Sys.setRq_self]
  rfl

theorem enqueueHvfEntity_max (E : Env) (c : Cpu) (p : TaskId) (s : Sys) :
    ((enqueueHvfEntity E c p s).rq c).hvf.maxValueEntity =
      match (s.rq c).hvf.maxValueEntity with
      | none => (insertedTree E c p s).toList.getLast?
      | some m =>
        if (enqueueHvfEntity E c p s).value m < (enqueueHvfEntity E c p s).value p
        then succIn m (insertedTree E c p s).toList else some m := by
  unfold enqueueHvfEntity
  dsimp only
  rw [Sys.setHvf, Sys.setRq_self]
  rfl

theorem queue_eq_of_rq (h : s'.rq d = s.rq d) : s'.queue d = s.queue d := by
  unfold Sys.queue
  rw [h]

/-- The new entity lands at one place; the others keep their order. -/
theorem enqueueHvfEntity_split (E : Env) (c : Cpu) (p : TaskId) (s : Sys) :
    ∃ l₁ l₂, s.queue c = l₁ ++ l₂ ∧ (enqueueHvfEntity E c p s).queue c = l₁ ++ p :: l₂ := by
  rw [enqueueHvfEntity_queue_self, insertedTree, hvfRqRbtreeInsert, E.rb.insertColor_toList]
  exact OrdTree.linkLeaf_toList_split _ p _

theorem enqueueHvfEntity_perm (E : Env) (c : Cpu) (p : TaskId) (s : Sys) :
    ((enqueueHvfEntity E c p s).queue c).Perm (p :: s.queue c) := by
  obtain ⟨l₁, l₂, h, h'⟩ := enqueueHvfEntity_split E c p s
  rw [h, h']
  exact List.perm_middle

/-- The cached maximum stays a member of the tree. -/
theorem enqueueHvfEntity_max_mem
    (hmax : ∀ m, (s.rq c).hvf.maxValueEntity = some m → m ∈ s.queue c) {m : TaskId}
    (h : ((enqueueHvfEntity E c p s).rq c).hvf.maxValueEntity = some m) :
    m ∈ (enqueueHvfEntity E c p s).queue c := by
  rw [enqueueHvfEntity_max] at h
  rw [enqueueHvfEntity_queue_self]
  split at h
  next => exact List.mem_of_getLast? h
  next m₀ hm₀ =>
    split at h
    next => exact succIn_mem h
    next =>
      injection h with h
      subst h
      have hmem := (enqueueHvfEntity_perm E c p s).mem_iff.mpr
        (List.mem_cons_of_mem p (hmax m₀ hm₀))
      rwa [enqueueHvfEntity_queue_self] at hmem

/-! ## `dequeue_hvf_entity` -/

/-- The entity after it was unlinked. -/
def unlinkedTask (t : TaskStruct) : TaskStruct := { t with hvf := { t.hvf with onRq := false } }

/-- The state after a successful `dequeue_hvf_entity`. -/
structure Unlinked (E : Env) (c : Cpu) (p : TaskId) (s s' : Sys) : Prop where
  mem : p ∈ s.queue c
  task : ∀ q, s'.task q = if q = p then unlinkedTask (s.task p) else s.task q
  rq_ne : ∀ d, d ≠ c → s'.rq d = s.rq d
  queue : s'.queue c = (s.queue c).erase p
  nr : (s'.rq c).hvf.nrHvfQueued = (s.rq c).hvf.nrHvfQueued - 1
  max : (s'.rq c).hvf.maxValueEntity =
    if (s.rq c).hvf.maxValueEntity = some p then predIn p (s.queue c)
    else (s.rq c).hvf.maxValueEntity

theorem dequeueHvfEntity_unlinked (h : dequeueHvfEntity E c p s = .ok s') :
    Unlinked E c p s s' := by
  unfold dequeueHvfEntity at h
  dsimp only at h
  split at h
  next hp =>
    injection h with h
    subst h
    refine ⟨hp, fun q => rfl, fun d hd => ?_, ?_, ?_, ?_⟩
    · rw [Sys.setHvf, Sys.setRq_ne _ _ hd]
      rfl
    · unfold Sys.queue
      rw [Sys.setHvf, Sys.setRq_self]
      exact E.rb.erase_toList p _ hp
    · rw [Sys.setHvf, Sys.setRq_self]
    · rw [Sys.setHvf, Sys.setRq_self]
      rfl
  next => cases h

/-- Unlinking succeeds exactly on the members of the tree. -/
theorem dequeueHvfEntity_of_mem (E : Env) (h : p ∈ s.queue c) :
    ∃ s', dequeueHvfEntity E c p s = .ok s' := by
  unfold dequeueHvfEntity
  dsimp only
  rw [if_pos (by exact h)]
  exact ⟨_, rfl⟩

end HvfSched
