import HvfSched.Queue.Put
import HvfSched.Runs.Order

/-!
# Tasks are conserved

When one HVF task takes the CPU from another, the old one is linked while the
new one is still in the tree, as its cached maximum, and only then is the new
one unlinked. The order of a tree and its maximum survive each of the two
operations on their own (`TreeInv.link`, `TreeInv.unlink`), so they survive
the switch, wherever the old task lands: above the new one, below it or level
with it.

`TreeInv` is what is asked of a tree: sorted by the values its entities have
now, the last of them cached as the maximum, counted, and flagged. In every
run that keeps the trees sorted it holds of all trees
(`reached_treeInv`).
-/

namespace HvfSched

open Lib Sys

variable {E : Env} {s s' s₁ : Sys} {c d : Cpu} {p q m prev next : TaskId}

structure TreeInv (s : Sys) (c : Cpu) : Prop where
  ordered : Ordered s c
  count : (s.rq c).hvf.nrHvfQueued = (s.queue c).length
  flag : ∀ q ∈ s.queue c, (s.task q).hvf.onRq = true

instance (s : Sys) (c : Cpu) : Decidable (TreeInv s c) :=
  decidable_of_iff
    (((s.queue c).Nodup ∧ (s.queue c).Pairwise (fun a b => s.key a ≤ s.key b) ∧
      (s.rq c).hvf.maxValueEntity = (s.queue c).getLast?) ∧
      (s.rq c).hvf.nrHvfQueued = (s.queue c).length ∧
      ∀ q ∈ s.queue c, (s.task q).hvf.onRq = true)
    ⟨fun ⟨⟨h₁, h₂, h₃⟩, h₄, h₅⟩ => ⟨⟨h₁, h₂, h₃⟩, h₄, h₅⟩,
      fun ⟨⟨h₁, h₂, h₃⟩, h₄, h₅⟩ => ⟨⟨h₁, h₂, h₃⟩, h₄, h₅⟩⟩

/-- The same tree over entities with the same values and flags. -/
theorem TreeInv.congr (h : TreeInv s c) (hrq : (s'.rq c).hvf.content = (s.rq c).hvf.content)
    (hent : ∀ q ∈ s.queue c, s'.value q = s.value q ∧
      (s'.task q).hvf.onRq = (s.task q).hvf.onRq) : TreeInv s' c := by
  have hqueue : s'.queue c = s.queue c := by
    have hq := congrArg (fun x : HvfRq => x.hvfTaskQueue.toList) hrq
    exact hq
  have hmax : (s'.rq c).hvf.maxValueEntity = (s.rq c).hvf.maxValueEntity := by
    have hm := congrArg HvfRq.maxValueEntity hrq
    exact hm
  have hnr : (s'.rq c).hvf.nrHvfQueued = (s.rq c).hvf.nrHvfQueued := by
    have hn := congrArg HvfRq.nrHvfQueued hrq
    exact hn
  refine ⟨h.ordered.congr hqueue hmax fun q hq => (hent q hq).1, ?_, ?_⟩
  · rw [hnr, hqueue]
    exact h.count
  · intro q hq
    rw [hqueue] at hq
    rw [(hent q hq).2]
    exact h.flag q hq

/-- A new entity is linked. -/
theorem TreeInv.link (h : TreeInv s c) (hp : p ∉ s.queue c)
    (hnear : ∀ q ∈ s.queue c, Near (linkValue (s.task p)) (s.value q)) :
    TreeInv (enqueueHvfEntity E c p s) c := by
  refine ⟨enqueueHvfEntity_ordered h.ordered hp hnear, ?_, ?_⟩
  · have hlen := (enqueueHvfEntity_perm E c p s).length_eq
    rw [List.length_cons] at hlen
    rw [enqueueHvfEntity_nr, h.count, hlen]
    omega
  · intro q hq
    rw [enqueueHvfEntity_task]
    split
    next => rfl
    next hqp =>
      have hmem := (enqueueHvfEntity_perm E c p s).mem_iff.mp hq
      exact h.flag q ((List.mem_cons.mp hmem).resolve_left hqp)

/-- An entity is unlinked. -/
theorem TreeInv.unlink (h : TreeInv s c) (hu : Unlinked E c p s s') : TreeInv s' c := by
  refine ⟨unlinked_ordered hu h.ordered, ?_, ?_⟩
  · have hpos : 0 < (s.queue c).length := List.length_pos_of_mem hu.mem
    rw [hu.nr, h.count, hu.queue, List.length_erase_of_mem hu.mem]
    omega
  · intro q hq
    rw [hu.queue] at hq
    have hqp : q ≠ p := (h.ordered.nodup.mem_erase_iff.mp hq).1
    rw [hu.task, if_neg hqp]
    exact h.flag q (List.mem_of_mem_erase hq)

/-- `hvf_rq->curr` is no part of the tree. -/
theorem TreeInv.setCurr (h : TreeInv s c) (x : Option TaskId) :
    TreeInv (s.setHvf c { (s.rq c).hvf with curr := x }) c := by
  apply h.congr
  · rw [Sys.setHvf, setRq_self]
    rfl
  · exact fun _ _ => ⟨rfl, rfl⟩

/-- The trees of every run that keeps them sorted. -/
theorem reached_treeInv (h : Reached E (keysKept E) s) (c : Cpu) : TreeInv s c := by
  obtain ⟨hb, -, hs⟩ := reached_sorted (fun _ _ hk => hk) h
  refine ⟨hs c, hb.trees.count c, ?_⟩
  intro q hq
  exact ((hb.trees.mem c q).mp hq).1

/-! ## The context switch -/

/-- The runqueue: its tree is in order and does not hold the running entity. -/
structure QueueInv (s : Sys) (c : Cpu) : Prop extends TreeInv s c where
  curr : ∀ q ∈ (s.rq c).hvf.curr, q ∉ s.queue c

instance (s : Sys) (c : Cpu) : Decidable (QueueInv s c) :=
  decidable_of_iff (TreeInv s c ∧ ∀ q ∈ (s.rq c).hvf.curr, q ∉ s.queue c)
    ⟨fun ⟨h₁, h₂⟩ => ⟨h₁, h₂⟩, fun ⟨h₁, h₂⟩ => ⟨h₁, h₂⟩⟩

/-- An HVF task that could go on runs, the tree is not empty and the entity
that will be picked belongs to an HVF task. -/
structure ReadyToSwitch (s : Sys) (c : Cpu) (prev : TaskId) : Prop extends QueueInv s c where
  hvfCurr : (s.rq c).hvf.curr = some prev
  hvf : (s.task prev).schedClass = .hvf
  running : (s.task prev).isRunning = true
  unlinked : (s.task prev).hvf.onRq = false
  nonempty : s.queue c ≠ []
  next : ∀ m ∈ (s.rq c).hvf.maxValueEntity, (s.task m).schedClass = .hvf

/-- `next` has taken the CPU from `prev`. -/
structure Switched (E : Env) (s : Sys) (c : Cpu) (prev next : TaskId) (s' : Sys) : Prop
    extends QueueInv s' c where
  entities : (s'.queue c).Perm (prev :: (s.queue c).erase next)
  requeued : s'.value prev = requeueValue E s prev
  values : ∀ q, q ≠ prev → s'.value q = s.value q
  hvfCurr : (s'.rq c).hvf.curr = some next
  runtime : (s'.task next).hvf.runtime = 0
  nrHvfQueued : (s'.rq c).hvf.nrHvfQueued = (s.rq c).hvf.nrHvfQueued
  nrRunning : (s'.rq c).nrRunning = (s.rq c).nrRunning

/-- The old task is put back. -/
theorem ReadyToSwitch.put (h : ReadyToSwitch s c prev)
    (hnear : ∀ q ∈ s.queue c, Near (requeueValue E s prev) (s.value q)) :
    TreeInv (putPrevTask E c prev s) c ∧
      ((putPrevTask E c prev s).queue c).Perm (prev :: s.queue c) := by
  have hout : prev ∉ s.queue c := h.curr prev h.hvfCurr
  have hvalue : requeueValue E s prev = linkValue (putTask E s prev) := by
    rw [requeueValue_eq, h.unlinked]
    rfl
  obtain ⟨s₀, hrq, htask, heq⟩ := putPrevTask_eq_link E c h.hvf h.running h.unlinked
  have hqueue : s₀.queue c = s.queue c := by
    unfold Sys.queue
    rw [hrq]
  have hself : s₀.task prev = putTask E s prev := by rw [htask, if_pos rfl]
  have hother : ∀ q ∈ s.queue c, s₀.task q = s.task q := by
    intro q hq
    rw [htask, if_neg]
    rintro rfl
    exact hout hq
  have hinv : TreeInv s₀ c := by
    apply h.toTreeInv.congr
    · rw [hrq]
    · intro q hq
      rw [Sys.value, hother q hq]
      exact ⟨rfl, rfl⟩
  rw [heq]
  constructor
  · apply TreeInv.setCurr
    apply hinv.link
    · rw [hqueue]
      exact hout
    · intro q hq
      rw [hqueue] at hq
      rw [hself, Sys.value, hother q hq, ← hvalue]
      exact hnear q hq
  · rw [queue_setHvf_curr, ← hqueue]
    exact enqueueHvfEntity_perm E c prev s₀

/-- The new task is taken out of the tree. -/
theorem TreeInv.setNext (h : TreeInv s c) (hmem : m ∈ s.queue c)
    (hcls : (s.task m).schedClass = .hvf) :
    ∃ s', setNextTask E c m true s = .ok s' ∧ TreeInv s' c ∧ s'.queue c = (s.queue c).erase m ∧
      (s'.task m).hvf.runtime = 0 := by
  obtain ⟨s₁, hu, hset⟩ := setNextTask_eq_unlink E hcls (h.flag m hmem) hmem
  refine ⟨_, hset, ?_, ?_, ?_⟩
  · -- the entity that is written has left the tree
    have hout : m ∉ s₁.queue c := by
      rw [hu.queue]
      exact h.ordered.nodup.not_mem_erase
    apply TreeInv.setCurr (s := s₁.tickClock.setEntity m _)
    refine (h.unlink hu).congr (by rfl) ?_
    intro q hq
    have hqm : q ≠ m := fun e => hout (e ▸ hq)
    have htask : (s₁.tickClock.setEntity m
        (updateLatestSeHvf (s₁.now E) (s₁.task m).hvf)).task q = s₁.task q := setTask_ne _ _ hqm
    rw [Sys.value, htask]
    exact ⟨rfl, rfl⟩
  · exact (queue_setHvf_curr (s₁.tickClock.setEntity m _) c (some m)).trans hu.queue
  · rw [Sys.setHvf, setRq_task, Sys.setEntity, setTask_self]
    rfl

/-- The rest of the runqueue: `curr` is the new task, and nobody is counted
twice. -/
theorem putPrevSetNextTask_rq (hne : next ≠ prev) (hcls : (s.task prev).schedClass = .hvf)
    (hrun : (s.task prev).isRunning = true) (hnext : (s.task next).schedClass = .hvf)
    (h : putPrevSetNextTask E c prev next s = .ok s') :
    (s'.rq c).hvf.curr = some next ∧ (s'.rq c).nrRunning = (s.rq c).nrRunning := by
  have hstate : (s.links.task prev).state = taskRunning := (isRunning_iff _).mp hrun
  have hnext' : ((s.links.put c prev).task next).schedClass = .hvf := by
    rw [Links.put_running hcls hstate, Links.setHvfCurr_task, Links.setLinked,
      Links.setTask_task, if_neg hne]
    exact hnext
  have hlinks := links_putPrevSetNextTask h
  rw [Links.putSetNext, if_neg hne, Links.setNext_hvf hnext', Links.put_running hcls hstate]
    at hlinks
  have hrq := congrArg (fun l : Links => l.rq c) hlinks
  simp only [Links.setHvfCurr, Links.setRq, Links.setLinked, Links.setTask, if_true] at hrq
  exact ⟨congrArg RqLink.hvfCurr hrq, congrArg RqLink.nrRunning hrq⟩

/-- An HVF task takes the CPU from another one: the tree exchanges the two,
and nothing else changes. -/
theorem switch_conserves_tasks (E : Env) (s : Sys) (c : Cpu) (prev : TaskId)
    (h : ReadyToSwitch s c prev)
    (hnear : ∀ q ∈ s.queue c, Near (requeueValue E s prev) (s.value q)) :
    ∃ next s', next ∈ s.queue c ∧ pickTaskHvf s c = .ok next ∧
      putPrevSetNextTask E c prev next s = .ok s' ∧ Switched E s c prev next s' := by
  obtain ⟨next, hpick, hmax⟩ := h.ordered.pickTaskHvf h.nonempty
  have hmem := (h.ordered.max_mem hmax).1
  have hout : prev ∉ s.queue c := h.curr prev h.hvfCurr
  have hne : next ≠ prev := fun e => hout (e ▸ hmem)
  obtain ⟨hinv₁, hperm₁⟩ := h.put (E := E) hnear
  have htask₁ := putPrevTask_task_ne (E := E) (c := c) (s := s) hne
  have hcls₁ : ((putPrevTask E c prev s).task next).schedClass = .hvf := by
    rw [htask₁]
    exact h.next next hmax
  have hmem₁ : next ∈ (putPrevTask E c prev s).queue c :=
    hperm₁.mem_iff.mpr (List.mem_cons_of_mem prev hmem)
  obtain ⟨s', hset, hinv', hqueue', hruntime⟩ := hinv₁.setNext (E := E) hmem₁ hcls₁
  have hswitch : putPrevSetNextTask E c prev next s = .ok s' := by
    rw [putPrevSetNextTask, if_neg hne]
    exact hset
  have hperm : (s'.queue c).Perm (prev :: (s.queue c).erase next) := by
    rw [hqueue']
    have herase := hperm₁.erase next
    rw [List.erase_cons_tail (by rw [beq_iff_eq]; exact Ne.symm hne)] at herase
    exact herase
  obtain ⟨hcurr, hnr⟩ := putPrevSetNextTask_rq hne h.hvf h.running (h.next next hmax) hswitch
  have hvalues := putPrevTask_requeue (E := E) (c := c) h.hvf h.running (by
    rw [h.unlinked]
    intro hf
    cases hf)
  have hnext : next ∉ s'.queue c := by
    rw [hqueue']
    exact hinv₁.ordered.nodup.not_mem_erase
  refine ⟨next, s', hmem, hpick, hswitch, ⟨hinv', ?_⟩, hperm, ?_, ?_, hcurr, hruntime, ?_, hnr⟩
  · intro q hq
    rw [hcurr] at hq
    cases hq
    exact hnext
  · rw [setNextTask_value hset, hvalues.2.1]
  · intro q hq
    rw [setNextTask_value hset, hvalues.2.2 q hq]
  · -- one in, one out
    have hlen := hperm.length_eq
    have hpos : 0 < (s.queue c).length := List.length_pos_of_mem hmem
    rw [List.length_cons, List.length_erase_of_mem hmem] at hlen
    rw [hinv'.count, h.count, hlen]
    omega

/-- Two tasks of the class wait for the CPU of one that has used up its slice. -/
def useUpSliceBeforeTwo : List Act :=
  startFirst ++ [.fork 0, .wakeNew 0 (.task 1) 0, .fork 0, .wakeNew 0 (.task 2) 0, .fork 0,
    .wakeNew 0 (.task 3) 0, .setscheduler permissive (.task 1) (plainAttr 8) true true,
    .setscheduler permissive (.task 2) (plainAttr 8) true true,
    .setscheduler permissive (.task 3) (plainAttr 8) true true, .setState 0 taskInterruptible,
    .schedule 0 .smNone ⟨false, false⟩ pickNone, .tick 0]

/-- A task whose slice is used up gives way to the first of the two that wait,
and the cached maximum moves on to the second. -/
theorem switch_conserves_tasks_after_slice :
    ∃ s, ReadyToSwitch s 0 (.task 1) ∧
      (∀ q ∈ s.queue 0, Near (requeueValue sampleEnv s (.task 1)) (s.value q)) ∧
      ∃ next s', next ∈ s.queue 0 ∧ pickTaskHvf s 0 = .ok next ∧
        putPrevSetNextTask sampleEnv 0 (.task 1) next s = .ok s' ∧
        Switched sampleEnv s 0 (.task 1) next s' ∧
        (s.rq 0).hvf.maxValueEntity = some (.task 2) ∧
        (s'.rq 0).hvf.maxValueEntity = some (.task 3) := by
  obtain ⟨s, hs, hf⟩ := Reached.of_check (b := ((true, true), (true, some (some (TaskId.task 3)))))
    sampleEnv (keysKept sampleEnv)
    (fun s => ((decide ((s.rq 0).hvf.curr = some (.task 1) ∧ s.queue 0 = [.task 3, .task 2] ∧
          (s.rq 0).hvf.maxValueEntity = some (.task 2)),
        decide ((s.task (.task 1)).schedClass = .hvf ∧ (s.task (.task 2)).schedClass = .hvf)),
      decide ((s.task (.task 1)).isRunning = true ∧ (s.task (.task 1)).hvf.onRq = false ∧
        ∀ q ∈ [TaskId.task 3, .task 2], Near (requeueValue sampleEnv s (.task 1)) (s.value q)),
      (putPrevSetNextTask sampleEnv 0 (.task 1) (.task 2) s).toOption.map fun s' =>
        (s'.rq 0).hvf.maxValueEntity))
    useUpSliceBeforeTwo (by decide +kernel)
  injection hf with hbefore hafter
  injection hbefore with hrq hcls
  injection hafter with htask hmoved
  obtain ⟨hcurr, hqueue, hmax⟩ := of_decide_eq_true hrq
  obtain ⟨hcls₁, hcls₂⟩ := of_decide_eq_true hcls
  obtain ⟨hrun, hflag, hnear⟩ := of_decide_eq_true htask
  have hready : ReadyToSwitch s 0 (.task 1) := by
    refine ⟨⟨reached_treeInv hs 0, ?_⟩, hcurr, hcls₁, hrun, hflag, ?_, ?_⟩
    · intro q hq
      rw [hcurr] at hq
      cases hq
      rw [hqueue]
      decide
    · rw [hqueue]
      exact List.cons_ne_nil _ _
    · intro m hm
      rw [hmax] at hm
      cases hm
      exact hcls₂
  have hall : ∀ q ∈ s.queue 0, Near (requeueValue sampleEnv s (.task 1)) (s.value q) := by
    rw [hqueue]
    exact hnear
  obtain ⟨next, s', hmem, hpick, hswitch, hsw⟩ :=
    switch_conserves_tasks sampleEnv s 0 (.task 1) hready hall
  have hnext : next = .task 2 := by
    obtain ⟨m, hm, hmax'⟩ := hready.ordered.pickTaskHvf hready.nonempty
    rw [hmax] at hmax'
    rw [hpick] at hm
    injection hm with hm
    injection hmax' with hmax'
    rw [hm, hmax']
  obtain ⟨s₂, hs₂, hmoved⟩ := toOption_map_eq_some hmoved
  have hsame : s₂ = s' := by
    rw [hnext, hs₂] at hswitch
    exact Except.ok.inj hswitch
  rw [hsame] at hmoved
  exact ⟨s, hready, hall, next, s', hmem, hpick, hswitch, hsw, hmax, hmoved⟩

end HvfSched
