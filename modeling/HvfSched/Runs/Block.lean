import HvfSched.Links.Recognised
import HvfSched.Runs.Moves

/-!
# Blocking succeeds

When the HVF task a CPU runs blocks or exits, `dequeue_task_hvf` answers true,
`nr_running` goes down by one and `block_task` marks the task as off the
runqueue, in every run in which the running task stays recognised
(`keepsCurr`).

It does not after an exit. `finish_task_switch` runs `task_dead_hvf` on behalf
of the dead task when its successor has been installed, and `task_dead_hvf`
clears `hvf_rq->curr` of the runqueue, which by then points to the successor.
An HVF task that follows an HVF task that exited is not recognised when it
goes to sleep: it stays `TASK_ON_RQ_QUEUED` and counted.
-/

namespace HvfSched

open Lib Sys

variable {E : Env} {s s' : Sys} {a : Act} {c : Cpu} {p : TaskId}

/-- A running task that enters the class is on the runqueue, or recognised
already. -/
def entersKnown (s : Sys) (a : Act) : Prop :=
  ∀ x ∈ classTarget s a, x.2 = .hvf → (s.task x.1).schedClass ≠ .hvf →
    (s.rq (s.task x.1).cpu).curr = x.1 →
    (s.task x.1).onRq = .queued ∨ s.links.Recognised (s.task x.1).cpu

/-- When a dead HVF task is buried, its CPU runs another class, or an HVF task
that is linked and another one. -/
def buriesHarmless (s : Sys) (a : Act) : Prop :=
  ∀ x ∈ buries s a, (s.task x.2).schedClass = .hvf →
    (s.task (s.rq (s.task x.2).cpu).curr).schedClass = .hvf →
    (s.rq (s.task x.2).cpu).curr ≠ x.2 ∧
      (s.task (s.rq (s.task x.2).cpu).curr).hvf.onRq = true

instance (s : Sys) (a : Act) : Decidable (entersKnown s a) :=
  inferInstanceAs (Decidable (∀ x ∈ classTarget s a, _ → _))

instance (s : Sys) (a : Act) : Decidable (buriesHarmless s a) :=
  inferInstanceAs (Decidable (∀ x ∈ buries s a, _ → _))

/-- The condition under which the running task stays recognised. -/
def keepsCurr (s : Sys) (a : Act) : Prop := flagsKept s a ∧ entersKnown s a ∧ buriesHarmless s a

instance (s : Sys) (a : Act) : Decidable (keepsCurr s a) :=
  inferInstanceAs (Decidable (_ ∧ _ ∧ _))

/-- An HVF task that blocks is not the next one. -/
theorem Source.ne_blocked {l l₀ : Links} {how : Links.Leave} {next : TaskId}
    (h : Source l l₀ c how next) (hl : l.Sound) (hstart : Start l c how l₀)
    (hstate : how ≠ .stay → (l₀.task (l₀.rq c).curr).state ≠ taskRunning)
    (hnext : next = (l₀.rq c).curr) (hcls : (l₀.task next).schedClass = .hvf) :
    how ≠ .block := by
  intro hb
  subst hb
  have hprev : (l₀.rq c).curr = (l.rq c).curr := by rw [hstart.rq]
  cases h with
  | idle hi =>
    rw [hi, ((hstart.sound hl).idle c).1] at hcls
    cases hcls
  | above _ _ _ _ hne => exact hne rfl (hnext.trans hprev)
  | tree hlinked _ =>
    rw [hnext] at hcls hlinked
    have hunlinked := Links.block_unlinked (c := c) hcls (hstate (by decide))
    exact Bool.false_ne_true (hunlinked.symm.trans hlinked)

theorem step_known (hb : Base s) (h : s.links.Known) (hok : keepsCurr s a)
    (hstep : step E s a = some s') : s'.links.Known := by
  obtain ⟨-, henter, hbury'⟩ := hok
  have hmove := step_move hb hstep
  generalize s'.links = l' at hmove
  cases hmove with
  | quiet => exact h
  | state p v _ => exact h.setState v
  | schedule c how next l₀ hleave hstart hstate hsource =>
    have h₀ : l₀.Known := by
      cases hstart with
      | same he => exact he ▸ h
      | dead _ _ he => exact he ▸ h.setState taskDead
    refine h₀.schedule (hstart.sound hb.sound) (hsource.mayRun hb.sound hstart hstate) ?_
    intro hnext hcls
    exact hsource.ne_blocked hb.sound hstart hstate hnext hcls
  | wake p dest v _ _ _ _ => exact h.wake v
  | change p cls htarget hlive =>
    exact h.change hb.sound ((isLive_links s p).trans hlive) (henter (p, cls) htarget)
  | bury c p hbury => exact h.bury hb.sound c (hbury' (c, p) hbury)
  | fork c t _ ht => exact h.fork ht.schedClass

theorem boot_known : boot.links.Known := by
  intro c hcls
  cases hcls

/-- The dequeue of a recognised task that goes to sleep. -/
theorem dequeueTaskHvf_recognised (E : Env) (hb : Base s)
    (hcls : (s.task (s.rq c).curr).schedClass = .hvf)
    (hstate : (s.task (s.rq c).curr).state ≠ taskRunning) (hrec : s.links.Recognised c) :
    ∃ s₁, dequeueTaskHvf E c (s.rq c).curr s = .ok (true, s₁) := by
  have hcpu : (s.task (s.rq c).curr).cpu = c := (hb.running_hvf rfl hcls).2
  -- a task with the flag is linked in this tree, so it can be erased
  have hmem : (s.task (s.rq c).curr).hvf.onRq = true → (s.rq c).curr ∈ s.queue c :=
    fun hflag => (hb.trees.mem c _).mpr ⟨hflag, hcpu⟩
  unfold dequeueTaskHvf
  by_cases hcurr : (s.rq c).hvf.curr = some (s.rq c).curr
  · have hsleep : (s.task (s.rq c).curr).isRunning = false :=
      Bool.eq_false_iff.mpr fun hr => hstate ((isRunning_iff _).mp hr)
    rw [if_neg (fun h => h.1 hcurr), if_pos ⟨hcurr, hsleep⟩]
    unfold dequeueIfOnRq
    split
    next hflag =>
      obtain ⟨s₁, h₁⟩ := dequeueHvfEntity_of_mem E (hmem hflag)
      rw [h₁]
      exact ⟨_, rfl⟩
    next => exact ⟨_, rfl⟩
  · have hflag : (s.task (s.rq c).curr).hvf.onRq = true := hrec.resolve_right hcurr
    obtain ⟨s₁, h₁⟩ := dequeueHvfEntity_of_mem E (hmem hflag)
    rw [if_pos ⟨hcurr, hflag⟩, h₁]
    exact ⟨_, rfl⟩

/-- A dequeue of the class that answers true has counted. -/
theorem dequeueTaskHvf_nrRunning {s₁ : Sys} (h : dequeueTaskHvf E c p s = .ok (true, s₁))
    (hcls : (s.task p).schedClass = .hvf) :
    (s₁.rq c).nrRunning = (s.rq c).nrRunning - 1 := by
  have hd : dequeueTask E c p s = .ok (true, s₁) := by
    rw [dequeueTask, if_pos hcls]
    exact h
  have hl := links_dequeueTask hd
  have hcls' : (s.links.task p).schedClass = .hvf := hcls
  have hnr : (s₁.links.rq c).nrRunning = ((s.links.dequeue c p).2.rq c).nrRunning :=
    congrArg (fun r : Bool × Links => (r.2.rq c).nrRunning) hl
  have hok : true = (s.links.dequeue c p).1 := congrArg Prod.fst hl
  refine hnr.trans ?_
  by_cases hlink : (s.links.rq c).hvfCurr ≠ some p ∧ (s.links.task p).linked = true
  · rw [Links.dequeue_linked hcls' hlink.1 hlink.2]
    simp [Int.sub_eq_add_neg, links_rq, Rq.link]
  · by_cases hsleep : (s.links.rq c).hvfCurr = some p ∧ (s.links.task p).state ≠ taskRunning
    · rw [Links.dequeue_curr hcls' hsleep.1 hsleep.2]
      simp [Int.sub_eq_add_neg, links_rq, Rq.link]
    · rw [Links.dequeue_missed hcls' hlink hsleep] at hok
      cases hok

/-- In every run whose steps meet `keepsCurr`: when the HVF task that `c` runs
has set its state to block or to exit, the dequeue answers true and counts, and
the task is marked as off the runqueue. -/
theorem running_hvf_task_blocks (E : Env) (s : Sys) (h : Reached E keepsCurr s) (c : Cpu)
    (hcls : (s.task (s.rq c).curr).schedClass = .hvf) (v : Mask) (hv : v ≠ taskRunning) :
    ∃ s₁, dequeueTaskHvf E c (s.rq c).curr (setTaskState (s.rq c).curr v s) = .ok (true, s₁) ∧
      (s₁.rq c).nrRunning = (s.rq c).nrRunning - 1 ∧
      blockTask E c (s.rq c).curr (setTaskState (s.rq c).curr v s)
        = .ok (setOnRq (s.rq c).curr .off s₁) := by
  have hinv : Base s ∧ s.links.Known := by
    refine Reach.invariant (fun s => Base s ∧ s.links.Known) ?_ ?_ h
    · intro s hs
      rw [hs]
      exact ⟨boot_base, boot_known⟩
    · rintro s a s' ⟨hb, hk⟩ hok hstep
      exact ⟨step_base hb hok.1 hstep, step_known hb hk hok hstep⟩
  obtain ⟨hb, hknown⟩ := hinv
  have hlive := (hb.running_hvf rfl hcls).1
  have hb₁ : Base (setTaskState (s.rq c).curr v s) :=
    hb.setTaskState ((isLive_links s _).symm.trans hlive) v
  have hself : (setTaskState (s.rq c).curr v s).task (s.rq c).curr
      = { s.task (s.rq c).curr with state := v } := by rw [setTaskState, setTask_self]
  have hcls₁ : ((setTaskState (s.rq c).curr v s).task (s.rq c).curr).schedClass = .hvf := by
    rw [hself]
    exact hcls
  have hrec : (setTaskState (s.rq c).curr v s).links.Recognised c := by
    have hk := hknown.setState (p := (s.rq c).curr) v
    rw [← links_setTaskState] at hk
    exact hk c hcls₁
  have hstate₁ : ((setTaskState (s.rq c).curr v s).task (s.rq c).curr).state ≠ taskRunning := by
    rw [hself]
    exact hv
  obtain ⟨s₁, h₁⟩ : ∃ s₁, dequeueTaskHvf E c (s.rq c).curr (setTaskState (s.rq c).curr v s)
      = .ok (true, s₁) := dequeueTaskHvf_recognised E hb₁ hcls₁ hstate₁ hrec
  have hnr := dequeueTaskHvf_nrRunning h₁ hcls₁
  refine ⟨s₁, h₁, hnr, ?_⟩
  rw [blockTask, dequeueTask, if_pos hcls₁, h₁]
  rfl

/-- A fair task exits and is buried, and the HVF task that follows it goes to
sleep. -/
theorem running_hvf_task_blocks_after_fair_exit :
    ∃ s, Reached sampleEnv keepsCurr s ∧ (s.rq 0).curr = .task 1 ∧
      (s.task (s.rq 0).curr).schedClass = .hvf ∧
      ∃ s₁, dequeueTaskHvf sampleEnv 0 (s.rq 0).curr
          (setTaskState (s.rq 0).curr taskInterruptible s) = .ok (true, s₁) ∧
        (s₁.rq 0).nrRunning = (s.rq 0).nrRunning - 1 ∧
        blockTask sampleEnv 0 (s.rq 0).curr (setTaskState (s.rq 0).curr taskInterruptible s)
          = .ok (setOnRq (s.rq 0).curr .off s₁) := by
  obtain ⟨s, hs, hf⟩ := Reached.of_check (b := (TaskId.task 1, SchedClass.hvf)) sampleEnv keepsCurr
    (fun s => ((s.rq 0).curr, (s.task (s.rq 0).curr).schedClass))
    (startFirst ++ [.fork 0, .wakeNew 0 (.task 1) 0,
      .setscheduler permissive (.task 1) (plainAttr 8) true true,
      .doTaskDead 0 pickNone, .finishTaskSwitch 0])
    (by decide +kernel)
  injection hf with hcurr hcls
  exact ⟨s, hs, hcurr, hcls,
    running_hvf_task_blocks sampleEnv s hs 0 hcls taskInterruptible (by decide)⟩

/-- The same run, but the task that exits is an HVF task: its successor is not
recognised, and stays on the runqueue and counted. -/
theorem successor_of_dead_task_does_not_block :
    ∃ s, Reached sampleEnv (fun _ _ => True) s ∧
      (s.task (s.rq 0).curr).schedClass = .hvf ∧ (s.rq 0).nrRunning = 1 ∧
      ∃ s₁, dequeueTaskHvf sampleEnv 0 (s.rq 0).curr
          (setTaskState (s.rq 0).curr taskInterruptible s) = .ok (false, s₁) ∧
        (s₁.rq 0).nrRunning = 1 := by
  obtain ⟨s, hs, hf⟩ := Reached.of_eval (b := (SchedClass.hvf, 1, some (false, 1))) sampleEnv
    (fun s => ((s.task (s.rq 0).curr).schedClass, (s.rq 0).nrRunning,
      (dequeueTaskHvf sampleEnv 0 (s.rq 0).curr
        (setTaskState (s.rq 0).curr taskInterruptible s)).toOption.map
          fun r => (r.1, (r.2.rq 0).nrRunning)))
    (startFirst ++ [.fork 0, .wakeNew 0 (.task 1) 0,
      .setscheduler permissive (.task 1) (plainAttr 8) true true,
      .setscheduler permissive (.task 0) (plainAttr 8) true true,
      .doTaskDead 0 pickNone, .finishTaskSwitch 0])
    (by decide +kernel)
  injection hf with hcls hf
  injection hf with hnr hd
  obtain ⟨⟨b, s₁⟩, hr, hb⟩ := toOption_map_eq_some hd
  injection hb with hb hnr₁
  subst hb
  exact ⟨s, hs, hcls, hnr, s₁, hr, hnr₁⟩

end HvfSched
