import HvfSched.Links.Recognised
import HvfSched.Runs.Flags

/-!
# An exit is final

`do_task_dead` sets `TASK_DEAD` and calls `__schedule` for the last time. What
the rest of the kernel relies on is that the task is then gone: off every
runqueue, in no tree, and on no CPU ever again, so that `finish_task_switch`
can release it, once.

Nothing brings such a task back (`step_gone`): wakeups do not match
`TASK_DEAD`, the classes answer queued tasks and the tree linked ones, and a
change of attributes puts a task back only where it took it off. What can go
wrong is the exit itself. The task stays `TASK_ON_RQ_QUEUED` if the class does
not recognise it, and it stays linked if it left the class while it was
running. `ExitClean` excludes the two, and nothing else is needed. Where a dead
task is picked again, `__schedule` comes back to `do_task_dead`, and the machine
stops (`returnToCurr`).
-/

namespace HvfSched

open Lib Sys

variable {E : Env} {s s' s₁ : Sys} {a : Act} {c d : Cpu} {p q : TaskId}

/-! ## Tasks that are gone -/

namespace Links

variable {l l' : Links} {how : Leave} {next : TaskId} {cls : SchedClass}

/-- A dead task, last on `c`, that is off every runqueue, linked nowhere and on
no CPU. -/
structure Gone (l : Links) (p : TaskId) (c : Cpu) : Prop where
  live : l.isLive p = true
  dead : (l.task p).state = taskDead
  cpu : (l.task p).cpu = c
  off : (l.task p).onRq ≠ .queued
  unlinked : (l.task p).linked = false
  stopped : ∀ d, (l.rq d).curr ≠ p

namespace Gone

/-- A step that does not reach the task. -/
theorem keep (h : Gone l p c) (hlive : l'.isLive p = true) (htask : l'.task p = l.task p)
    (hcurr : ∀ d, (l'.rq d).curr ≠ p) : Gone l' p c := by
  refine ⟨hlive, ?_, ?_, ?_, ?_, hcurr⟩
  · rw [htask]
    exact h.dead
  · rw [htask]
    exact h.cpu
  · rw [htask]
    exact h.off
  · rw [htask]
    exact h.unlinked

theorem setState (h : Gone l p c) (v : Mask) (hq : p ≠ q) : Gone (l.setState q v) p c :=
  h.keep h.live (if_neg hq) h.stopped

theorem schedule (h : Gone l p c) (hnext : p ≠ next) : Gone (l.schedule d how next) p c := by
  refine h.keep ?_ (schedule_task_ne (Ne.symm (h.stopped d)) hnext) ?_
  · rw [isLive_congr schedule_nextPid]
    exact h.live
  · intro d'
    by_cases hd : d' = d
    · rw [hd, schedule_curr_self]
      exact Ne.symm hnext
    · rw [schedule_rq_ne hd]
      exact h.stopped d'

theorem wake {dest : Cpu} {v : Mask} (h : Gone l p c) (hq : p ≠ q) :
    Gone (l.wake q dest v) p c := by
  refine h.keep ?_ (wake_task_ne hq) ?_
  · rw [isLive_congr wake_nextPid]
    exact h.live
  · intro d
    rw [wake_curr]
    exact h.stopped d

/-- A change of attributes writes the class of the task, and nothing else. -/
theorem change_eq (h : Gone l p c) : l.change p cls = l.setClass p cls := by
  have hoff : l.takeOff p = l := by
    unfold takeOff
    dsimp only
    rw [if_neg (h.stopped _), if_neg h.off]
  unfold change
  dsimp only
  rw [if_neg h.off, hoff]

theorem change (h : Gone l p c) : Gone (l.change q cls) p c := by
  by_cases hq : p = q
  · subst hq
    rw [h.change_eq]
    have hself : (l.setClass p cls).task p = { l.task p with schedClass := cls } := if_pos rfl
    refine ⟨h.live, ?_, ?_, ?_, ?_, h.stopped⟩
    · rw [hself]
      exact h.dead
    · rw [hself]
      exact h.cpu
    · rw [hself]
      exact h.off
    · rw [hself]
      exact h.unlinked
  · refine h.keep ?_ (change_task_ne hq) ?_
    · rw [isLive_congr change_nextPid]
      exact h.live
    · intro d
      rw [change_curr]
      exact h.stopped d

theorem bury (h : Gone l p c) : Gone (l.bury d q) p c := by
  have hlive : (l.bury d q).isLive p = true := by
    rw [isLive_congr bury_nextPid]
    exact h.live
  have hcurr : ∀ d', ((l.bury d q).rq d').curr ≠ p := by
    intro d'
    rw [bury_curr]
    exact h.stopped d'
  by_cases hq : p = q
  · subst hq
    refine ⟨hlive, ?_, ?_, ?_, ?_, hcurr⟩
    · rw [bury_self]
      exact h.dead
    · rw [bury_self]
      exact h.cpu
    · rw [bury_self]
      exact h.off
    · rw [bury_self]
      show (if (l.task p).schedClass = .hvf then false else (l.task p).linked) = false
      rw [h.unlinked, ite_self]
  · exact h.keep hlive (bury_task_ne hq) hcurr

theorem fork {t : TaskLink} (h : Gone l p c) : Gone (l.fork t) p c := by
  have hne : p ≠ .task l.nextPid := Ne.symm (fresh_ne_of_live h.live (Nat.le_refl _))
  refine h.keep ?_ (fork_task_ne hne) h.stopped
  cases p with
  | idle d => exact h.live
  | task n =>
    have hn : n < l.nextPid := of_decide_eq_true h.live
    exact decide_eq_true (Nat.lt_succ_of_lt hn)

end Gone

/-! ## The last block -/

/-- The running task leaves nothing behind when it exits: the class recognises
it, or it is off the runqueue already; and a task of another class is linked
in no tree. -/
def ExitClean (l : Links) (c : Cpu) : Prop :=
  ((l.task (l.rq c).curr).schedClass = .hvf →
    l.Recognised c ∨ (l.task (l.rq c).curr).onRq ≠ .queued) ∧
  ((l.task (l.rq c).curr).schedClass ≠ .hvf → (l.task (l.rq c).curr).linked = false)

instance (l : Links) (c : Cpu) : Decidable (l.ExitClean c) := inferInstanceAs (Decidable (_ ∧ _))

theorem block_other (hcls : (l.task p).schedClass ≠ .hvf) :
    ((l.block c p).task p).onRq = .off ∧
      ((l.block c p).task p).linked = (l.task p).linked := by
  unfold block
  dsimp only
  rw [dequeue, if_neg hcls, if_pos rfl, setOnRq, setTask_task, if_pos rfl]
  exact ⟨rfl, rfl⟩

/-- A task that nobody recognises is not dequeued. -/
theorem block_missed (hcls : (l.task (l.rq c).curr).schedClass = .hvf) (hrec : ¬ l.Recognised c) :
    l.block c (l.rq c).curr = l := by
  unfold block
  dsimp only
  rw [dequeue_missed hcls (fun h => hrec (Or.inl h.2)) (fun h => hrec (Or.inr h.1))]
  exact if_neg Bool.false_ne_true

/-- Blocking a task that does not run any more takes it off the runqueue and
out of the tree exactly when the exit is a clean one. -/
theorem block_clean_iff (hstate : (l.task (l.rq c).curr).state ≠ taskRunning) :
    ((l.block c (l.rq c).curr).task (l.rq c).curr).onRq ≠ .queued ∧
      ((l.block c (l.rq c).curr).task (l.rq c).curr).linked = false ↔ l.ExitClean c := by
  by_cases hcls : (l.task (l.rq c).curr).schedClass = .hvf
  · refine Iff.trans ?_ (and_iff_left fun hne => absurd hcls hne).symm
    by_cases hrec : l.Recognised c
    · rw [block_off hcls hrec hstate]
      exact ⟨fun _ _ => Or.inl hrec, fun _ => ⟨by decide, block_unlinked hcls hstate⟩⟩
    · have hunlinked : (l.task (l.rq c).curr).linked = false :=
        Bool.eq_false_iff.mpr fun h => hrec (Or.inl h)
      rw [block_missed hcls hrec]
      exact ⟨fun h _ => Or.inr h.1, fun h => ⟨(h hcls).resolve_left hrec, hunlinked⟩⟩
  · rw [(block_other hcls).1, (block_other hcls).2]
    exact ⟨fun h => ⟨fun heq => absurd heq hcls, fun _ => h.2⟩, fun h => ⟨by decide, h.2 hcls⟩⟩

theorem leave_deadPrev (how : Leave) : ((l.leave c p how).rq d).deadPrev = (l.rq d).deadPrev := by
  cases how with
  | stay => rfl
  | signalled => rfl
  | block =>
    show ((l.block c p).rq d).deadPrev = _
    unfold block
    dsimp only
    split
    next => exact (dequeue_frame c p l).deadPrev d
    next => exact (dequeue_frame c p l).deadPrev d

theorem switchTo_deadPrev (hne : next ≠ p) :
    ((l.switchTo c p next).rq c).deadPrev
      = if (l.task p).state = taskDead then some p else none := by
  have hstate : (((l.setOnCpu p false).setOnCpu next true).task p).state = (l.task p).state := by
    rw [setOnCpu, setTask_task, if_neg (Ne.symm hne), setOnCpu, setTask_task, if_pos rfl]
  unfold switchTo
  rw [if_neg hne]
  dsimp only
  rw [hstate, setRq_rq, if_pos rfl]

/-- Only a task that is stopped dead is left to be buried. -/
theorem schedule_deadPrev (h : ((l.schedule c how next).rq c).deadPrev = some p) :
    (l.rq c).deadPrev = some p ∨
      (p = (l.rq c).curr ∧ next ≠ p ∧
        ((l.leave c (l.rq c).curr how).task p).state = taskDead) := by
  unfold schedule at h
  dsimp only at h
  by_cases hnext : next = (l.rq c).curr
  · rw [putSetNext, if_pos hnext, switchTo, if_pos hnext, leave_deadPrev] at h
    exact Or.inl h
  · rw [switchTo_deadPrev hnext, putSetNext, if_neg hnext, (setNext_frame c next _).state,
      (put_frame c _ _).state] at h
    split at h
    next hdead =>
      obtain rfl : (l.rq c).curr = p := Option.some.inj h
      exact Or.inr ⟨rfl, hnext, hdead⟩
    next => cases h

theorem bury_deadPrev :
    ((l.bury c q).rq d).deadPrev = if d = c then none else (l.rq d).deadPrev := by
  have hcleared : ((l.setRq c { l.rq c with deadPrev := none }).rq d).deadPrev
      = if d = c then none else (l.rq d).deadPrev := by
    rw [setRq_rq]
    split
    next => rfl
    next => rfl
  unfold bury
  dsimp only
  split
  next =>
    rw [setHvfCurr, setRq_rq]
    split
    next hd =>
      rw [← hd]
      exact hcleared
    next => exact hcleared
  next => exact hcleared

/-- Setting the state does not matter. -/
theorem exitClean_setState (v : Mask) :
    (l.setState (l.rq c).curr v).ExitClean c ↔ l.ExitClean c := by
  have hself : (l.setState (l.rq c).curr v).task (l.rq c).curr
      = { l.task (l.rq c).curr with state := v } := if_pos rfl
  have hrq : (l.setState (l.rq c).curr v).rq = l.rq := rfl
  unfold ExitClean Recognised
  rw [hrq, hself]

/-- The running task as it is after its last reschedule. -/
theorem schedule_block_prev (hne : next ≠ (l.rq c).curr)
    (hstate : (l.task (l.rq c).curr).state ≠ taskRunning) :
    (((l.schedule c .block next).task (l.rq c).curr).onRq ≠ .queued ∧
      ((l.schedule c .block next).task (l.rq c).curr).linked = false) ↔ l.ExitClean c := by
  obtain ⟨hlinked, honrq, -⟩ := schedule_prev .block hne
  have hstay : ((l.block c (l.rq c).curr).task (l.rq c).curr).state ≠ taskRunning := by
    rw [block_state]
    exact hstate
  rw [hlinked, honrq]
  show _ ≠ _ ∧ (((l.block c (l.rq c).curr).put c (l.rq c).curr).task (l.rq c).curr).linked = _ ↔ _
  rw [put_idle (fun h => hstay h.2)]
  exact block_clean_iff hstate

end Links

/-! ## What a step does to a task that is gone -/

/-- Nobody picks a task that is gone. -/
theorem picked_ne_gone {s₀ s₁ : Sys} {how : Links.Leave} {mode : SchedMode} {sig : Signals}
    {next : TaskId} (hb : Base s) (h : s.links.Gone p c)
    (hstart : (s₀ = s ∧ (s.task (s.rq d).curr).state ≠ taskDead) ∨
      (how = .block ∧ s.isLive (s.rq d).curr = true ∧ s₀ = setTaskState (s.rq d).curr taskDead s))
    (hhow : how = leaveOf mode sig (s₀.task (s.rq d).curr))
    (hprev : leavePrev E d mode sig s₀ = .ok s₁) (hpicked : Picked s s₁ d how next) :
    p ≠ next := by
  rintro rfl
  cases hpicked with
  | idle hi =>
    have hlive := h.live
    rw [hi] at hlive
    cases hlive
  | above _ _ hq _ _ => exact h.off hq
  | tree hmax =>
    obtain ⟨⟨hrq, -⟩, -⟩ := start_same hstart
    have hcurr : (s₀.rq d).curr = (s.rq d).curr := by rw [hrq]
    have h₀ : s₀.links.Gone p c := by
      rcases hstart with ⟨hs₀, -⟩ | ⟨-, -, hs₀⟩
      · rw [hs₀]
        exact h
      · rw [hs₀, links_setTaskState]
        exact h.setState taskDead (Ne.symm (h.stopped d))
    rw [← hcurr] at hhow
    have hmid := midSchedule (hb.start hstart) hhow hprev
    have hlinked : (s₁.links.task p).linked = true :=
      ((hmid.base.trees.mem d p).mp (hmid.base.trees.max d p hmax)).1
    have hsame : s₁.links.task p = s₀.links.task p := by
      rw [hmid.links]
      exact Links.leave_task_ne how (Ne.symm (h₀.stopped d))
    rw [hsame, h₀.unlinked] at hlinked
    cases hlinked

theorem switchesTo_ne_gone (hb : Base s) (h : s.links.Gone p c) (hen : enabled s a = true) :
    switchesTo E s a ≠ some p := by
  intro hp
  cases a with
  | schedule d mode sig picks =>
    simp only [enabled, Bool.and_eq_true, bne_iff_ne, ne_eq] at hen
    obtain ⟨-, s₁, h₁, hpick⟩ := nextTask_eq_some.mp hp
    have hok := hen.2
    rw [blocks_eq] at hok
    exact picked_ne_gone hb h (Or.inl ⟨rfl, hen.1.1.2⟩) rfl h₁ (pickNext_picked hok hpick) rfl
  | doTaskDead d picks =>
    simp only [enabled, Bool.and_eq_true] at hen
    obtain ⟨-, s₁, h₁, hpick⟩ := nextTask_eq_some.mp hp
    have hdead : ((setTaskState (s.rq d).curr taskDead s).task (s.rq d).curr).state = taskDead := by
      rw [setTaskState, setTask_self]
    exact picked_ne_gone hb h (Or.inr ⟨rfl, hen.1.1, rfl⟩) (leaveOf_dead hdead).symm h₁
      (pickNext_picked hen.2 hpick) rfl
  | _ => cases hp

theorem step_gone (hb : Base s) (h : s.links.Gone p c) (hstep : step E s a = some s') :
    s'.links.Gone p c := by
  cases step_case hstep with
  | quiet hl _ _ =>
    rw [hl]
    exact h
  | state q v _ _ hdead hl _ _ =>
    rw [hl]
    refine h.setState v ?_
    rintro rfl
    rcases hdead with ⟨d, hd⟩ | hstate
    · exact h.stopped d hd.symm
    · exact hstate h.dead
  | reschedule d how next s₀ s₁ s₂ mode sig picks _ hstart hhow hprev _ hpicked hset hs =>
    obtain ⟨⟨hrq, -⟩, -⟩ := start_same hstart
    have hcurr : (s₀.rq d).curr = (s.rq d).curr := by rw [hrq]
    have h₀ : s₀.links.Gone p c := by
      rcases hstart with ⟨hs₀, -⟩ | ⟨-, -, hs₀⟩
      · rw [hs₀]
        exact h
      · rw [hs₀, links_setTaskState]
        exact h.setState taskDead (Ne.symm (h.stopped d))
    rw [reschedule_links hcurr hhow hprev hset hs]
    exact h₀.schedule (picked_ne_gone hb h hstart hhow hprev hpicked)
  | activate q dest thisCpu v flags s₁ _ _ _ _ hdead ha hs _ =>
    rw [activate_links ha hs]
    refine h.wake ?_
    rintro rfl
    exact hdead h.dead
  | change q cls _ _ hc =>
    rw [hc.links]
    exact h.change
  | bury d q _ _ hf =>
    rw [links_finishTaskSwitch hf]
    exact h.bury
  | fork d t _ _ ht hs =>
    obtain ⟨t', -, hl⟩ := schedFork_links ht hs
    rw [hl]
    exact h.fork

/-- A task that is gone stays gone. -/
theorem gone_forever (hb : Base s) (h : s.links.Gone p c)
    (hrun : Reach (fun x => x = s) (step E) flagsKept s') : Base s' ∧ s'.links.Gone p c := by
  refine Reach.invariant (fun s => Base s ∧ s.links.Gone p c) ?_ ?_ hrun
  · intro s₁ hs
    rw [hs]
    exact ⟨hb, h⟩
  · rintro s a s' ⟨hb, hg⟩ hok hstep
    exact ⟨step_base hb hok hstep, step_gone hb hg hstep⟩

/-! ## The exit -/

/-- The task that exits does not count as running any more. -/
theorem setState_dead_ne (l : Links) (p : TaskId) :
    ((l.setState p taskDead).task p).state ≠ taskRunning := by
  rw [Links.setState, Links.setTask_task, if_pos rfl]
  show taskDead ≠ taskRunning
  decide

/-- A clean exit leaves the task linked nowhere. -/
theorem exit_unlinked {s₂ : Sys} (hclean : s.links.ExitClean c)
    (hmid : MidSchedule (setTaskState (s.rq c).curr taskDead s) s₂ c .block) :
    (s₂.links.task (s.rq c).curr).linked = false := by
  have hl := hmid.links
  rw [links_setTaskState] at hl
  rw [hl]
  exact ((Links.block_clean_iff (setState_dead_ne s.links _)).mpr
    ((Links.exitClean_setState taskDead).mpr hclean)).2

/-- The last reschedule of the running task. -/
theorem exit_links {picks : Picks} (hb : Base s) (hstep : step E s (.doTaskDead c picks) = some s₁) :
    s.isLive (s.rq c).curr = true ∧ ∃ next,
      s₁.links = (s.links.setState (s.rq c).curr taskDead).schedule c .block next ∧
      (s.links.ExitClean c → next ≠ (s.rq c).curr) := by
  obtain ⟨hen, hx⟩ := step_ok hstep
  simp only [enabled, Bool.and_eq_true] at hen
  obtain ⟨⟨hlive, -⟩, hok⟩ := hen
  have hx : doTaskDead E c picks s = .ok s₁ := hx
  unfold doTaskDead at hx
  rcases schedule_cases hx with ⟨⟨hmode, -⟩, -⟩ | ⟨-, s₂, next, s₃, h₂, hpick, hset, hs⟩
  · cases hmode
  have hdead : ((setTaskState (s.rq c).curr taskDead s).task (s.rq c).curr).state = taskDead := by
    rw [setTaskState, setTask_self]
  have hhow := (leaveOf_dead hdead).symm
  have hmid := midSchedule (hb.setTaskState hlive taskDead) hhow h₂
  refine ⟨hlive, next, ?_, ?_⟩
  · rw [reschedule_links rfl hhow h₂ hset hs, links_setTaskState]
  · intro hclean hnext
    have hpicked : Picked s s₂ c .block next := pickNext_picked hok hpick
    cases hpicked with
    | idle hi =>
      rw [← hnext, hi] at hlive
      cases hlive
    | above _ _ _ _ hne => exact hne rfl hnext
    | tree hmax =>
      have hlinked : (s₂.links.task next).linked = true :=
        ((hmid.base.trees.mem c next).mp (hmid.base.trees.max c next hmax)).1
      rw [hnext, exit_unlinked hclean hmid] at hlinked
      cases hlinked

/-- An exit that leaves the task off the CPU, the runqueue and the tree was a
clean one. -/
theorem exit_clean {picks : Picks} (hb : Base s)
    (hstep : step E s (.doTaskDead c picks) = some s₁) (hcurr : (s₁.rq c).curr ≠ (s.rq c).curr)
    (hoff : (s₁.task (s.rq c).curr).onRq ≠ .queued)
    (hunlinked : (s₁.task (s.rq c).curr).hvf.onRq = false) : s.links.ExitClean c := by
  obtain ⟨-, next, hl, -⟩ := exit_links hb hstep
  have hnext : next ≠ (s.rq c).curr := by
    have hc : (s₁.links.rq c).curr ≠ (s.rq c).curr := hcurr
    rw [hl, Links.schedule_curr_self] at hc
    exact hc
  have hoff : (s₁.links.task (s.rq c).curr).onRq ≠ .queued := hoff
  have hunlinked : (s₁.links.task (s.rq c).curr).linked = false := hunlinked
  rw [hl] at hoff hunlinked
  refine (Links.exitClean_setState taskDead).mp ?_
  exact (Links.schedule_block_prev hnext (setState_dead_ne s.links _)).mp ⟨hoff, hunlinked⟩

/-- After a clean exit the task is gone. -/
theorem exit_gone {picks : Picks} (hb : Base s)
    (hstep : step E s (.doTaskDead c picks) = some s₁) (hclean : s.links.ExitClean c) :
    s₁.links.Gone (s.rq c).curr c := by
  obtain ⟨hlive, next, hl, hne⟩ := exit_links hb hstep
  have hnext := hne hclean
  obtain ⟨hoff, hunlinked⟩ := (Links.schedule_block_prev hnext (setState_dead_ne s.links _)).mpr
    ((Links.exitClean_setState taskDead).mpr hclean)
  -- the task ran on `c`, so it runs nowhere else
  have hcpu : ∀ d, (s.rq d).curr = (s.rq c).curr → (s.task (s.rq c).curr).cpu = d := by
    intro d hd
    rcases hb.sound.curr d with hi | ⟨-, hcpu, -⟩
    · have hi : (s.rq d).curr = .idle d := hi
      rw [← hd, hi] at hlive
      cases hlive
    · rw [← hd]
      exact hcpu
  rw [hl]
  refine ⟨?_, ?_, ?_, hoff, hunlinked, ?_⟩
  · rw [Links.isLive_congr Links.schedule_nextPid]
    exact hlive
  · rw [Links.schedule_state]
    refine (Links.block_state _).trans ?_
    rw [Links.setState, Links.setTask_task, if_pos rfl]
  · rw [(Links.schedule_bits _).1, Links.setState, Links.setTask_task, if_pos rfl]
    exact hcpu c rfl
  · intro d
    by_cases hd : d = c
    · rw [hd, Links.schedule_curr_self]
      exact hnext
    · rw [Links.schedule_rq_ne hd]
      exact fun heq => hd ((hcpu d heq).symm.trans (hcpu c rfl))

/-- In every run whose steps meet `flagsKept`, an exit that did not come back is
final exactly when it was a clean one: then no continuation that meets
`flagsKept` has the task on a CPU, in a tree or on the runqueue, and no
`__schedule` in it goes on in the task. -/
theorem exit_final_iff_clean (E : Env) (s : Sys) (h : Reached E flagsKept s) (c : Cpu)
    (picks : Picks) (s₁ : Sys) (hexit : step E s (.doTaskDead c picks) = some s₁) :
    (∀ s', Reach (fun x => x = s₁) (step E) flagsKept s' →
      (∀ d, (s'.rq d).curr ≠ (s.rq c).curr) ∧ (∀ d, (s.rq c).curr ∉ s'.queue d) ∧
        (s'.task (s.rq c).curr).onRq ≠ .queued ∧
        ∀ a, enabled s' a = true → switchesTo E s' a ≠ some (s.rq c).curr) ↔
      s.links.ExitClean c := by
  have hb := reached_base (fun _ _ hok => hok) h
  have hb₁ : Base s₁ := by
    refine step_base hb ⟨?_, ?_⟩ hexit
    · intro d hd
      cases hd
    · intro x hx
      cases hx
  constructor
  · intro hfinal
    obtain ⟨hcurr, hmem, hoff, -⟩ := hfinal s₁ (.start rfl)
    refine exit_clean hb hexit (hcurr c) hoff (Bool.eq_false_iff.mpr ?_)
    intro hlinked
    exact hmem _ ((hb₁.trees.mem _ _).mpr ⟨hlinked, rfl⟩)
  · intro hclean s' hrun
    obtain ⟨hb', hgone⟩ := gone_forever hb₁ (exit_gone hb hexit hclean) hrun
    refine ⟨hgone.stopped, ?_, hgone.off, fun a hen => switchesTo_ne_gone hb' hgone hen⟩
    intro d hmem
    exact Bool.false_ne_true (hgone.unlinked.symm.trans ((hb'.trees.mem d _).mp hmem).1)

/-- The first task of the class on a CPU exits cleanly. Its successor is not
recognised after the burial, and its exit is not final. -/
theorem exit_final_iff_clean_successor :
    (∃ s s₁, Reached sampleEnv flagsKept s ∧ (s.rq 0).curr = .task 0 ∧
      step sampleEnv s (.doTaskDead 0 pickNone) = some s₁ ∧
      ∀ s', Reach (fun x => x = s₁) (step sampleEnv) flagsKept s' →
        (∀ d, (s'.rq d).curr ≠ .task 0) ∧ (∀ d, .task 0 ∉ s'.queue d) ∧
          (s'.task (.task 0)).onRq ≠ .queued ∧
          ∀ a, enabled s' a = true → switchesTo sampleEnv s' a ≠ some (.task 0)) ∧
    ∃ s s₁, Reached sampleEnv flagsKept s ∧ (s.rq 0).curr = .task 1 ∧
      step sampleEnv s (.doTaskDead 0 pickNone) = some s₁ ∧
      ¬ ∀ s', Reach (fun x => x = s₁) (step sampleEnv) flagsKept s' →
        (∀ d, (s'.rq d).curr ≠ .task 1) ∧ (∀ d, .task 1 ∉ s'.queue d) ∧
          (s'.task (.task 1)).onRq ≠ .queued ∧
          ∀ a, enabled s' a = true → switchesTo sampleEnv s' a ≠ some (.task 1) := by
  have hrun : ∀ (l : List Act) (p : TaskId) (clean : Bool),
      ((runChecked (step sampleEnv) flagsKept l boot).map fun s =>
        ((s.rq 0).curr, decide (s.links.ExitClean 0),
          (step sampleEnv s (.doTaskDead 0 pickNone)).isSome)) = some (p, clean, true) →
      ∃ s s₁, Reached sampleEnv flagsKept s ∧ (s.rq 0).curr = p ∧
        step sampleEnv s (.doTaskDead 0 pickNone) = some s₁ ∧
        (s.links.ExitClean 0 ↔ clean = true) := by
    intro l p clean h
    obtain ⟨s, hs, hf⟩ := Reached.of_check sampleEnv flagsKept _ l h
    simp only [Prod.mk.injEq] at hf
    obtain ⟨hcurr, hclean, hsome⟩ := hf
    obtain ⟨s₁, h₁⟩ := Option.isSome_iff_exists.mp hsome
    refine ⟨s, s₁, hs, hcurr, h₁, ?_⟩
    rw [← hclean]
    exact decide_eq_true_iff.symm
  refine ⟨?_, ?_⟩
  · obtain ⟨s, s₁, hs, hcurr, h₁, hclean⟩ := hrun
      (startFirst ++ [.setscheduler permissive (.task 0) (plainAttr 8) true true]) (.task 0) true
      (by decide +kernel)
    have hfinal := (exit_final_iff_clean sampleEnv s hs 0 pickNone s₁ h₁).mpr (hclean.mpr rfl)
    rw [hcurr] at hfinal
    exact ⟨s, s₁, hs, hcurr, h₁, hfinal⟩
  · obtain ⟨s, s₁, hs, hcurr, h₁, hclean⟩ := hrun
      (startFirst ++ [.fork 0, .wakeNew 0 (.task 1) 0,
        .setscheduler permissive (.task 1) (plainAttr 8) true true,
        .setscheduler permissive (.task 0) (plainAttr 8) true true,
        .doTaskDead 0 pickNone, .finishTaskSwitch 0]) (.task 1) false
      (by decide +kernel)
    have hfinal := (exit_final_iff_clean sampleEnv s hs 0 pickNone s₁ h₁).not.mpr
      (hclean.not.mpr Bool.false_ne_true)
    rw [hcurr] at hfinal
    exact ⟨s, s₁, hs, hcurr, h₁, hfinal⟩

/-! ## Burials -/

/-- The CPU whose running task exits. -/
def exits : Act → Option Cpu
  | .doTaskDead c _ => some c
  | _ => none

/-- `flagsKept`, and every exit is a clean one. -/
def exitsClean (s : Sys) (a : Act) : Prop :=
  flagsKept s a ∧ ∀ c ∈ exits a, s.links.ExitClean c

instance (s : Sys) (a : Act) : Decidable (exitsClean s a) := inferInstanceAs (Decidable (_ ∧ _))

/-- A step that reschedules nothing leaves the tasks to be buried as they are,
but for the one it buries. -/
theorem deadPrev_of_stay (hleave : leaves s a = none) (hstep : step E s a = some s') (d : Cpu) :
    (s'.links.rq d).deadPrev = (s.links.rq d).deadPrev ∨ (s'.links.rq d).deadPrev = none := by
  cases step_case hstep with
  | quiet hl _ _ =>
    rw [hl]
    exact Or.inl rfl
  | state q v _ _ _ hl _ _ =>
    rw [hl]
    exact Or.inl rfl
  | reschedule c how next s₀ s₁ s₂ mode sig picks h _ _ _ _ _ _ _ => cases hleave.symm.trans h
  | activate q dest thisCpu v flags s₁ _ _ _ _ _ ha hs _ =>
    rw [activate_links ha hs]
    exact Or.inl ((Links.enqueue_frame dest q _).deadPrev d)
  | change q cls _ _ hc =>
    rw [hc.links]
    exact Or.inl ((Links.change_frame.deadPrev d).trans ((Links.takeOff_frame q _).deadPrev d))
  | bury c q _ _ hf =>
    rw [links_finishTaskSwitch hf, Links.bury_deadPrev]
    split
    next => exact Or.inr rfl
    next => exact Or.inl rfl
  | fork c t _ _ ht hs =>
    obtain ⟨t', -, hl⟩ := schedFork_links ht hs
    rw [hl]
    exact Or.inl rfl

/-- Only an exit leaves a task to be buried. -/
theorem step_deadPrev (hb : Base s) (hstep : step E s a = some s')
    (h : (s'.rq d).deadPrev = some p) :
    (s.rq d).deadPrev = some p ∨ (exits a = some d ∧ p = (s.rq d).curr) := by
  have h : (s'.links.rq d).deadPrev = some p := h
  have hstay : leaves s a = none → (s.rq d).deadPrev = some p := by
    intro hleave
    rcases deadPrev_of_stay hleave hstep d with heq | heq
    · rw [heq] at h
      exact h
    · cases heq.symm.trans h
  obtain ⟨hen, hx⟩ := step_ok hstep
  cases a with
  | schedule c mode sig picks =>
    simp only [enabled, Bool.and_eq_true, bne_iff_ne, ne_eq] at hen
    rcases schedule_cases hx with ⟨hearly, -⟩ | ⟨-, s₁, next, s₂, h₁, -, hset, hs⟩
    · exact Or.inl (hstay (if_pos hearly))
    rw [reschedule_links rfl rfl h₁ hset hs] at h
    by_cases hd : d = c
    · rw [hd] at h ⊢
      rcases Links.schedule_deadPrev h with hold | ⟨hp, -, hdead⟩
      · exact Or.inl hold
      · -- the running task is not dead, and leaving does not make it so
        rw [hp] at hdead
        exact absurd hdead (Links.leave_state_ne hen.1.1.2)
    · rw [Links.schedule_rq_ne hd] at h
      exact Or.inl h
  | doTaskDead c picks =>
    obtain ⟨-, next, hl, -⟩ := exit_links hb hstep
    rw [hl] at h
    by_cases hd : d = c
    · rw [hd] at h ⊢
      rcases Links.schedule_deadPrev h with hold | ⟨hp, -, -⟩
      · exact Or.inl hold
      · exact Or.inr ⟨rfl, hp⟩
    · rw [Links.schedule_rq_ne hd] at h
      exact Or.inl h
  | _ => exact Or.inl (hstay rfl)

/-- The tasks that wait for their burial are gone, and each waits on the CPU it
exited on. -/
def Awaiting (s : Sys) : Prop := ∀ d p, (s.rq d).deadPrev = some p → s.links.Gone p d

theorem step_awaiting (hb : Base s) (h : Awaiting s) (hok : exitsClean s a)
    (hstep : step E s a = some s') : Awaiting s' := by
  intro d p hdead
  rcases step_deadPrev hb hstep hdead with hold | ⟨hexit, rfl⟩
  · exact step_gone hb (h d p hold) hstep
  · cases a with
    | doTaskDead c picks =>
      injection hexit with hc
      subst hc
      exact exit_gone hb hstep (hok.2 c rfl)
    | _ => cases hexit

theorem boot_awaiting : Awaiting boot := fun _ _ hd => nomatch hd

theorem reached_awaiting (h : Reached E exitsClean s) : Base s ∧ Awaiting s := by
  refine Reach.invariant (fun s => Base s ∧ Awaiting s) ?_ ?_ h
  · intro s hs
    rw [hs]
    exact ⟨boot_base, boot_awaiting⟩
  · rintro s a s' ⟨hb, hw⟩ hok hstep
    exact ⟨step_base hb hok.1 hstep, step_awaiting hb hw hok hstep⟩

/-- Gone, and not waiting for a burial. -/
structure Buried (s : Sys) (p : TaskId) : Prop where
  gone : ∃ c, s.links.Gone p c
  not_waiting : ∀ d, (s.rq d).deadPrev ≠ some p

/-- This is how a task stays. -/
theorem Buried.step (h : Buried s p) (hb : Base s) (hstep : step E s a = some s') : Buried s' p := by
  obtain ⟨c, hgone⟩ := h.gone
  refine ⟨⟨c, step_gone hb hgone hstep⟩, ?_⟩
  intro d hdead
  rcases step_deadPrev hb hstep hdead with hold | ⟨-, hcurr⟩
  · exact h.not_waiting d hold
  · exact hgone.stopped d hcurr.symm

/-- The burial itself. -/
theorem buried_of_finish (hb : Base s) (hw : Awaiting s) (hdead : (s.rq c).deadPrev = some p)
    (hbury : step E s (.finishTaskSwitch c) = some s') : Buried s' p := by
  have hgone := hw c p hdead
  have hcleared : (s'.links.rq c).deadPrev = none := by
    obtain ⟨-, hx⟩ := step_ok hbury
    unfold exec at hx
    dsimp only at hx
    rw [hdead] at hx
    rw [links_finishTaskSwitch hx, Links.bury_deadPrev, if_pos rfl]
  refine ⟨⟨c, step_gone hb hgone hbury⟩, ?_⟩
  intro d hd
  rcases step_deadPrev hb hbury hd with hold | ⟨hexit, -⟩
  · -- it waited on `c` only, and that is the burial that was made
    have hdc : d = c := (hw d p hold).cpu.symm.trans hgone.cpu
    rw [hdc] at hd
    cases hcleared.symm.trans hd
  · cases hexit

/-- In every run in which the exits are clean: a task that `finish_task_switch`
buries is linked in no tree at that time, and however the run goes on it is
not left to be buried again. -/
theorem dead_task_buried_once (E : Env) (s : Sys) (h : Reached E exitsClean s) (c : Cpu)
    (p : TaskId) (hdead : (s.rq c).deadPrev = some p) (s₁ : Sys)
    (hbury : step E s (.finishTaskSwitch c) = some s₁) :
    (∀ d, p ∉ s.queue d) ∧
      ∀ s', Reach (fun x => x = s₁) (step E) flagsKept s' → ∀ d, (s'.rq d).deadPrev ≠ some p := by
  obtain ⟨hb, hw⟩ := reached_awaiting h
  have hb₁ : Base s₁ := by
    refine step_base hb ⟨?_, ?_⟩ hbury
    · intro d hd
      cases hd
    · intro x hx
      cases hx
  refine ⟨?_, ?_⟩
  · intro d hmem
    exact Bool.false_ne_true ((hw c p hdead).unlinked.symm.trans ((hb.trees.mem d p).mp hmem).1)
  · intro s' hrun
    have hinv : Base s' ∧ Buried s' p := by
      refine Reach.invariant (fun s => Base s ∧ Buried s p) ?_ ?_ hrun
      · intro s₂ hs
        rw [hs]
        exact ⟨hb₁, buried_of_finish hb hw hdead hbury⟩
      · rintro s a s' ⟨hb, hburied⟩ hok hstep
        exact ⟨step_base hb hok hstep, hburied.step hb hstep⟩
    exact hinv.2.not_waiting

/-- An HVF task exits while another one waits in the tree. -/
theorem dead_task_buried_once_waiting :
    ∃ s s₁, Reached sampleEnv exitsClean s ∧ (s.rq 0).deadPrev = some (.task 0) ∧
      step sampleEnv s (.finishTaskSwitch 0) = some s₁ ∧
      ∀ s', Reach (fun x => x = s₁) (step sampleEnv) flagsKept s' →
        ∀ d, (s'.rq d).deadPrev ≠ some (.task 0) := by
  obtain ⟨s, hs, hf⟩ := Reached.of_check (b := (some (TaskId.task 0), true)) sampleEnv exitsClean
    (fun s => ((s.rq 0).deadPrev, (step sampleEnv s (.finishTaskSwitch 0)).isSome))
    (startFirst ++ [.fork 0, .wakeNew 0 (.task 1) 0,
      .setscheduler permissive (.task 1) (plainAttr 8) true true,
      .setscheduler permissive (.task 0) (plainAttr 8) true true, .doTaskDead 0 pickNone])
    (by decide +kernel)
  injection hf with hdead hsome
  obtain ⟨s₁, h₁⟩ := Option.isSome_iff_exists.mp hsome
  exact ⟨s, s₁, hs, hdead, h₁,
    (dead_task_buried_once sampleEnv s hs 0 (.task 0) hdead s₁ h₁).2⟩

end HvfSched
