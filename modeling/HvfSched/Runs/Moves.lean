import HvfSched.Runs.Flags

/-!
# The moves of the bookkeeping

Whether a task is lost, left behind or not recognised is decided by the
bookkeeping alone. `Move` lists what a step of the machine can do to it, with
everything that is known of the step: the action it belongs to, where the next
task comes from, and that this task may run on the CPU. An invariant of the
bookkeeping is a case analysis over the moves.
-/

namespace HvfSched

open Lib Sys

variable {E : Env} {s s' : Sys} {a : Act} {c : Cpu} {p : TaskId}

/-- The bookkeeping a reschedule starts from: `do_task_dead` has written the
state of the running task before. -/
inductive Start (l : Links) (c : Cpu) (how : Links.Leave) (l₀ : Links) : Prop
  | same (h : l₀ = l)
  | dead (hhow : how = .block) (hlive : l.isLive (l.rq c).curr = true)
      (h : l₀ = l.setState (l.rq c).curr taskDead)

/-- Where the next task comes from. -/
inductive Source (l l₀ : Links) (c : Cpu) (how : Links.Leave) (next : TaskId) : Prop
  | idle (h : next = .idle c)
  | above (hlive : l.isLive next = true) (hcls : (l.task next).schedClass ≠ .hvf)
      (hqueued : (l.task next).onRq = .queued) (hcpu : (l.task next).cpu = c)
      (hprev : how = .block → next ≠ (l.rq c).curr)
  | tree (hlinked : ((l₀.leave c (l₀.rq c).curr how).task next).linked = true)
      (hcpu : (l.task next).cpu = c)

/-- What the action `a` can make of the bookkeeping of `s`. -/
inductive Move (s : Sys) (a : Act) : Links → Prop
  | quiet : Move s a s.links
  | state (p : TaskId) (v : Mask) (hlive : s.isLive p = true) : Move s a (s.links.setState p v)
  | schedule (c : Cpu) (how : Links.Leave) (next : TaskId) (l₀ : Links)
      (hleave : leaves s a = some (c, how)) (hstart : Start s.links c how l₀)
      (hstate : how ≠ .stay → (l₀.task (l₀.rq c).curr).state ≠ taskRunning)
      (hsource : Source s.links l₀ c how next) : Move s a (l₀.schedule c how next)
  | wake (p : TaskId) (dest : Cpu) (v : Mask) (hact : activates s a = some (p, dest))
      (hlive : s.isLive p = true) (hoff : (s.task p).onRq ≠ .queued)
      (hon : (s.task p).onCpu = false) : Move s a (s.links.wake p dest v)
  | change (p : TaskId) (cls : SchedClass) (htarget : classTarget s a = some (p, cls))
      (hlive : s.isLive p = true) : Move s a (s.links.change p cls)
  | bury (c : Cpu) (p : TaskId) (hbury : buries s a = some (c, p)) : Move s a (s.links.bury c p)
  | fork (c : Cpu) (t : TaskLink) (hfork : forks a = some c)
      (ht : ForkedFrom (s.links.task (s.rq c).curr) c t) : Move s a (s.links.fork t)

namespace Start

variable {l l₀ : Links} {how : Links.Leave}

theorem rq (h : Start l c how l₀) : l₀.rq = l.rq := by
  cases h with
  | same h => rw [h]
  | dead _ _ h =>
    rw [h]
    rfl

theorem isLive (h : Start l c how l₀) (q : TaskId) : l₀.isLive q = l.isLive q := by
  cases h with
  | same h => rw [h]
  | dead _ _ h =>
    rw [h]
    exact Links.isLive_congr (by rfl) q

/-- Only the state of the running task can differ, and only when it blocks. -/
theorem task (h : Start l c how l₀) (q : TaskId) :
    l₀.task q = { l.task q with state := (l₀.task q).state } ∧
      (how ≠ .block → (l₀.task q).state = (l.task q).state) := by
  cases h with
  | same h =>
    rw [h]
    exact ⟨rfl, fun _ => rfl⟩
  | dead hhow _ h =>
    refine ⟨?_, fun hne => absurd hhow hne⟩
    rw [h, Links.setState, Links.setTask_task]
    split
    next hq => rw [hq]
    next => rfl

theorem sound (h : Start l c how l₀) (hl : l.Sound) : l₀.Sound := by
  cases h with
  | same h => exact h ▸ hl
  | dead _ hlive h => exact h ▸ hl.setState hlive taskDead

end Start

/-- The next task is the idle task or one assigned to the CPU. -/
theorem Source.mayRun {l l₀ : Links} {how : Links.Leave} {next : TaskId}
    (h : Source l l₀ c how next) (hl : l.Sound) (hstart : Start l c how l₀)
    (hstate : how ≠ .stay → (l₀.task (l₀.rq c).curr).state ≠ taskRunning) :
    Links.Sound.MayRun l₀ c next := by
  have hcpu₀ : (l₀.task next).cpu = (l.task next).cpu := by rw [(hstart.task next).1]
  cases h with
  | idle hi => exact Or.inl hi
  | above hlive _ _ hcpu _ =>
    refine Or.inr ⟨?_, hcpu₀.trans hcpu⟩
    rw [hstart.isLive]
    exact hlive
  | tree hlinked hcpu =>
    refine Or.inr ⟨?_, hcpu₀.trans hcpu⟩
    have hlive := ((hstart.sound hl).leave how hstate).live_of_linked hlinked
    rw [← hlive]
    exact (Links.isLive_congr (Links.leave_nextPid how) next).symm

theorem source_of_picked {s₀ s₁ : Sys} {how : Links.Leave} {next : TaskId}
    (hmid : MidSchedule s₀ s₁ c how) (hstart : Start s.links c how s₀.links)
    (h : Picked s s₁ c how next) : Source s.links s₀.links c how next := by
  cases h with
  | idle hi => exact .idle hi
  | above hlive hcls hq hcpu hprev =>
    refine .above ((isLive_links s next).trans hlive) ?_ hq hcpu hprev
    intro (hhvf : (s.task next).schedClass = .hvf)
    rw [hhvf] at hcls
    cases hcls
  | tree hmax =>
    obtain ⟨hflag, hcpu⟩ := (hmid.base.trees.mem c next).mp (hmid.base.trees.max c next hmax)
    have hflag' : (s₁.links.task next).linked = true := hflag
    have hcpu' : (s₁.links.task next).cpu = c := hcpu
    rw [hmid.links] at hflag' hcpu'
    refine .tree hflag' ?_
    rw [(Links.leave_bits how next).1, (hstart.task next).1] at hcpu'
    exact hcpu'

/-- Every step of the machine makes a move of the bookkeeping. -/
theorem step_move (h : Base s) (hstep : step E s a = some s') : Move s a s'.links := by
  cases step_case hstep with
  | quiet hl _ _ =>
    rw [hl]
    exact .quiet
  | state p v hlive _ _ hl _ _ =>
    rw [hl]
    exact .state p v hlive
  | reschedule c how next s₀ s₁ s₂ mode sig picks hleave hstart hhow hprev _ hpicked hset hs =>
    obtain ⟨⟨hrq, -⟩, -⟩ := start_same hstart
    have hcurr : (s₀.rq c).curr = (s.rq c).curr := by rw [hrq]
    have hhow₀ : how = leaveOf mode sig (s₀.task (s₀.rq c).curr) := by
      rw [hcurr]
      exact hhow
    have hlinks : Start s.links c how s₀.links := by
      rcases hstart with ⟨hs₀, -⟩ | ⟨hb, hlive, hs₀⟩
      · rw [hs₀]
        exact .same rfl
      · rw [hs₀, links_setTaskState]
        exact .dead hb ((isLive_links s _).trans hlive) rfl
    have hmid := midSchedule (h.start hstart) hhow₀ hprev
    rw [reschedule_links hcurr hhow hprev hset hs]
    refine .schedule c how next _ hleave hlinks ?_ (source_of_picked hmid hlinks hpicked)
    intro hstay
    rw [hhow₀] at hstay
    exact leaveOf_ne_stay hstay
  | activate p dest thisCpu v flags s₁ hact hlive hoff hon _ ha hs _ =>
    rw [activate_links ha hs]
    exact .wake p dest v hact hlive hoff hon
  | change p cls htarget hlive hc =>
    rw [hc.links]
    exact .change p cls htarget hlive
  | bury c p hbury _ hf =>
    rw [links_finishTaskSwitch hf]
    exact .bury c p hbury
  | fork c t hf _ ht hs =>
    obtain ⟨t', hforked, hl⟩ := schedFork_links ht hs
    rw [hl]
    exact .fork c t' hf hforked

end HvfSched
