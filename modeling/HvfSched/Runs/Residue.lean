import HvfSched.Links.Members
import HvfSched.Runs.Moves

/-!
# Leaving the class removes the task

What is linked in a tree belongs to a runnable HVF task, and the HVF share of
`nr_running` is the number of runnable HVF tasks, in every run whose class
changes add up (`changesClean`).

The usual class change of a running task does not. In state `TASK_RUNNING`
the dequeue does not recognise `hvf_rq->curr`, the put links the task that
should have been removed, and the enqueue of the new class counts it a second
time: a task of the fair class stays behind in the tree.
-/

namespace HvfSched

open Lib Sys

variable {E : Env} {s s' : Sys} {a : Act} {c : Cpu} {p : TaskId}

/-- The next task is on the runqueue. -/
theorem Source.runs {l l₀ : Links} {how : Links.Leave} {next : TaskId}
    (h : Source l l₀ c how next) (hl : l.Sound) (hstart : Start l c how l₀)
    (hm : (l₀.leave c (l₀.rq c).curr how).Members)
    (hstate : how ≠ .stay → (l₀.task (l₀.rq c).curr).state ≠ taskRunning) :
    l₀.Runs c how next := by
  have hmay := h.mayRun hl hstart hstate
  cases h with
  | idle hi => exact Or.inl hi
  | above hlive _ hq hcpu hprev =>
    refine Or.inr ⟨(hstart.isLive next).trans hlive, ?_, ?_⟩
    · have hq₀ : (l₀.task next).onRq = .queued := by
        rw [(hstart.task next).1]
        exact hq
      -- only blocking changes `on_rq`, and then the next task is another one
      cases how with
      | stay => exact hq₀
      | signalled =>
        show ((l₀.setState (l₀.rq c).curr taskRunning).task next).onRq = _
        rw [Links.setState, Links.setTask_task]
        split
        next hn =>
          rw [← hn]
          exact hq₀
        next => exact hq₀
      | block =>
        rw [Links.leave_task_ne .block]
        · exact hq₀
        · rw [hstart.rq]
          exact hprev rfl
    · rw [(Links.leave_bits how next).1, (hstart.task next).1]
      exact hcpu
  | tree hlinked hcpu =>
    rcases hmay with hi | ⟨hlive, hcpu₀⟩
    · exact Or.inl hi
    · exact Or.inr ⟨hlive, (hm.linked next hlinked).2, (Links.leave_bits how next).1.trans hcpu₀⟩

/-! ## Runs -/

/-- The flags are kept, and the class change of a runnable HVF task adds up. -/
def changesClean (s : Sys) (a : Act) : Prop :=
  flagsKept s a ∧
  ∀ x ∈ classTarget s a, (s.task x.1).schedClass = .hvf → (s.task x.1).onRq = .queued →
    s.links.ChangeClean x.1 x.2

instance (s : Sys) (a : Act) : Decidable (changesClean s a) := inferInstanceAs (Decidable (_ ∧ _))

/-- The invariant of the runs. -/
structure Counted (l : Links) : Prop where
  members : l.Members
  running : l.RunningQueued

theorem step_counted (hb : Base s) (h : Counted s.links) (hok : changesClean s a)
    (hstep : step E s a = some s') : Counted s'.links := by
  have hmove := step_move hb hstep
  generalize s'.links = l' at hmove
  cases hmove with
  | quiet => exact h
  | state p v _ => exact ⟨h.members.setState v, h.running.setState v⟩
  | schedule c how next l₀ hleave hstart hstate hsource =>
    have h₀ : Counted l₀ := by
      cases hstart with
      | same he => exact he ▸ h
      | dead _ _ he => exact he ▸ ⟨h.members.setState taskDead, h.running.setState taskDead⟩
    have hl₀ := hstart.sound hb.sound
    have hleft := h₀.members.leave hl₀ h₀.running hstate
    have hruns := hsource.runs hb.sound hstart hleft hstate
    exact ⟨h₀.members.schedule hl₀ h₀.running hstate hruns, h₀.running.schedule hl₀ hruns⟩
  | wake p dest v _ hlive hoff _ =>
    exact ⟨h.members.wake ((isLive_links s p).trans hlive) hoff v, h.running.wake v⟩
  | change p cls htarget hlive =>
    refine ⟨h.members.change h.running ((isLive_links s p).trans hlive) ?_, h.running.change⟩
    exact hok.2 (p, cls) htarget
  | bury c p _ => exact ⟨h.members.bury c p, h.running.bury c p⟩
  | fork c t hf ht =>
    have hflag := hok.1.1 c hf
    exact ⟨h.members.fork hb.sound ht.onRq (ht.linked.trans hflag), h.running.fork hb.sound⟩

theorem boot_counted : Counted boot.links := by
  have hflag : ∀ p, (boot.links.task p).linked = false := by
    intro p
    cases p with
    | idle c => rfl
    | task n => rfl
  refine ⟨⟨?_, ?_, ?_⟩, ?_⟩
  · intro p hp
    exact absurd ((hflag p).symm.trans hp) Bool.false_ne_true
  · intro c p hp
    cases hp
  · intro c
    have hnone : boot.links.runnable c = 0 := by
      refine Nat.count_iff_forall_not.mpr ?_
      rintro n - ⟨hq, -⟩
      cases hq
    rw [hnone]
    rfl
  · intro c hlive
    cases hlive

/-- The runnable tasks of `c` that belong to HVF, or to the other classes. -/
def Sys.hvfRunnable (s : Sys) (c : Cpu) : Nat :=
  Nat.count (fun n => s.links.OnRunqueue c (.task n) ∧ (s.task (.task n)).schedClass = .hvf) s.nextPid

def Sys.otherRunnable (s : Sys) (c : Cpu) : Nat :=
  Nat.count (fun n => s.links.OnRunqueue c (.task n) ∧ ¬ (s.task (.task n)).schedClass = .hvf)
    s.nextPid

/-- The HVF share of `nr_running`: what is left when the other classes have
counted their own tasks. -/
def Sys.hvfShare (s : Sys) (c : Cpu) : Int := (s.rq c).nrRunning - s.otherRunnable c

/-- In every run whose class changes add up, only runnable HVF tasks are
linked, and the HVF share of `nr_running` is their number. -/
theorem tree_holds_runnable_hvf_tasks (E : Env) (s : Sys) (h : Reached E changesClean s) (c : Cpu) :
    (∀ p ∈ s.queue c, (s.task p).schedClass = .hvf ∧ (s.task p).onRq = .queued) ∧
    s.hvfShare c = s.hvfRunnable c := by
  have hinv : Base s ∧ Counted s.links := by
    refine Reach.invariant (fun s => Base s ∧ Counted s.links) ?_ ?_ h
    · intro s hs
      rw [hs]
      exact ⟨boot_base, boot_counted⟩
    · rintro s a s' ⟨hb, hc⟩ hok hstep
      exact ⟨step_base hb hok.1 hstep, step_counted hb hc hok hstep⟩
  obtain ⟨hb, hc⟩ := hinv
  refine ⟨?_, ?_⟩
  · intro p hp
    exact hc.members.linked p ((hb.trees.mem c p).mp hp).1
  · have hcount : (s.rq c).nrRunning = s.links.runnable c := hc.members.count c
    have hsplit : s.links.runnable c = s.hvfRunnable c + s.otherRunnable c := count_split s.nextPid
    rw [Sys.hvfShare, hcount, hsplit]
    omega

/-- A waiting HVF task is sent to the fair class, and the running task enters
HVF while it is in state `TASK_RUNNING`. -/
theorem tree_holds_runnable_hvf_tasks_waiting :
    ∃ s, Reached sampleEnv changesClean s ∧ s.queue 0 = [.task 0] ∧ s.hvfRunnable 0 = 1 ∧
      (∀ p ∈ s.queue 0, (s.task p).schedClass = .hvf ∧ (s.task p).onRq = .queued) ∧
      s.hvfShare 0 = s.hvfRunnable 0 := by
  obtain ⟨s, hs, hf⟩ := Reached.of_check (b := ([.task 0], 1)) sampleEnv changesClean
    (fun s => (s.queue 0, s.hvfRunnable 0))
    (startFirst ++ [.fork 0, .wakeNew 0 (.task 1) 0,
      .setscheduler permissive (.task 1) (plainAttr 8) true true,
      .setscheduler permissive (.task 1) (plainAttr 0) true true,
      .setscheduler permissive (.task 0) (plainAttr 8) true true])
    (by decide +kernel)
  injection hf with hq hn
  exact ⟨s, hs, hq, hn, tree_holds_runnable_hvf_tasks sampleEnv s hs 0⟩

/-- A task that was picked from the tree is sent to the fair class while it
runs: it is still linked, and counted twice. -/
theorem running_task_leaves_residue :
    ∃ s, Reached sampleEnv (fun _ _ => True) s ∧
      .task 1 ∈ s.queue 0 ∧ (s.task (.task 1)).schedClass = .fair ∧
      s.hvfShare 0 = 1 ∧ s.hvfRunnable 0 = 0 := by
  refine Reached.exists_of_eval sampleEnv
    (startFirst ++ [.fork 0, .wakeNew 0 (.task 1) 0,
      .setscheduler permissive (.task 1) (plainAttr 8) true true,
      .setState 0 taskInterruptible, .schedule 0 .smNone ⟨false, false⟩ pickNone,
      .setscheduler permissive (.task 1) (plainAttr 0) true true]) ?_
  decide +kernel

end HvfSched
