import HvfSched.Runs.Frames
import HvfSched.Runs.Pick
import HvfSched.Runs.Residue
import HvfSched.Tasks.Steps

/-!
# The fast path, and CPUs that go idle

`__pick_next_task` asks the fair class first when `nr_running` equals
`cfs.h_nr_queued`, and takes its answer, or the idle task, without looking at
the other classes. The test compares two counters; what it is meant to say is
that nobody else is runnable.

It does, in every run whose class changes add up (`changesClean`). There
`nr_running` counts the tasks on the runqueue (`Counted`) and
`cfs.h_nr_queued` the fair ones among them (`FairCounted`), so the test can
only pass when all of them are fair, and then the HVF tree is empty. The
choice of the fast path is the choice of the walk over the classes.

The same two counts say what a CPU that goes idle leaves behind: nothing but
the HVF task it has just put back, which the pick did not see.

`cfs.h_nr_queued` is followed through the stages by `CfsMoves`: a stage moves
the counter of one CPU by the unit of the class it enqueues or dequeues for.
-/

namespace HvfSched

open Lib Sys

variable {E : Env} {s s' s₁ : Sys} {a : Act} {c d : Cpu} {p q : TaskId} {n m : Int}

/-! ## The counter of the fair class -/

/-- `cfs.h_nr_queued`. -/
def Sys.cfs (s : Sys) (c : Cpu) : Int := (s.rq c).cfsNrQueued

/-- What a task of the class counts in `cfs.h_nr_queued`. -/
def SchedClass.fairUnit (cls : SchedClass) : Int := if cls = .fair then 1 else 0

/-- The counter of `c` moves by `n`, and no other does. -/
def CfsMoves (c : Cpu) (n : Int) (s s' : Sys) : Prop :=
  ∀ d, s'.cfs d = s.cfs d + if d = c then n else 0

/-- No counter moves. -/
def SameCfs (s s' : Sys) : Prop := Along (fun _ r r' => r'.cfsNrQueued = r.cfsNrQueued) s s'

/-- The hooks of the class do not write it. -/
theorem cfsFrame : HookFrame fun _ r r' => r'.cfsNrQueued = r.cfsNrQueued where
  refl _ _ := rfl
  trans h h' := h'.trans h
  hvf _ _ _ := rfl
  nrRunning _ _ _ := rfl
  request _ _ := rfl
  buried _ _ := rfl

theorem SameCfs.eq (h : SameCfs s s') (d : Cpu) : s'.cfs d = s.cfs d := h d

theorem SameCfs.switchTo (c : Cpu) (prev next : TaskId) (s : Sys) :
    SameCfs s (switchTo c prev next s) :=
  cfsFrame.switchTo rfl fun _ => rfl

namespace CfsMoves

theorem of_same (h : SameCfs s s') (c : Cpu) : CfsMoves c 0 s s' := by
  intro d
  rw [h.eq d, ite_self, Int.add_zero]

theorem trans (h : CfsMoves c n s s₁) (h' : CfsMoves c m s₁ s') : CfsMoves c (n + m) s s' := by
  intro d
  rw [h' d, h d]
  split
  next => omega
  next => omega

theorem then_same (h : CfsMoves c n s s₁) (h' : SameCfs s₁ s') : CfsMoves c n s s' := by
  intro d
  rw [h'.eq d, h d]

theorem after_same (h : SameCfs s s₁) (h' : CfsMoves c n s₁ s') : CfsMoves c n s s' := by
  intro d
  rw [h' d, h.eq d]

theorem enqueueTask {flags : Mask} (h : enqueueTask E c p flags s = .ok s') :
    CfsMoves c (s.task p).schedClass.fairUnit s s' := by
  rcases enqueueTask_cases h with ⟨hcls, he⟩ | ⟨-, hs⟩
  · rw [hcls]
    exact of_same (cfsFrame.enqueueTaskHvf he) c
  · intro d
    rw [hs, Sys.cfs, otherEnqueue, setRq_rq, SchedClass.fairUnit]
    split
    next hd =>
      rw [hd]
      split
      next => rfl
      next => exact (Int.add_zero _).symm
    next => exact (Int.add_zero _).symm

theorem dequeueTask {r : Bool × Sys} (h : dequeueTask E c p s = .ok r) :
    CfsMoves c (-(s.task p).schedClass.fairUnit) s r.2 := by
  rcases dequeueTask_cases h with ⟨hcls, hd⟩ | ⟨-, hr⟩
  · rw [hcls]
    exact of_same (cfsFrame.dequeueTaskHvf hd) c
  · intro d
    rw [hr, Sys.cfs, otherDequeue, setRq_rq, SchedClass.fairUnit]
    split
    next hd =>
      rw [hd]
      split
      next => rfl
      next => exact (Int.add_zero _).symm
    next => exact (Int.add_zero _).symm

theorem activateTask {flags : Mask} (h : activateTask E c p flags s = .ok s') :
    CfsMoves c (s.task p).schedClass.fairUnit s s' := by
  obtain ⟨s₁, h₁, hs⟩ := activateTask_cases h
  rw [hs]
  exact (enqueueTask h₁).then_same (cfsFrame.of_rq rfl)

theorem takeOff (h : takeOff E p s = .ok s') :
    CfsMoves (s.task p).cpu
      (if (s.task p).isQueued then -(s.task p).schedClass.fairUnit else 0) s s' := by
  obtain ⟨s₁, h₁, hs⟩ := takeOff_cases h
  have hlast : SameCfs s₁ s' := by
    rw [hs]
    split
    next => exact cfsFrame.putPrevTask E _ p s₁
    next => exact cfsFrame.same s₁
  rcases h₁ with ⟨hq, b, hr⟩ | ⟨hq, h₁⟩
  · rw [if_pos hq]
    exact (dequeueTask hr).then_same hlast
  · rw [if_neg (Bool.eq_false_iff.mp hq)]
    rw [h₁] at hlast
    exact of_same hlast _

theorem putBack {queued running : Bool} {flags : Mask}
    (h : putBack E p queued running flags s = .ok s') :
    CfsMoves (s.task p).cpu (if queued then (s.task p).schedClass.fairUnit else 0) s s' := by
  rcases putBack_cases h with ⟨hq, he⟩ | ⟨hq, hs⟩
  · rw [if_pos hq]
    exact enqueueTask he
  · rw [hs, if_neg (Bool.eq_false_iff.mp hq)]
    exact of_same (cfsFrame.same s) _

/-- A change of class: out under the old class, in under the new one. -/
theorem classChange {cls : SchedClass} {init : Bool} (h : ClassChange E p cls init s s') :
    CfsMoves (s.task p).cpu
      (if (s.task p).isQueued then cls.fairUnit - (s.task p).schedClass.fairUnit else 0) s s' := by
  obtain ⟨hbody₀, hcls₀, hoff, hbody, hcls, hmid, hback, hend, -, -⟩ := h
  next t₀ t s₁ s₂ s₃ running flags =>
  have hout := takeOff hoff
  have hin := putBack hback
  -- the two writes of attributes keep the task where it is
  have hcpu₀ : ((s.setTask p t₀).task p).cpu = (s.task p).cpu := by
    have hb := congrArg TaskStruct.cpu hbody₀
    rw [setTask_self]
    exact hb
  have hqueued₀ : ((s.setTask p t₀).task p).isQueued = (s.task p).isQueued := by
    have hb := congrArg TaskStruct.isQueued hbody₀
    rw [setTask_self]
    exact hb
  have hclass₀ : ((s.setTask p t₀).task p).schedClass = (s.task p).schedClass := by
    rw [setTask_self]
    exact hcls₀
  have hbits₂ : (s₂.task p).cpu = (s.task p).cpu ∧ (s₂.task p).schedClass = cls := by
    have ht : s₂.links.task p = t.link := by
      rw [links_checkClassChanging hmid, links_setTask, Links.setTask_task, if_pos rfl]
    have hb := congrArg TaskStruct.cpu hbody
    have ho := congrArg (fun l => (l.task p).cpu) (links_takeOff hoff)
    have hframe := (Links.takeOff_frame p (s.setTask p t₀).links).cpu p
    refine ⟨(congrArg TaskLink.cpu ht).trans ?_, (congrArg TaskLink.schedClass ht).trans hcls⟩
    exact hb.trans ((ho.trans hframe).trans hcpu₀)
  rw [hcpu₀, hqueued₀, hclass₀] at hout
  rw [hbits₂.1, hbits₂.2] at hin
  have hfirst : SameCfs s (s.setTask p t₀) := cfsFrame.of_rq rfl
  have hwrite : SameCfs s₁ (s₁.setTask p t) := cfsFrame.of_rq rfl
  have hlast : SameCfs s₃ s' := by
    rcases hend with h' | ⟨-, h'⟩ | ⟨d, h'⟩
    · rw [h']
      exact cfsFrame.same s₃
    · rw [h']
      exact cfsFrame.of_rq rfl
    · rw [h']
      exact cfsFrame.setRq rfl
  have hmove := ((after_same hfirst hout).then_same
    (cfsFrame.comp hwrite (cfsFrame.checkClassChanging hmid))).trans (hin.then_same hlast)
  split
  next hq =>
    rw [if_pos hq, if_pos hq, Int.add_comm, ← Int.sub_eq_add_neg] at hmove
    exact hmove
  next hq =>
    rw [if_neg hq, if_neg hq] at hmove
    exact hmove

end CfsMoves

/-! ## What the counter stands for -/

/-- A fair task on the runqueue of `c`. -/
def TaskLink.FairOn (c : Cpu) (t : TaskLink) : Prop :=
  (t.onRq = .queued ∧ t.cpu = c) ∧ t.schedClass = .fair

instance (c : Cpu) (t : TaskLink) : Decidable (t.FairOn c) := inferInstanceAs (Decidable (_ ∧ _))

/-- The number of fair tasks on the runqueue of `c`. -/
def Links.fairRunnable (l : Links) (c : Cpu) : Nat :=
  Nat.count (fun n => (l.task (.task n)).FairOn c) l.nextPid

/-- `cfs.h_nr_queued` is the number of fair tasks on the runqueue. -/
def FairCounted (s : Sys) : Prop := ∀ c, s.cfs c = s.links.fairRunnable c

/-- The count does not look at anything else. -/
theorem fairRunnable_same {l l' : Links} (hpid : l'.nextPid = l.nextPid)
    (h : ∀ q, (l'.task q).onRq = (l.task q).onRq ∧ (l'.task q).cpu = (l.task q).cpu ∧
      (l'.task q).schedClass = (l.task q).schedClass) (c : Cpu) :
    l'.fairRunnable c = l.fairRunnable c := by
  unfold Links.fairRunnable
  rw [hpid]
  refine count_congr ?_
  intro j _
  obtain ⟨h₁, h₂, h₃⟩ := h (.task j)
  rw [TaskLink.FairOn, TaskLink.FairOn, h₁, h₂, h₃]

/-- The count, when one task changes. -/
theorem fairRunnable_change {l l' : Links} (hlive : l.isLive p = true)
    (hpid : l'.nextPid = l.nextPid) (htask : ∀ q, q ≠ p → l'.task q = l.task q) (c : Cpu) :
    (l'.fairRunnable c : Int) - indicator ((l'.task p).FairOn c)
      = l.fairRunnable c - indicator ((l.task p).FairOn c) := by
  cases p with
  | idle d => cases hlive
  | task n =>
    unfold Links.fairRunnable
    rw [hpid]
    refine count_change (P := fun n => (l.task (.task n)).FairOn c)
      (Q := fun n => (l'.task (.task n)).FairOn c) (of_decide_eq_true hlive) ?_
    intro j hj
    rw [htask (.task j)]
    intro e
    injection e with e
    exact hj e

/-- What a task counts in `cfs.h_nr_queued` of its CPU. -/
def TaskStruct.fairWeight (t : TaskStruct) : Int :=
  if t.onRq = .queued then t.schedClass.fairUnit else 0

theorem indicator_fairOn (s : Sys) (p : TaskId) (c : Cpu) :
    indicator ((s.links.task p).FairOn c)
      = if c = (s.task p).cpu then (s.task p).fairWeight else 0 := by
  unfold TaskStruct.fairWeight SchedClass.fairUnit
  by_cases hc : c = (s.task p).cpu
  · rw [if_pos hc]
    by_cases hq : (s.task p).onRq = .queued
    · rw [if_pos hq]
      exact if_congr ⟨fun h => h.2, fun h => ⟨⟨hq, hc.symm⟩, h⟩⟩ rfl rfl
    · rw [if_neg hq]
      exact indicator_neg fun h => hq h.1.1
  · rw [if_neg hc]
    exact indicator_neg fun h => hc h.1.2.symm

namespace FairCounted

theorem same (h : FairCounted s) (hc : SameCfs s s') (hpid : s'.nextPid = s.nextPid)
    (hbits : ∀ q, (s'.links.task q).onRq = (s.links.task q).onRq ∧
      (s'.links.task q).cpu = (s.links.task q).cpu ∧
      (s'.links.task q).schedClass = (s.links.task q).schedClass) : FairCounted s' := by
  intro c
  rw [hc.eq c, h c, fairRunnable_same hpid hbits]

theorem of_links (h : FairCounted s) (hc : SameCfs s s') (hl : s'.links = s.links) :
    FairCounted s' := by
  intro c
  rw [hc.eq c, h c, hl]

/-- A task that stays on its CPU: the counter moves with its weight. -/
theorem change (h : FairCounted s) (hlive : s.isLive p = true) (hpid : s'.nextPid = s.nextPid)
    (htask : ∀ q, q ≠ p → s'.links.task q = s.links.task q)
    (hcpu : (s'.task p).cpu = (s.task p).cpu)
    (hc : CfsMoves (s.task p).cpu ((s'.task p).fairWeight - (s.task p).fairWeight) s s') :
    FairCounted s' := by
  intro c
  have hcount := fairRunnable_change ((isLive_links s p).trans hlive) hpid htask c
  rw [indicator_fairOn, indicator_fairOn, hcpu] at hcount
  have hmove := hc c
  have hold := h c
  split at hcount
  next hd =>
    rw [if_pos hd] at hmove
    omega
  next hd =>
    rw [if_neg hd] at hmove
    omega

/-- The child of a fork is off the runqueue. -/
theorem fork {t : TaskLink} (h : FairCounted s) (hc : SameCfs s s')
    (hl : s'.links = s.links.fork t) (hoff : t.onRq = .off) : FairCounted s' := by
  intro c
  rw [hc.eq c, h c, hl]
  unfold Links.fairRunnable
  have hpid : (s.links.fork t).nextPid = s.links.nextPid + 1 := rfl
  rw [hpid, Nat.count_succ, if_neg, Nat.add_zero]
  · refine congrArg Int.ofNat (count_congr ?_)
    intro j hj
    rw [Links.fork_task_ne]
    intro e
    injection e with e
    exact absurd hj (by omega)
  · rw [Links.fork_self]
    intro hf
    cases hoff.symm.trans hf.1.1

/-! ## The stages -/

theorem setTask {t : TaskStruct} (h : FairCounted s) (hq : t.onRq = (s.task p).onRq)
    (hcpu : t.cpu = (s.task p).cpu) (hcls : t.schedClass = (s.task p).schedClass) :
    FairCounted (s.setTask p t) := by
  refine h.same (cfsFrame.of_rq rfl) rfl ?_
  intro q
  show ((s.setTask p t).task q).onRq = (s.task q).onRq ∧
    ((s.setTask p t).task q).cpu = (s.task q).cpu ∧
    ((s.setTask p t).task q).schedClass = (s.task q).schedClass
  rw [setTask_task]
  split
  next hqp =>
    rw [hqp]
    exact ⟨hq, hcpu, hcls⟩
  next => exact ⟨rfl, rfl, rfl⟩

/-- A running task that blocks counts for nothing afterwards. -/
theorem blockTask (h : FairCounted s) (hlive : s.isLive p = true)
    (hq : (s.task p).onRq = .queued) (hcpu : (s.task p).cpu = c)
    (hp : blockTask E c p s = .ok s') : FairCounted s' := by
  obtain ⟨b, s₁, h₁, hs⟩ := blockTask_cases hp
  have hl : s₁.links = (s.links.dequeue c p).2 := congrArg Prod.snd (links_dequeueTask h₁)
  have hf := Links.dequeue_frame c p s.links
  have hmove : CfsMoves c (-(s.task p).schedClass.fairUnit) s s₁ := CfsMoves.dequeueTask h₁
  have hbits : (s₁.task p).cpu = (s.task p).cpu ∧ (s₁.task p).onRq = (s.task p).onRq ∧
      (s₁.task p).schedClass = (s.task p).schedClass := by
    have htask : s₁.links.task p = (s.links.dequeue c p).2.task p :=
      congrArg (fun l => l.task p) hl
    refine ⟨?_, ?_, ?_⟩
    · exact (congrArg TaskLink.cpu htask).trans (hf.cpu p)
    · exact (congrArg TaskLink.onRq htask).trans (hf.onRq p)
    · exact (congrArg TaskLink.schedClass htask).trans (hf.schedClass p)
  have hothers : ∀ q, q ≠ p → s₁.links.task q = s.links.task q := by
    intro q hqp
    rw [hl]
    exact hf.task_ne q hqp
  have hpid : s₁.nextPid = s.nextPid := by
    have hn := congrArg Links.nextPid hl
    exact hn.trans hf.nextPid
  rw [hs]
  cases b with
  | true =>
    refine h.change hlive hpid ?_ ?_ ?_
    · intro q hqp
      show (((s₁.setTask p _).task q).link) = _
      rw [setTask_ne s₁ _ hqp]
      exact hothers q hqp
    · show ((s₁.setTask p _).task p).cpu = _
      rw [setTask_self]
      exact hbits.1
    · have hw : (s.task p).fairWeight = (s.task p).schedClass.fairUnit := if_pos hq
      have hw' : ((setOnRq p .off s₁).task p).fairWeight = 0 := by
        rw [setOnRq, setTask_self]
        rfl
      rw [if_pos rfl, hw, hw', hcpu, Int.zero_sub]
      exact hmove.then_same (cfsFrame.of_rq rfl)
  | false =>
    -- only the dequeue of an HVF task can fail
    have hhvf : (s.task p).schedClass = .hvf := by
      rcases dequeueTask_cases h₁ with ⟨hcls, -⟩ | ⟨-, hr⟩
      · exact hcls
      · injection hr with hr _
        cases hr
    refine h.change hlive hpid hothers hbits.1 ?_
    have hw : (s₁.task p).fairWeight = (s.task p).fairWeight := by
      rw [TaskStruct.fairWeight, TaskStruct.fairWeight, hbits.2.1, hbits.2.2]
    rw [hhvf] at hmove
    rw [if_neg Bool.false_ne_true, hw, Int.sub_self, hcpu]
    exact hmove

/-- The state in which the pick is made. -/
theorem leavePrev {mode : SchedMode} {sig : Signals} (h : FairCounted s) (hb : Base s)
    (hrun : s.links.RunningQueued) (hp : leavePrev E c mode sig s = .ok s') : FairCounted s' := by
  rcases leavePrev_cases hp with ⟨htry, ⟨-, hs⟩ | ⟨-, hblock⟩⟩ | ⟨-, hs⟩
  · rw [hs]
    exact h.setTask rfl rfl rfl
  · -- only a real task is not `TASK_RUNNING`
    have hstate : (s.task (s.rq c).curr).state ≠ taskRunning := by
      unfold triesToBlock at htry
      simp only [Bool.and_eq_true, bne_iff_ne, ne_eq] at htry
      exact htry.2
    obtain ⟨hlive, hcpu⟩ := hb.sound.curr_awake hstate
    exact h.blockTask ((isLive_links s _).symm.trans hlive) (hrun c hlive) hcpu hblock
  · rw [hs]
    exact h

/-- The switch itself moves no count. -/
theorem switch {prev next : TaskId} {s₂ : Sys} (h : FairCounted s₁)
    (hset : putPrevSetNextTask E c prev next s₁ = .ok s₂)
    (hs : s' = switchTo c prev next s₂) : FairCounted s' := by
  have hl : s'.links = (s₁.links.putSetNext c prev next).switchTo c prev next := by
    rw [hs, links_switchTo, links_putPrevSetNextTask hset]
  have hframe : (s₁.links.putSetNext c prev next).nextPid = s₁.links.nextPid ∧
      ∀ q, ((s₁.links.putSetNext c prev next).task q).onRq = (s₁.links.task q).onRq ∧
        ((s₁.links.putSetNext c prev next).task q).cpu = (s₁.links.task q).cpu ∧
        ((s₁.links.putSetNext c prev next).task q).schedClass = (s₁.links.task q).schedClass := by
    unfold Links.putSetNext
    split
    next => exact ⟨rfl, fun _ => ⟨rfl, rfl, rfl⟩⟩
    next =>
      have hn := Links.setNext_frame c next (s₁.links.put c prev)
      have hp := Links.put_frame c prev s₁.links
      exact ⟨hn.nextPid.trans hp.nextPid, fun q => ⟨(hn.onRq q).trans (hp.onRq q),
        (hn.cpu q).trans (hp.cpu q), (hn.schedClass q).trans (hp.schedClass q)⟩⟩
  refine h.same ?_ ?_ ?_
  · rw [hs]
    exact cfsFrame.comp (cfsFrame.putPrevSetNextTask hset) (SameCfs.switchTo c prev next s₂)
  · show s'.links.nextPid = s₁.links.nextPid
    rw [hl, Links.switchTo_nextPid, hframe.1]
  · intro q
    rw [hl, Links.switchTo_onRq, Links.switchTo_cpu, Links.switchTo_schedClass]
    exact hframe.2 q

/-- A task that comes onto the runqueue of `dest`. -/
theorem join {dest : Cpu} (h : FairCounted s) (hlive : s.isLive p = true)
    (hoff : (s.task p).onRq ≠ .queued) (hpid : s'.nextPid = s.nextPid)
    (htask : ∀ q, q ≠ p → s'.links.task q = s.links.task q)
    (hon : (s'.task p).onRq = .queued) (hcpu : (s'.task p).cpu = dest)
    (hc : CfsMoves dest (s'.task p).schedClass.fairUnit s s') : FairCounted s' := by
  intro c
  have hcount := fairRunnable_change ((isLive_links s p).trans hlive) hpid htask c
  have hbefore : (s.task p).fairWeight = 0 := if_neg hoff
  have hafter : (s'.task p).fairWeight = (s'.task p).schedClass.fairUnit := if_pos hon
  rw [indicator_fairOn, indicator_fairOn, hcpu, hbefore, hafter, ite_self] at hcount
  have hmove := hc c
  have hold := h c
  omega

theorem activate {dest thisCpu : Cpu} {v flags : Mask} {s₁ : Sys} (h : FairCounted s)
    (hlive : s.isLive p = true) (hoff : (s.task p).onRq ≠ .queued)
    (ha : activateTask E dest p flags (setTaskCpu p dest (setTaskState p v s)) = .ok s₁)
    (hs : (v = taskRunning ∧ s' = wakeupPreempt thisCpu dest p s₁) ∨
      s' = setTaskState p taskRunning (wakeupPreempt thisCpu dest p s₁)) : FairCounted s' := by
  have hl := activate_links ha hs
  have hself : s'.links.task p = _ := (congrArg (fun l => l.task p) hl).trans Links.wake_self
  have hcls : (s'.task p).schedClass = (s.task p).schedClass :=
    congrArg TaskLink.schedClass hself
  refine h.join hlive hoff ?_ ?_ (congrArg TaskLink.onRq hself) (congrArg TaskLink.cpu hself) ?_
  · show s'.links.nextPid = _
    rw [hl, Links.wake_nextPid]
    rfl
  · intro q hq
    rw [hl, Links.wake_task_ne hq]
  · have hmove := CfsMoves.activateTask ha
    have hplaced : ((setTaskCpu p dest (setTaskState p v s)).task p).schedClass
        = (s.task p).schedClass := by
      rw [setTaskCpu, setTask_self, setTaskState, setTask_self]
    rw [hplaced] at hmove
    rw [hcls]
    have hlast : SameCfs s₁ s' := by
      rcases hs with ⟨-, hs⟩ | hs
      · rw [hs]
        exact cfsFrame.wakeupPreempt thisCpu dest p s₁
      · rw [hs]
        exact cfsFrame.comp (cfsFrame.wakeupPreempt thisCpu dest p s₁) (cfsFrame.of_rq rfl)
    exact .after_same (cfsFrame.of_rq rfl) (hmove.then_same hlast)

/-- A change of class: out under the old class, in under the new one. -/
theorem classChange {cls : SchedClass} {init : Bool} (h : FairCounted s) (hlive : s.isLive p = true)
    (hc : ClassChange E p cls init s s') : FairCounted s' := by
  have hl := hc.links
  have hself : s'.links.task p = _ := (congrArg (fun l => l.task p) hl).trans Links.change_self
  have hcls : (s'.task p).schedClass = cls := congrArg TaskLink.schedClass hself
  have hq : (s'.task p).onRq = (s.task p).onRq := congrArg TaskLink.onRq hself
  refine h.change hlive ?_ ?_ (congrArg TaskLink.cpu hself) ?_
  · show s'.links.nextPid = _
    rw [hl, Links.change_nextPid]
    rfl
  · intro q hqp
    rw [hl, Links.change_task_ne hqp]
  · have hweight : (s'.task p).fairWeight - (s.task p).fairWeight
        = if (s.task p).isQueued then cls.fairUnit - (s.task p).schedClass.fairUnit else 0 := by
      unfold TaskStruct.fairWeight
      rw [hq, hcls]
      by_cases hqueued : (s.task p).onRq = .queued
      · have hb : (s.task p).isQueued = true := (isQueued_iff _).mpr hqueued
        rw [if_pos hqueued, if_pos hqueued, if_pos hb]
      · have hb : ¬ (s.task p).isQueued = true := fun hb => hqueued ((isQueued_iff _).mp hb)
        rw [if_neg hqueued, if_neg hqueued, if_neg hb]
        rfl
    rw [hweight]
    exact .classChange hc

/-! ### The entry points -/

theorem schedule {mode : SchedMode} {sig : Signals} {picks : Picks} (hb : Base s)
    (hrun : s.links.RunningQueued) (h : FairCounted s)
    (hx : schedule E c mode sig picks s = .ok s') : FairCounted s' := by
  rcases schedule_cases hx with ⟨-, hs⟩ | ⟨-, s₁, next, s₂, h₁, -, hset, hs⟩
  · rw [hs]
    exact h.of_links (cfsFrame.setRq rfl) (links_setRq_same rfl)
  · exact (h.leavePrev hb hrun h₁).switch hset hs

theorem doTaskDead {picks : Picks} (hb : Base s) (hrun : s.links.RunningQueued)
    (hlive : s.isLive (s.rq c).curr = true) (h : FairCounted s)
    (hx : doTaskDead E c picks s = .ok s') : FairCounted s' := by
  have hrun' : (setTaskState (s.rq c).curr taskDead s).links.RunningQueued := by
    rw [links_setTaskState]
    exact hrun.setState taskDead
  have hdead : FairCounted (setTaskState (s.rq c).curr taskDead s) := h.setTask rfl rfl rfl
  unfold HvfSched.doTaskDead at hx
  exact hdead.schedule (hb.setTaskState hlive taskDead) hrun' hx

theorem finishTaskSwitch (h : FairCounted s) (hx : finishTaskSwitch E c p s = .ok s') :
    FairCounted s' := by
  refine h.same (cfsFrame.finishTaskSwitch hx) ?_ ?_
  · show s'.links.nextPid = _
    rw [links_finishTaskSwitch hx, Links.bury_nextPid]
    rfl
  · intro q
    rw [links_finishTaskSwitch hx]
    have hrest := Links.bury_rest (l := s.links) (c := c) (p := p) q
    have hq := congrArg TaskLink.onRq hrest
    have hcpu := congrArg TaskLink.cpu hrest
    have hcls := congrArg TaskLink.schedClass hrest
    exact ⟨hq, hcpu, hcls⟩

theorem tryToWakeUp {thisCpu dest : Cpu} {mask : Mask} (hlive : s.isLive p = true)
    (h : FairCounted s) (hx : tryToWakeUp E thisCpu p mask dest s = .ok s') : FairCounted s' := by
  rcases tryToWakeUp_cases hx with hs | ⟨-, hs | hs | ⟨-, hoff, hact⟩⟩
  · exact hs ▸ h
  · rw [hs]
    exact h.setTask rfl rfl rfl
  · obtain ⟨s₁, heq, hs₁⟩ := ttwuRunnable_eq thisCpu p s
    have h₁ : FairCounted s₁ := by
      rcases hs₁ with hs₁ | hs₁
      · exact hs₁ ▸ h
      · rw [hs₁]
        exact h.of_links (cfsFrame.wakeupPreempt thisCpu _ p s) (links_wakeupPreempt ..)
    rw [hs, heq]
    exact h₁.setTask rfl rfl rfl
  · unfold ttwuDoActivate at hact
    obtain ⟨s₁, h₁, h₂⟩ := bind_ok.mp hact
    injection h₂ with h₂
    exact h.activate hlive hoff h₁ (Or.inr h₂.symm)

theorem wakeUpNewTask {thisCpu dest : Cpu} (hlive : s.isLive p = true)
    (hoff : (s.task p).onRq = .off) (h : FairCounted s)
    (hx : wakeUpNewTask E thisCpu p dest s = .ok s') : FairCounted s' := by
  unfold HvfSched.wakeUpNewTask at hx
  obtain ⟨s₁, h₁, h₂⟩ := bind_ok.mp hx
  injection h₂ with h₂
  refine h.activate hlive ?_ h₁ (Or.inl ⟨rfl, h₂.symm⟩)
  rw [hoff]
  decide

theorem schedSetscheduler {ck : Checks} {attr : SchedAttr} {user pi : Bool} {r : Int × Sys}
    (hlive : s.isLive p = true) (h : FairCounted s)
    (hx : schedSetscheduler E ck p attr user pi s = .ok r) : FairCounted r.2 := by
  rcases schedSetscheduler_cases hx with ⟨-, h'⟩ | ⟨-, -, -, h'⟩ | ⟨policy, s₁, -, -, h', hr'⟩
  · rw [h']
    exact h
  · rw [h']
    exact h.setTask rfl rfl rfl
  · rw [hr']
    exact h.classChange hlive (setschedulerChange_change h')

theorem rtMutexSetprio {piTask : Option TaskId} (hlive : s.isLive p = true) (h : FairCounted s)
    (hx : rtMutexSetprio E p piTask s = .ok s') : FairCounted s' := by
  rcases rtMutexSetprio_cases hx with ⟨-, t, hs, hbody, hcls⟩ | ⟨cls, s₃, -, hst, hend⟩
  · rw [hs]
    have hq := congrArg TaskStruct.onRq hbody
    have hcpu := congrArg TaskStruct.cpu hbody
    exact h.setTask hq hcpu hcls
  · exact h.classChange hlive (hst.changed hend)

end FairCounted

/-! ## One step -/

theorem step_fairCounted (hb : Base s) (hc : Counted s.links) (h : FairCounted s)
    (hstep : step E s a = some s') : FairCounted s' := by
  obtain ⟨hen, hx⟩ := step_ok hstep
  cases a with
  | setState c v =>
    injection hx with hx
    rw [← hx]
    exact h.setTask rfl rfl rfl
  | schedule c mode sig picks => exact h.schedule hb hc.running hx
  | doTaskDead c picks =>
    simp only [enabled, Bool.and_eq_true] at hen
    exact h.doTaskDead hb hc.running hen.1.1 hx
  | finishTaskSwitch c =>
    unfold exec at hx
    dsimp only at hx
    split at hx
    next =>
      injection hx with hx
      exact hx ▸ h
    next p hdead => exact h.finishTaskSwitch hx
  | tick c =>
    injection hx with hx
    rw [← hx]
    exact h.of_links (cfsFrame.schedTick E c s) (links_schedTick ..)
  | wake thisCpu p mask dest =>
    simp only [enabled, Bool.and_eq_true] at hen
    exact h.tryToWakeUp hen.1.1 hx
  | fork c =>
    injection hx with hx
    rw [← hx]
    unfold copyProcess
    split
    next => exact h
    next t ht =>
      exact h.fork (cfsFrame.of_rq rfl) (links_addTask ..) (schedFork_forked c ht).onRq
  | wakeNew thisCpu p dest =>
    simp only [enabled, Bool.and_eq_true, beq_iff_eq] at hen
    exact h.wakeUpNewTask hen.1.1.1 hen.1.2 hx
  | setscheduler ck p attr user pi =>
    simp only [enabled, Bool.and_eq_true] at hen
    obtain ⟨r, hr, hs⟩ := map_ok.mp hx
    rw [← hs]
    exact h.schedSetscheduler hen.1.1 hr
  | setprio p piTask => exact h.rtMutexSetprio hen hx
  | moveTask p => exact h.classChange hen (schedMoveTask_change hx)
  | setParams c d1 d2 ct =>
    injection hx with hx
    have htick : FairCounted s.tickClock := h.of_links (cfsFrame.of_rq rfl) rfl
    rw [← hx]
    unfold setSchedulingParams
    split
    next => exact htick.setTask rfl rfl rfl
    next => exact htick.setTask rfl rfl rfl

theorem boot_fairCounted : FairCounted boot := by
  intro c
  have hnone : boot.links.fairRunnable c = 0 := by
    refine Nat.count_iff_forall_not.mpr ?_
    intro n _ hf
    cases hf.1.1
  rw [hnone]
  rfl

/-- Both counters of a CPU tell the truth. -/
structure Tallied (s : Sys) : Prop where
  base : Base s
  counted : Counted s.links
  fair : FairCounted s

theorem reached_tallied {ok : Sys → Act → Prop} (hok : ∀ s a, ok s a → changesClean s a)
    (h : Reached E ok s) : Tallied s := by
  refine Reach.invariant Tallied ?_ ?_ h
  · intro s hs
    rw [hs]
    exact ⟨boot_base, boot_counted, boot_fairCounted⟩
  · intro s a s' ht hk hstep
    have hclean := hok s a hk
    exact ⟨step_base ht.base hclean.1 hstep, step_counted ht.base ht.counted hclean hstep,
      step_fairCounted ht.base ht.counted ht.fair hstep⟩

/-! ## A reschedule -/

/-- A `__schedule` that goes as far as the switch, with what is guaranteed of
the answers of the other classes. -/
inductive Resched (E : Env) (s : Sys) (c : Cpu) (how : Links.Leave) (s' : Sys) : Prop
  | mk (s₀ s₁ s₂ : Sys) (next : TaskId) (mode : SchedMode) (sig : Signals) (picks : Picks) (b : Bool)
      (hstart : (s₀ = s ∧ (s.task (s.rq c).curr).state ≠ taskDead) ∨
        (how = .block ∧ s.isLive (s.rq c).curr = true ∧
          s₀ = setTaskState (s.rq c).curr taskDead s))
      (hhow : how = leaveOf mode sig (s₀.task (s.rq c).curr))
      (hprev : leavePrev E c mode sig s₀ = .ok s₁) (hok : s.picksOk c b picks = true)
      (hpick : pickNext s₁ c (s.rq c).curr picks = .ok next) (hpicked : Picked s s₁ c how next)
      (hset : putPrevSetNextTask E c (s.rq c).curr next s₁ = .ok s₂)
      (hs : s' = switchTo c (s.rq c).curr next s₂)

theorem step_resched {how : Links.Leave} (hstep : step E s a = some s')
    (hleave : leaves s a = some (c, how)) : Resched E s c how s' := by
  obtain ⟨hen, hx⟩ := step_ok hstep
  cases a with
  | schedule c' mode sig picks =>
    rcases schedule_cases hx with ⟨hearly, -⟩ | ⟨hbusy, s₁, next, s₂, h₁, hpick, hset, hs⟩
    · rw [leaves, if_pos hearly] at hleave
      cases hleave
    · rw [leaves, if_neg hbusy] at hleave
      injection hleave with hleave
      injection hleave with hc hhow
      subst hc
      simp only [enabled, Bool.and_eq_true, bne_iff_ne, ne_eq] at hen
      obtain ⟨⟨⟨-, hstate⟩, -⟩, hok⟩ := hen
      have hpicked := pickNext_picked (blocks_eq s c' mode sig ▸ hok) hpick
      rw [hhow] at hpicked
      exact ⟨s, s₁, s₂, next, mode, sig, picks, _, Or.inl ⟨rfl, hstate⟩, hhow.symm, h₁, hok, hpick,
        hpicked, hset, hs⟩
  | doTaskDead c' picks =>
    injection hleave with hleave
    injection hleave with hc hhow
    subst hc hhow
    simp only [enabled, Bool.and_eq_true] at hen
    obtain ⟨⟨hlive, -⟩, hok⟩ := hen
    have hx : doTaskDead E c' picks s = .ok s' := hx
    unfold doTaskDead at hx
    rcases schedule_cases hx with ⟨⟨hmode, -⟩, -⟩ | ⟨-, s₁, next, s₂, h₁, hpick, hset, hs⟩
    · cases hmode
    · have hdead : ((setTaskState (s.rq c').curr taskDead s).task (s.rq c').curr).state
          = taskDead := congrArg TaskStruct.state (setTask_self ..)
      exact ⟨_, s₁, s₂, next, .smNone, ⟨false, false⟩, picks, _, Or.inr ⟨rfl, hlive, rfl⟩,
        (leaveOf_dead hdead).symm, h₁, hok, hpick, pickNext_picked hok hpick, hset, hs⟩
  | _ => cases hleave

/-- `do_task_dead` writes the state of the task, and no counter. -/
theorem Tallied.start {s₀ : Sys} {how : Links.Leave} (h : Tallied s)
    (hstart : (s₀ = s ∧ (s.task (s.rq c).curr).state ≠ taskDead) ∨
      (how = .block ∧ s.isLive (s.rq c).curr = true ∧
        s₀ = setTaskState (s.rq c).curr taskDead s)) : Tallied s₀ := by
  refine ⟨h.base.start hstart, ?_, ?_⟩
  · rcases hstart with ⟨hs, -⟩ | ⟨-, -, hs⟩
    · rw [hs]
      exact h.counted
    · rw [hs, links_setTaskState]
      exact ⟨h.counted.members.setState taskDead, h.counted.running.setState taskDead⟩
  · rcases hstart with ⟨hs, -⟩ | ⟨-, -, hs⟩
    · rw [hs]
      exact h.fair
    · rw [hs]
      exact h.fair.setTask rfl rfl rfl

/-- The state in which the pick is made has true counters too. -/
theorem Tallied.leavePrev {mode : SchedMode} {sig : Signals} (h : Tallied s)
    (hprev : leavePrev E c mode sig s = .ok s₁) : Base s₁ ∧ s₁.links.Members ∧ FairCounted s₁ := by
  have hm := midSchedule h.base rfl hprev
  refine ⟨hm.base, ?_, h.fair.leavePrev h.base h.counted.running hprev⟩
  rw [hm.links]
  exact h.counted.members.leave h.base.sound h.counted.running leaveOf_ne_stay

/-! ## The test of the fast path -/

theorem AtPick.tallied (h : AtPick E s c s₁) (ht : Tallied s) :
    Base s₁ ∧ s₁.links.Members ∧ FairCounted s₁ := by
  cases h with
  | schedule mode sig hp => exact ht.leavePrev hp
  | doTaskDead hlive hp =>
    have ht₀ : Tallied (setTaskState (s.rq c).curr taskDead s) :=
      ht.start (Or.inr ⟨(rfl : Links.Leave.block = .block), hlive, rfl⟩)
    exact ht₀.leavePrev hp

/-- Where `nr_running` counts the runqueue and `cfs.h_nr_queued` its fair
tasks, equal counters mean that every task on it is fair. -/
theorem fair_of_counters (hm : s.links.Members) (hf : FairCounted s)
    (heq : (s.rq c).nrRunning = (s.rq c).cfsNrQueued) (hlive : s.isLive p = true)
    (hq : (s.task p).onRq = .queued) (hcpu : (s.task p).cpu = c) :
    (s.task p).schedClass = .fair := by
  have hall : (s.rq c).nrRunning = s.links.runnable c := hm.count c
  have hfair : (s.rq c).cfsNrQueued = s.links.fairRunnable c := hf c
  have hsplit := count_split (P := fun n => s.links.OnRunqueue c (.task n))
    (Q := fun n => (s.links.task (.task n)).schedClass = .fair) s.nextPid
  have hrest : Nat.count (fun n => s.links.OnRunqueue c (.task n) ∧
      ¬ (s.links.task (.task n)).schedClass = .fair) s.nextPid = 0 := by
    have h₁ : s.links.runnable c
        = Nat.count (fun n => s.links.OnRunqueue c (.task n)) s.nextPid := rfl
    have h₂ : s.links.fairRunnable c = Nat.count (fun n => s.links.OnRunqueue c (.task n) ∧
      (s.links.task (.task n)).schedClass = .fair) s.nextPid := rfl
    omega
  cases p with
  | idle d => cases hlive
  | task n =>
    by_contra hne
    have hlt : n < s.nextPid := of_decide_eq_true hlive
    exact Nat.count_iff_forall_not.mp hrest n hlt ⟨⟨hq, hcpu⟩, hne⟩

/-- Then the HVF tree is empty. -/
theorem queue_nil_of_counters (hb : Base s) (hm : s.links.Members) (hf : FairCounted s)
    (heq : (s.rq c).nrRunning = (s.rq c).cfsNrQueued) : s.queue c = [] := by
  refine List.eq_nil_iff_forall_not_mem.mpr ?_
  intro p hp
  obtain ⟨hflag, hcpu⟩ := (hb.trees.mem c p).mp hp
  obtain ⟨hcls, hq⟩ := hm.linked p hflag
  have hlive := (isLive_links s p).symm.trans (hb.sound.live_of_linked (p := p) hflag)
  have hfair := fair_of_counters hm hf heq hlive hq hcpu
  cases hcls.symm.trans hfair

/-- The fair class gives the same answer on the fast path and in the walk. -/
def Picks.Agree (s : Sys) (picks : Picks) : Prop :=
  match picks.fast with
  | .retry => True
  | .none => ∀ q ∈ picks.above, (s.task q).schedClass ≠ .fair
  | .task p => ∃ q ∈ picks.above, (s.task q).schedClass = .fair → q = p

/-- What a class above HVF answers is on the runqueue. -/
theorem picksOk_above {picks : Picks} {b : Bool} (hok : s.picksOk c b picks = true)
    (hp : picks.above = some p) :
    s.isLive p = true ∧ (s.task p).onRq = .queued ∧ (s.task p).cpu = c := by
  unfold Sys.picksOk at hok
  rw [Bool.and_eq_true, hp] at hok
  have hpick := hok.2
  dsimp only at hpick
  unfold Sys.pickable at hpick
  simp only [Bool.and_eq_true, beq_iff_eq] at hpick
  exact ⟨hpick.1.1.1.1, (isQueued_iff _).mp hpick.1.1.2, hpick.1.2⟩

/-- In a run with flags kept and clean changes of class: whatever the classes
above HVF answer at a pick, as long as the two ways of asking the fair class give
the same answer, the shortcut of `__pick_next_task` for a CPU on which all
runnable tasks are fair picks the task the walk through the classes would
pick. -/
theorem fast_path_agrees_with_walk (E : Env) (s : Sys) (h : Reached E changesClean s) (c : Cpu)
    (s₁ : Sys) (hpick : AtPick E s c s₁) (picks : Picks)
    (hok : s₁.picksOk c false picks = true) (hagree : picks.Agree s₁) (prev : TaskId) :
    pickNext s₁ c prev picks = pickFromClasses s₁ c picks := by
  obtain ⟨hb, hm, hf⟩ := hpick.tallied (reached_tallied (fun _ _ hk => hk) h)
  unfold pickNext
  split
  next hpath =>
    have hfair : ∀ q, picks.above = some q → (s₁.task q).schedClass = .fair := by
      intro q hq
      obtain ⟨hlive, hqueued, hcpu⟩ := picksOk_above hok hq
      exact fair_of_counters hm hf hpath.2 hlive hqueued hcpu
    unfold Picks.Agree at hagree
    unfold pickFromClasses
    cases hfast : picks.fast with
    | retry => rfl
    | none =>
      rw [hfast] at hagree
      cases habove : picks.above with
      | some q => exact absurd (hfair q habove) (hagree q habove)
      | none =>
        -- nobody above has a task, and the tree is empty
        have hempty := queue_nil_of_counters hb hm hf hpath.2
        exact (if_pos ((OrdTree.isEmpty_iff _).mpr hempty)).symm
    | task p =>
      rw [hfast] at hagree
      obtain ⟨q, hq, hsame⟩ := hagree
      have hq : picks.above = some q := hq
      rw [hq, hsame (hfair q hq)]
  next => rfl

/-- A task of the class sleeps, and the fair task that was woken is all there
is to run. -/
theorem fast_path_agrees_with_walk_fair :
    ∃ s, Reached sampleEnv changesClean s ∧ (s.rq 0).nrRunning = (s.rq 0).cfsNrQueued ∧
      pickNext s 0 (s.rq 0).curr (pickFair (.task 0)) = pickFromClasses s 0 (pickFair (.task 0)) := by
  obtain ⟨s, hs, hf⟩ := Reached.of_check (b := (true, true, SchedClass.fair)) sampleEnv changesClean
    (fun s => (decide ((s.rq 0).nrRunning = (s.rq 0).cfsNrQueued),
      s.picksOk 0 false (pickFair (.task 0)), (s.task (.task 0)).schedClass))
    (dispatchSecond ++ sleepOn 0 ++ [.wake 0 (.task 0) taskNormal 0]) (by decide +kernel)
  injection hf with heq hf
  injection hf with hok hcls
  refine ⟨s, hs, of_decide_eq_true heq, ?_⟩
  exact fast_path_agrees_with_walk sampleEnv s hs 0 s (atPick_preempt sampleEnv s 0) _ hok
    ⟨.task 0, rfl, fun _ => rfl⟩ _

/-! ## CPUs that go idle -/

theorem eq_singleton_of_mem_iff {l : List TaskId} (hn : l.Nodup) (h : ∀ q, q ∈ l ↔ q = p) :
    l = [p] := by
  have hperm : l.Perm [p] := (List.perm_ext_iff_of_nodup hn (List.nodup_singleton p)).mpr
    fun q => (h q).trans (by simp)
  exact List.perm_singleton.mp hperm

/-- The idle task is picked over an empty tree only. -/
theorem queue_nil_of_idle_pick {picks : Picks} {b : Bool} {prev : TaskId} (hb : Base s₁)
    (hm : s₁.links.Members) (hf : FairCounted s₁) (hok : s.picksOk c b picks = true)
    (h : pickNext s₁ c prev picks = .ok (.idle c)) : s₁.queue c = [] := by
  have hwalk : pickFromClasses s₁ c picks = .ok (.idle c) → s₁.queue c = [] := by
    intro h
    unfold pickFromClasses at h
    cases habove : picks.above with
    | some q =>
      rw [habove] at h
      injection h with h
      have hlive := (picksOk_above hok habove).1
      rw [h] at hlive
      cases hlive
    | none =>
      rw [habove] at h
      dsimp only at h
      unfold pickTaskHvf at h
      split at h
      next hempty => exact (OrdTree.isEmpty_iff _).mp hempty
      next =>
        -- the idle task is in no tree
        cases hmax : (s₁.rq c).hvf.maxValueEntity with
        | none =>
          rw [hmax] at h
          cases h
        | some m =>
          rw [hmax] at h
          injection h with h
          have hmem := hb.trees.max c m hmax
          have hflag := ((hb.trees.mem c m).mp hmem).1
          rw [h] at hflag
          have hunlinked : (s₁.task (.idle c)).hvf.onRq = false := (hb.sound.idle c).2.2
          exact absurd (hunlinked.symm.trans hflag) Bool.false_ne_true
  unfold pickNext at h
  split at h
  next hpath =>
    cases hfast : picks.fast with
    | retry =>
      rw [hfast] at h
      exact hwalk h
    | none => exact queue_nil_of_counters hb hm hf hpath.2
    | task p =>
      rw [hfast] at h
      injection h with h
      unfold Sys.picksOk at hok
      rw [hfast, h] at hok
      simp [Sys.pickable, Sys.isLive] at hok
  next => exact hwalk h

/-- What is in the tree of a CPU that has just gone idle. -/
theorem schedule_idle_queue {s₀ s₂ : Sys} {how : Links.Leave} {mode : SchedMode} {sig : Signals}
    {picks : Picks} {b : Bool} {next : TaskId} (ht : Tallied s₀)
    (hhow : how = leaveOf mode sig (s₀.task (s₀.rq c).curr)) (hok : s.picksOk c b picks = true)
    (hprev : leavePrev E c mode sig s₀ = .ok s₁)
    (hpick : pickNext s₁ c (s₀.rq c).curr picks = .ok next)
    (hset : putPrevSetNextTask E c (s₀.rq c).curr next s₁ = .ok s₂)
    (hs : s' = switchTo c (s₀.rq c).curr next s₂) (hidle : (s'.rq c).curr = .idle c) :
    s'.queue c = if (s₀.task (s₀.rq c).curr).schedClass = .hvf ∧
        how.running (s₀.task (s₀.rq c).curr).isRunning = true then [(s₀.rq c).curr] else [] := by
  have hnext : next = .idle c := by
    have hl := reschedule_links rfl hhow hprev hset hs
    have hc := congrArg (fun l => (l.rq c).curr) hl
    exact (hc.trans Links.schedule_curr_self).symm.trans hidle
  subst hnext
  have hmid := midSchedule ht.base rfl hprev
  obtain ⟨-, hm₁, hf₁⟩ := ht.leavePrev hprev
  have hempty := queue_nil_of_idle_pick hmid.base hm₁ hf₁ hok hpick
  have hcls₁ : (s₁.task (s₀.rq c).curr).schedClass = (s₀.task (s₀.rq c).curr).schedClass :=
    schedClass_of_data ((SameData.leavePrev hprev).data _)
  rw [hs, switchTo_queue, ← hcls₁, ← leavePrev_isRunning hhow hprev]
  rcases putPrevSetNextTask_cases hset with ⟨hsame, h₂⟩ | ⟨hne, hset⟩
  · -- the idle task was running, and goes on
    have hcls : (s₁.task (.idle c)).schedClass = .idle := (hmid.base.sound.idle c).1
    rw [h₂, ← hsame, hcls, if_neg (fun h => by cases h.1)]
    exact hempty
  · have hidlecls : ((putPrevTask E c (s₀.rq c).curr s₁).task (.idle c)).schedClass ≠ .hvf := by
      have hcls : (s₁.task (.idle c)).schedClass = .idle := (hmid.base.sound.idle c).1
      rw [putPrevTask_task_ne hne, hcls]
      decide
    rcases setNextTask_cases hset with ⟨hcls, -⟩ | ⟨-, h₂⟩
    · exact absurd hcls hidlecls
    · rw [h₂]
      by_cases hgo : (s₁.task (s₀.rq c).curr).schedClass = .hvf ∧
          (s₁.task (s₀.rq c).curr).isRunning = true
      · rw [if_pos hgo]
        have hcurr₁ : (s₁.rq c).curr = (s₀.rq c).curr := by
          have hl := congrArg (fun l => (l.rq c).curr) hmid.links
          exact hl.trans (Links.leave_curr ..)
        have hcpu := (hmid.base.running_hvf hcurr₁ hgo.1).2
        have hmem := (putPrevTask_requeue (E := E) (c := c) hgo.1 hgo.2
          fun hflag => (hmid.base.trees.mem c _).mpr ⟨hflag, hcpu⟩).1
        rw [hempty] at hmem
        have hnodup := (hmid.base.trees.putPrevTask (E := E) fun _ => hcpu).nodup c
        exact eq_singleton_of_mem_iff hnodup fun q => (hmem q).trans (by simp)
      · rw [if_neg hgo, Sys.queue, (putPrevTask_quiet (E := E) (c := c) hgo).1]
        exact hempty

/-- In a run with flags kept and clean changes of class: when `__schedule` leaves a
CPU to its idle task, the tree of that CPU is empty, except for the task that ran
before if that was of the class and still `TASK_RUNNING`: the put comes after the
pick, and links it. -/
theorem idle_cpu_leaves_only_the_put_task (E : Env) (s : Sys) (h : Reached E changesClean s)
    (a : Act) (s' : Sys) (hstep : step E s a = some s') (c : Cpu) (how : Links.Leave)
    (hleave : leaves s a = some (c, how)) (hidle : (s'.rq c).curr = .idle c) :
    s'.queue c = if (s.task (s.rq c).curr).schedClass = .hvf ∧
        how.running (s.task (s.rq c).curr).isRunning = true then [(s.rq c).curr] else [] := by
  have ht := reached_tallied (fun _ _ hk => hk) h
  obtain ⟨s₀, s₁, s₂, next, mode, sig, picks, b, hstart, hhow, hprev, hok, hpick, -, hset, hs⟩ :=
    step_resched hstep hleave
  obtain ⟨⟨hrq, -⟩, -⟩ := start_same hstart
  have hcurr : (s₀.rq c).curr = (s.rq c).curr := by rw [hrq]
  rw [← hcurr] at hhow hpick hset hs
  have hq := schedule_idle_queue (ht.start hstart) hhow hok hprev hpick hset hs hidle
  rcases hstart with ⟨h₀, -⟩ | ⟨hblock, -, -⟩
  · rw [h₀] at hq
    exact hq
  · -- a task that exits is not put back
    rw [hblock, if_neg (fun h => by cases h.2)] at hq
    rw [hblock, if_neg (fun h => by cases h.2)]
    exact hq

/-- A task of the class that runs alone is preempted: the CPU goes idle, and the
task waits in its tree. -/
theorem idle_cpu_leaves_only_the_put_task_alone :
    ∃ s s', Reached sampleEnv changesClean s ∧
      step sampleEnv s (.schedule 0 .smPreempt ⟨false, false⟩ pickNone) = some s' ∧
      (s'.rq 0).curr = .idle 0 ∧ s'.queue 0 = [.task 1] := by
  obtain ⟨s, hs, hf⟩ := Reached.of_check
    (b := (TaskId.task 1, SchedClass.hvf, true, some (TaskId.idle 0))) sampleEnv changesClean
    (fun s => ((s.rq 0).curr, (s.task (s.rq 0).curr).schedClass, (s.task (s.rq 0).curr).isRunning,
      (step sampleEnv s (.schedule 0 .smPreempt ⟨false, false⟩ pickNone)).map fun s' =>
        (s'.rq 0).curr))
    dispatchSecond (by decide +kernel)
  simp only [Prod.mk.injEq] at hf
  obtain ⟨hcurr, hcls, hrun, hnext⟩ := hf
  obtain ⟨s', hstep, hidle⟩ := Option.map_eq_some_iff.mp hnext
  have hq := idle_cpu_leaves_only_the_put_task sampleEnv s hs _ s' hstep 0 .stay rfl hidle
  rw [if_pos ⟨hcls, hrun⟩, hcurr] at hq
  exact ⟨s, s', hs, hstep, hidle, hq⟩

end HvfSched
