import Mathlib.Algebra.Group.Action.Defs
import Mathlib.Algebra.GroupWithZero.Nat
import Mathlib.Algebra.Order.BigOperators.Group.List
import Mathlib.Algebra.Order.Group.Nat
import HvfSched.Runs.Calm

/-!
# How long a task waits

A task waits while others are ahead of it: those with a larger value, and those
with the same value that came before it. On a CPU that is left alone, and whose
tasks keep within their computation time, the wait ends. Each task that has run
a tenth of a second in all is put back with nothing when its slice is used up,
and the next time with ten (`lessShare`), so it is ahead of `w` at most twice
more. `due` counts these turns for each task in the tree and `owed` for the one
that runs; every `__schedule` of the CPU takes one off the sum (`turn_lt`), and
`w` is served after at most twice as many as there were tasks waiting.

Tasks that have overrun are different. Their value is used up by the first
update and lifted to ten by the penalty, every time. Two of them are enough to
keep everybody with a smaller value waiting for good
(`overrunning_tasks_starve_the_rest`).
-/

namespace HvfSched

open Lib Sys

variable {E : Env} {s s' s₀ : Sys} {a : Act} {c : Cpu} {p q w next : TaskId} {how : Links.Leave}
  {g g' : Stamps}

/-! ## The turns ahead -/

/-- `o` is served before `w`. -/
def Ahead (s : Sys) (g : Stamps) (w o : TaskId) : Prop :=
  s.key w < s.key o ∨ (s.key o = s.key w ∧ g.since o < g.since w)

instance (s : Sys) (g : Stamps) (w o : TaskId) : Decidable (Ahead s g w o) :=
  inferInstanceAs (Decidable (_ ∨ _))

/-- The turns a waiting task can take before `w`: it comes back with ten if it
has no value left. -/
def due (s : Sys) (g : Stamps) (w o : TaskId) : Nat :=
  if Ahead s g w o then if s.key o = 0 then 2 else 1 else 0

/-- The turn the running task can take once more. -/
def owed (s : Sys) (c : Cpu) (w : TaskId) : Nat :=
  if s.key (s.rq c).curr = 0 ∧ s.key w < 10 then 1 else 0

def turnsAhead (s : Sys) (g : Stamps) (c : Cpu) (w : TaskId) : Nat :=
  ((s.queue c).map (due s g w)).sum + owed s c w

theorem due_congr (hw : s'.key w = s.key w) (hq : s'.key q = s.key q)
    (hsw : g'.since w = g.since w) (hsq : g'.since q = g.since q) : due s' g' w q = due s g w q := by
  have hahead : Ahead s' g' w q ↔ Ahead s g w q := by
    unfold Ahead
    rw [hw, hq, hsw, hsq]
  simp only [due, hahead, hq]

theorem due_self (s : Sys) (g : Stamps) (w : TaskId) : due s g w w = 0 := by
  have hnot : ¬ Ahead s g w w := by
    unfold Ahead
    omega
  exact if_neg hnot

theorem due_le (s : Sys) (g : Stamps) (w o : TaskId) : due s g w o ≤ 2 := by
  unfold due
  split
  next => split <;> omega
  next => omega

/-- Everybody but `w` is due at most twice, and the running task once. -/
theorem turnsAhead_lt (hw : w ∈ s.queue c) : turnsAhead s g c w < 2 * (s.queue c).length := by
  have hsplit := List.sum_map_erase (due s g w) hw
  have hrest : (((s.queue c).erase w).map (due s g w)).sum ≤ 2 * ((s.queue c).erase w).length := by
    rw [Nat.mul_comm, ← smul_eq_mul, ← List.length_map (due s g w)]
    refine List.sum_le_card_nsmul _ 2 ?_
    intro n hn
    obtain ⟨o, -, rfl⟩ := List.mem_map.mp hn
    exact due_le s g w o
  have howed : owed s c w ≤ 1 := by
    unfold owed
    split <;> omega
  have hpos := List.length_pos_of_mem hw
  rw [List.length_erase_of_mem hw] at hrest
  rw [due_self] at hsplit
  rw [turnsAhead]
  omega

/-! ## One step -/

/-- Stamps on a CPU that is left alone. -/
theorem since_kept (ht : Trees s) (hu : undisturbed c s a) (hq : q ∈ s.queue c) :
    (noteSeats s a s' g).since q = g.since q := by
  obtain ⟨hflag, hcpu⟩ := (ht.mem c q).mp hq
  refine since_of_linked hflag ?_
  cases htarget : classTarget s a with
  | none => exact requeues_of_none htarget q
  | some x =>
    obtain ⟨p, cls⟩ := x
    have hne : (p == q) = false := by
      refine beq_eq_false_iff_ne.mpr fun e => hu.2.1 (p, cls) htarget ?_
      rw [e]
      exact hcpu
    rw [requeues_eq htarget, hne]
    rfl

theorem turnsAhead_kept (hn : (s.queue c).Nodup) (hn' : (s'.queue c).Nodup) (hw : w ∈ s.queue c)
    (hk : Kept c s s') (hsince : ∀ q ∈ s.queue c, g'.since q = g.since q) :
    turnsAhead s' g' c w = turnsAhead s g c w := by
  have hkey : ∀ q, (s.rq c).curr = q ∨ q ∈ s.queue c → s'.key q = s.key q :=
    fun q hq => congrArg Int64.toInt (hk.values q hq)
  have hperm : (s'.queue c).Perm (s.queue c) :=
    (List.perm_ext_iff_of_nodup hn' hn).mpr hk.mem
  have hsum : ((s'.queue c).map (due s' g' w)).sum = ((s.queue c).map (due s g w)).sum := by
    rw [(hperm.map _).sum_eq]
    refine congrArg List.sum (List.map_congr_left ?_)
    intro q hq
    exact due_congr (hkey w (Or.inr hw)) (hkey q (Or.inr hq)) (hsince w hw) (hsince q hq)
  have howed : owed s' c w = owed s c w := by
    unfold owed
    rw [hk.curr, hkey _ (Or.inl rfl), hkey w (Or.inr hw)]
  rw [turnsAhead, turnsAhead, hsum, howed]

/-- The slice of `p` is used up, `p` has run a tenth of a second in all, and not
more than its computation time. -/
def usesUp (E : Env) (s : Sys) (p : TaskId) : Prop :=
  (s.task p).hvf.sliceExpired = true ∧ 100 ≤ (s.chargedTime E p).toInt ∧
    (s.chargedTime E p).toInt ≤ (s.task p).computationTime.toInt

instance (E : Env) (s : Sys) (p : TaskId) : Decidable (usesUp E s p) :=
  inferInstanceAs (Decidable (_ ∧ _ ∧ _))

/-- One comes out of the tree, and the task that ran goes in if it can go on. -/
theorem Turn.perm (h : Turn E s s' c how next) (hn : (s.queue c).Nodup) (hn' : (s'.queue c).Nodup)
    (hcurr : (s.rq c).curr ∉ s.queue c) :
    (s'.queue c).Perm ((if GoesOn s c how then [(s.rq c).curr] else []) ++ (s.queue c).erase next) := by
  have hout : (s.rq c).curr ∉ (s.queue c).erase next := fun hm => hcurr (List.mem_of_mem_erase hm)
  by_cases hgo : GoesOn s c how
  · rw [if_pos hgo, List.singleton_append]
    refine (List.perm_ext_iff_of_nodup hn' (List.nodup_cons.mpr ⟨hout, hn.erase next⟩)).mpr ?_
    intro q
    rw [h.mem, List.mem_cons, hn.mem_erase_iff]
    constructor
    · rintro ⟨hq, hm | ⟨hp, -⟩⟩
      · exact Or.inr ⟨hq, hm⟩
      · exact Or.inl hp
    · rintro (hp | ⟨hq, hm⟩)
      · rw [hp]
        exact ⟨Ne.symm h.ne, Or.inr ⟨rfl, hgo⟩⟩
      · exact ⟨hq, Or.inl hm⟩
  · rw [if_neg hgo, List.nil_append]
    refine (List.perm_ext_iff_of_nodup hn' (hn.erase next)).mpr ?_
    intro q
    rw [h.mem, hn.mem_erase_iff]
    exact and_congr_right fun _ => or_iff_left fun hp => hgo hp.2

theorem Turn.top_mem (h : Turn E s s' c how next) : next ∈ s.queue c := by
  obtain ⟨front, hfront⟩ := h.top
  rw [hfront]
  exact List.mem_append_right _ (List.mem_singleton.mpr rfl)

/-- The top of the tree is ahead of everybody else there. -/
theorem Turn.ahead (h : Turn E s s' c how next) (hr : Ranked s.key g.since (s.queue c))
    (hw : w ∈ s.queue c) (hne : w ≠ next) : Ahead s g w next := by
  obtain ⟨front, hfront⟩ := h.top
  rw [hfront] at hr hw
  have hmem : w ∈ front := by
    rcases List.mem_append.mp hw with hm | hm
    · exact hm
    · exact absurd (List.mem_singleton.mp hm) hne
  have hpair := (List.pairwise_append.mp hr).2.2 w hmem next (List.mem_singleton.mpr rfl)
  exact hpair.imp_right fun h => ⟨h.1.symm, h.2⟩

/-- The task that comes back is due again only if it was owed a turn. -/
theorem due_put_le (h : Turn E s s' c how next) (hs : Scaled s) (hw : s'.key w = s.key w)
    (hgo : GoesOn s c how) (hends : usesUp E s (s.rq c).curr)
    (hnew : g'.since w < g'.since (s.rq c).curr) : due s' g' w (s.rq c).curr ≤ owed s c w := by
  obtain ⟨hexp, hused, hct⟩ := hends
  have hkey : s'.key (s.rq c).curr
      = lessShare (s.key (s.rq c).curr) (s.chargedTime E (s.rq c).curr).toInt := by
    have hreq := h.requeued hgo hexp
    rw [requeued, if_neg (by omega)] at hreq
    exact hreq
  have hpos : 0 ≤ s.key (s.rq c).curr := (hs _).1
  have hposw : 0 ≤ s.key w := (hs w).1
  by_cases hzero : s.key (s.rq c).curr = 0
  · rw [hzero, lessShare_zero] at hkey
    have hahead : Ahead s' g' w (s.rq c).curr ↔ s.key w < 10 := by
      unfold Ahead
      rw [hkey, hw]
      omega
    rw [due, owed, hkey]
    by_cases hlt : s.key w < 10
    · rw [if_pos (hahead.mpr hlt), if_neg (by omega), if_pos ⟨hzero, hlt⟩]
    · rw [if_neg (mt hahead.mp hlt)]
      exact Nat.zero_le _
  · have hnone := (lessShare_eq_zero_iff hpos _).mpr ⟨by omega, hused⟩
    rw [hnone] at hkey
    have hnot : ¬ Ahead s' g' w (s.rq c).curr := by
      unfold Ahead
      rw [hkey, hw]
      omega
    rw [due, if_neg hnot]
    exact Nat.zero_le _

/-- The task that takes the CPU has used one of its turns. -/
theorem owed_next_lt (h : Turn E s s' c how next) (hahead : Ahead s g w next) :
    owed s' c w < due s g w next := by
  have hkey : s'.key next = s.key next := congrArg Int64.toInt (h.values next h.ne)
  unfold owed due
  rw [if_pos hahead, h.curr, hkey]
  by_cases hzero : s.key next = 0
  · rw [if_pos hzero]
    split <;> omega
  · rw [if_neg hzero, if_neg (fun hz => hzero hz.1)]
    exact Nat.zero_lt_one

/-- A turn of somebody else brings `w` nearer. -/
theorem turn_lt (h : Turn E s s' c how next) (hs : Scaled s) (hr : Ranked s.key g.since (s.queue c))
    (hn : (s.queue c).Nodup) (hn' : (s'.queue c).Nodup) (hcurr : (s.rq c).curr ∉ s.queue c)
    (hw : w ∈ s.queue c) (hne : w ≠ next) (hends : GoesOn s c how → usesUp E s (s.rq c).curr)
    (hsince : ∀ q ∈ s.queue c, g'.since q = g.since q)
    (hnew : GoesOn s c how → g'.since w < g'.since (s.rq c).curr) :
    turnsAhead s' g' c w < turnsAhead s g c w := by
  have hout : ∀ q ∈ s.queue c, q ≠ (s.rq c).curr := fun q hq e => hcurr (e ▸ hq)
  have hkey : ∀ q ∈ s.queue c, s'.key q = s.key q :=
    fun q hq => congrArg Int64.toInt (h.values q (hout q hq))
  have hsum := ((h.perm hn hn' hcurr).map (due s' g' w)).sum_eq
  rw [List.map_append, List.sum_append] at hsum
  have hrest : (((s.queue c).erase next).map (due s' g' w)).sum
      = (((s.queue c).erase next).map (due s g w)).sum := by
    refine congrArg List.sum (List.map_congr_left ?_)
    intro q hq
    have hq := List.mem_of_mem_erase hq
    exact due_congr (hkey w hw) (hkey q hq) (hsince w hw) (hsince q hq)
  have hput : ((if GoesOn s c how then [(s.rq c).curr] else []).map (due s' g' w)).sum
      ≤ owed s c w := by
    split
    next hgo =>
      have hle := due_put_le h hs (hkey w hw) hgo (hends hgo) (hnew hgo)
      rw [List.map_singleton, List.sum_singleton]
      exact hle
    next => exact Nat.zero_le _
  have hsplit := List.sum_map_erase (due s g w) h.top_mem
  have htaken := owed_next_lt h (h.ahead hr hw hne)
  rw [turnsAhead, turnsAhead]
  omega

/-! ## Bounded waiting -/

/-- How often `c` has been rescheduled, and whether `w` has run there. -/
structure Watch where
  turns : Nat
  served : Bool

def watch (c : Cpu) (w : TaskId) (s : Sys) (a : Act) (s' : Sys) (x : Watch) : Watch where
  turns := if (leaves s a).any (fun y => y.1 == c) then x.turns + 1 else x.turns
  served := x.served || (s'.rq c).curr == w

/-- Calm runs from `s₀` on. -/
def CalmRun (E : Env) (c : Cpu) (ends : Sys → TaskId → Prop) (w : TaskId) (s₀ : Sys) :
    Sys × Watch → Prop :=
  Observed (fun s => s = s₀) (step E) (calm E c ends) (watch c w) ⟨0, false⟩

theorem CalmRun.of_check {ends : Sys → TaskId → Prop} [∀ s p, Decidable (ends s p)] {β : Type}
    (f : Sys × Watch → β) {l : List Act} {b : β}
    (h : (runChecked (observed (step E) (watch c w)) (fun y a => calm E c ends y.1 a) l
      (s₀, ⟨0, false⟩)).map f = some b) : ∃ y, CalmRun E c ends w s₀ y ∧ f y = b :=
  Observed.of_check f rfl h

theorem watch_kept (hno : ∀ x ∈ leaves s a, x.1 ≠ c) (x : Watch) :
    (watch c w s a s' x).turns = x.turns := by
  refine if_neg fun hany => ?_
  obtain ⟨y, hy, hc⟩ := (Option.any_eq_true _ _).mp hany
  exact hno y hy (beq_iff_eq.mp hc)

theorem watch_turn (hleave : leaves s a = some (c, how)) (x : Watch) :
    (watch c w s a s' x).turns = x.turns + 1 := by
  refine if_pos ?_
  rw [hleave]
  exact beq_self_eq_true c

theorem watch_served (hw : (s'.rq c).curr = w) (x : Watch) : (watch c w s a s' x).served = true := by
  show (x.served || (s'.rq c).curr == w) = true
  rw [hw, beq_self_eq_true, Bool.or_true]

/-- `w` has not been served yet: the turns so far and those ahead are within
the bound. -/
structure Nearer (c : Cpu) (w : TaskId) (bound : Nat) (s : Sys) (turns : Nat) (g : Stamps) : Prop where
  waits : Waits c w s
  inTurn : InTurn s g
  le : turns + turnsAhead s g c w ≤ bound

theorem Nearer.step {bound : Nat} {x : Watch} (h : Nearer c w bound s x.turns g)
    (hok : calm E c (usesUp E) s a) (hstep : step E s a = some s') :
    (s'.rq c).curr = w ∨ Nearer c w bound s' (watch c w s a s' x).turns (noteSeats s a s' g) := by
  obtain ⟨hwaits, hturn, hle⟩ := h
  have hb := hwaits.tallied.base
  have hsince : ∀ q ∈ s.queue c, (noteSeats s a s' g).since q = g.since q :=
    fun q hq => since_kept hb.trees hok.2.1 hq
  rcases hwaits.served_or_waits hok hstep with hserved | hwaits'
  · exact Or.inl hserved
  have hturn' := step_inTurn hb hwaits.sorted hwaits.scaled hturn hok.1.1 hstep
  have hn := hb.trees.nodup c
  have hn' := hwaits'.tallied.base.trees.nodup c
  cases hwaits.step hok hstep with
  | kept hno hk =>
    refine Or.inr ⟨hwaits', hturn', ?_⟩
    rw [watch_kept hno, turnsAhead_kept hn hn' hwaits.waits hk hsince]
    exact hle
  | turn how next hleave hends ht =>
    by_cases hw : w = next
    · exact Or.inl (ht.curr.trans hw.symm)
    · refine Or.inr ⟨hwaits', hturn', ?_⟩
      have hnew : GoesOn s c how →
          (noteSeats s a s' g).since w < (noteSeats s a s' g).since (s.rq c).curr := by
        intro hgo
        have hback : (s.rq c).curr ∈ s'.queue c := (ht.mem _).mpr ⟨Ne.symm ht.ne, Or.inr ⟨rfl, hgo⟩⟩
        have hflag : (s.task (s.rq c).curr).hvf.onRq = false := by
          refine Bool.eq_false_iff.mpr fun hf => hwaits.curr ?_
          exact (hb.trees.mem c _).mpr ⟨hf, (hb.running_hvf rfl hgo.1).2⟩
        rw [hsince w hwaits.waits]
        exact since_of_seat hturn ((hwaits'.tallied.base.trees.mem c _).mp hback).1 (Or.inl hflag) w
      have hlt := turn_lt ht hwaits.scaled (hturn.ranked c) hn hn' hwaits.curr hwaits.waits hw hends
        hsince hnew
      rw [watch_turn hleave]
      omega

theorem exists_inTurn (h : Reached E (settled E) s) : ∃ g, InTurn s g := by
  obtain ⟨g, hg⟩ := (Reach.mono (fun _ _ hk => hk.1) h : Reached E (keysKept E) s).observe noteSeats
    ⟨0, fun _ => 0⟩
  exact ⟨g, (seatedRun_inTurn hg).2⟩

/-- Once a CPU that is left alone, with tasks that keep within their computation
time, has been rescheduled twice as often as there were tasks waiting, each of
them has run. -/
theorem waiting_task_served_in_turn (E : Env) (s₀ : Sys) (h : Reached E (settled E) s₀) (c : Cpu)
    (hcurr : (s₀.rq c).curr ∉ s₀.queue c) (w : TaskId) (hw : w ∈ s₀.queue c) (s : Sys) (x : Watch)
    (hrun : CalmRun E c (usesUp E) w s₀ (s, x)) (hturns : 2 * (s₀.queue c).length ≤ x.turns) :
    x.served = true := by
  obtain ⟨g₀, hg₀⟩ := exists_inTurn h
  have hinv : x.served = true ∨ ∃ g, Nearer c w (turnsAhead s₀ g₀ c w) s x.turns g := by
    refine Reach.invariant (fun y : Sys × Watch => y.2.served = true ∨
      ∃ g, Nearer c w (turnsAhead s₀ g₀ c w) y.1 y.2.turns g) ?_ ?_ hrun
    · intro y hy
      obtain ⟨hs, hx⟩ := hy
      rw [hs, hx]
      exact Or.inr ⟨g₀, .of_reached h hcurr hw, hg₀, Nat.le_of_eq (Nat.zero_add _)⟩
    · intro y a z hy hok hstep
      obtain ⟨hstep, hz⟩ := observed_eq_some hstep
      rw [hz]
      rcases hy with hserved | ⟨g, hg⟩
      · refine Or.inl ?_
        show (y.2.served || _) = true
        rw [hserved]
        rfl
      · rcases hg.step hok hstep with hserved | hnear
        · exact Or.inl (watch_served hserved y.2)
        · exact Or.inr ⟨_, hnear⟩
  rcases hinv with hserved | ⟨g, hnear⟩
  · exact hserved
  · have hbound := turnsAhead_lt (g := g₀) hw
    have hle := hnear.le
    omega

/-- The machine of `wallEnv` with more time between clock readings. -/
def pacedEnv (ms : Long) : Env :=
  { wallEnv with clock := fun i => ⟨1700000000, Int64.ofNat i * ms * 1000000⟩ }

/-- Three tasks of the class share a CPU, and the first one runs. -/
def shareCpu : List Act :=
  startFirst ++ [.fork 0, .wakeNew 0 (.task 1) 0, .fork 0, .wakeNew 0 (.task 2) 0,
    .fork 0, .wakeNew 0 (.task 3) 0,
    .setscheduler permissive (.task 1) (plainAttr 8) true true,
    .setscheduler permissive (.task 2) (plainAttr 8) true true,
    .setscheduler permissive (.task 3) (plainAttr 8) true true,
    .setState 0 taskInterruptible, .schedule 0 .smNone ⟨false, false⟩ pickNone]

/-- The running task of CPU 0 uses up its slice and is stopped. -/
def takeTurn : List Act := [.tick 0, .schedule 0 .smPreempt ⟨false, false⟩ pickNone]

/-- Everybody has used up a value, and the third task is last: it is overtaken
by the others, who come back with ten, and has its turn after four. -/
theorem waiting_task_served_in_turn_last :
    ∃ s₀ s x, Reached (pacedEnv 200) (settled (pacedEnv 200)) s₀ ∧
      (s₀.rq 0).curr = .task 1 ∧ s₀.queue 0 = [.task 3, .task 2] ∧
      CalmRun (pacedEnv 200) 0 (usesUp (pacedEnv 200)) (.task 3) s₀ (s, x) ∧
      x.turns = 4 ∧ x.served = true := by
  obtain ⟨s₀, h, hf⟩ := Reached.of_check
    (b := (TaskId.task 1, [TaskId.task 3, TaskId.task 2], some 4)) (pacedEnv 200)
    (settled (pacedEnv 200))
    (fun s₀ => ((s₀.rq 0).curr, s₀.queue 0,
      (runChecked (observed (step (pacedEnv 200)) (watch 0 (.task 3)))
        (fun y a => calm (pacedEnv 200) 0 (usesUp (pacedEnv 200)) y.1 a)
        (takeTurn ++ takeTurn ++ takeTurn ++ takeTurn) (s₀, ⟨0, false⟩)).map fun y => y.2.turns))
    (shareCpu ++ takeTurn ++ takeTurn ++ takeTurn) (by decide +kernel)
  simp only [Prod.mk.injEq] at hf
  obtain ⟨hcurr, hq, hrest⟩ := hf
  obtain ⟨⟨s, x⟩, hrun, hturns⟩ := CalmRun.of_check (fun y => y.2.turns) hrest
  refine ⟨s₀, s, x, h, hcurr, hq, hrun, hturns, ?_⟩
  refine waiting_task_served_in_turn (pacedEnv 200) s₀ h 0 ?_ (.task 3) ?_ s x hrun ?_
  · rw [hcurr, hq]
    decide
  · rw [hq]
    exact List.mem_cons_self
  · rw [hq]
    exact Nat.le_of_eq hturns.symm

/-! ## Starvation -/

/-- The slice of `p` is used up, `p` has run a tenth of a second in all, and more
than its computation time. -/
def overruns (E : Env) (s : Sys) (p : TaskId) : Prop :=
  (s.task p).hvf.sliceExpired = true ∧ 100 ≤ (s.chargedTime E p).toInt ∧
    (s.task p).computationTime.toInt < (s.chargedTime E p).toInt

instance (E : Env) (s : Sys) (p : TaskId) : Decidable (overruns E s p) :=
  inferInstanceAs (Decidable (_ ∧ _ ∧ _))

/-- `c` is left alone, and its tasks run on and on. -/
def hogging (E : Env) (c : Cpu) (s : Sys) (a : Act) : Prop :=
  calm E c (overruns E) s a ∧ ∀ x ∈ leaves s a, x.1 = c → GoesOn s c x.2

instance (E : Env) (c : Cpu) (s : Sys) (a : Act) : Decidable (hogging E c s a) :=
  inferInstanceAs (Decidable (_ ∧ ∀ x ∈ leaves s a, _))

/-- The tasks of `H` hold `c`: one of them runs, another one waits, and nobody
else who waits has a value of ten. -/
structure Hogged (H : TaskId → Prop) (c : Cpu) (s : Sys) : Prop where
  curr : (s.rq c).curr ∉ s.queue c
  runs : H (s.rq c).curr ∧ 0 < s.key (s.rq c).curr
  waits : ∃ y ∈ s.queue c, H y
  high : ∀ y ∈ s.queue c, H y → 10 ≤ s.key y
  low : ∀ q ∈ s.queue c, ¬ H q → s.key q < 10

/-- A value that is used up and punished is ten. -/
theorem requeued_overrun {v used ct : Int} (hv : 0 < v) (hused : 100 ≤ used) (hover : ct < used) :
    requeued v used ct = 10 := by
  have hzero := (lessShare_eq_zero_iff (Int.le_of_lt hv) used).mpr ⟨hv, hused⟩
  rw [requeued, if_pos hover, hzero, lessShare_zero]

theorem Turn.top_le (h : Turn E s s' c how next) (ho : Sorted s) (hq : q ∈ s.queue c) :
    s.key q ≤ s.key next := by
  obtain ⟨front, hfront⟩ := h.top
  have hsorted := (ho c).sorted
  rw [hfront] at hsorted hq
  rcases List.mem_append.mp hq with hm | hm
  · exact (List.pairwise_append.mp hsorted).2.2 q hm next (List.mem_singleton.mpr rfl)
  · rw [List.mem_singleton.mp hm]

theorem Hogged.kept {H : TaskId → Prop} (h : Hogged H c s) (hk : Kept c s s') : Hogged H c s' := by
  have hkey : ∀ q, (s.rq c).curr = q ∨ q ∈ s.queue c → s'.key q = s.key q :=
    fun q hq => congrArg Int64.toInt (hk.values q hq)
  refine ⟨?_, ?_, ?_, ?_, ?_⟩
  · rw [hk.curr, hk.mem]
    exact h.curr
  · rw [hk.curr, hkey _ (Or.inl rfl)]
    exact h.runs
  · obtain ⟨y, hy, hH⟩ := h.waits
    exact ⟨y, (hk.mem y).mpr hy, hH⟩
  · intro y hy hH
    have hy := (hk.mem y).mp hy
    rw [hkey y (Or.inr hy)]
    exact h.high y hy hH
  · intro q hq hH
    have hq := (hk.mem q).mp hq
    rw [hkey q (Or.inr hq)]
    exact h.low q hq hH

/-- The turn goes to a task of `H`, and the one that ran comes back with ten. -/
theorem Hogged.turn {H : TaskId → Prop} (h : Hogged H c s) (ho : Sorted s)
    (ht : Turn E s s' c how next) (hgo : GoesOn s c how) (hends : overruns E s (s.rq c).curr) :
    H next ∧ Hogged H c s' := by
  obtain ⟨hexp, hused, hover⟩ := hends
  have hback : s'.key (s.rq c).curr = 10 :=
    (ht.requeued hgo hexp).trans (requeued_overrun h.runs.2 hused hover)
  have hkey : ∀ q ∈ s.queue c, s'.key q = s.key q := by
    intro q hq
    exact congrArg Int64.toInt (ht.values q fun e => h.curr (e ▸ hq))
  have hmem : ∀ q ∈ s'.queue c, q ∈ s.queue c ∨ q = (s.rq c).curr :=
    fun q hq => ((ht.mem q).mp hq).2.imp_right And.left
  have hten : 10 ≤ s.key next := by
    obtain ⟨y, hy, hH⟩ := h.waits
    exact Int.le_trans (h.high y hy hH) (ht.top_le ho hy)
  have hnext : H next := by
    by_contra hno
    have hlt := h.low next ht.top_mem hno
    omega
  refine ⟨hnext, ?_, ?_, ?_, ?_, ?_⟩
  · rw [ht.curr, ht.mem]
    exact fun hm => hm.1 rfl
  · rw [ht.curr, hkey next ht.top_mem]
    exact ⟨hnext, by omega⟩
  · exact ⟨(s.rq c).curr, (ht.mem _).mpr ⟨Ne.symm ht.ne, Or.inr ⟨rfl, hgo⟩⟩, h.runs.1⟩
  · intro y hy hH
    rcases hmem y hy with hy | hy
    · rw [hkey y hy]
      exact h.high y hy hH
    · rw [hy, hback]
  · intro q hq hH
    rcases hmem q hq with hq | hq
    · rw [hkey q hq]
      exact h.low q hq hH
    · rw [hq] at hH
      exact absurd h.runs.1 hH

/-- Tasks that have overrun and never sleep keep the CPU to themselves: on a CPU
that is left alone, whoever waits with a value below ten never runs. -/
theorem overrunning_tasks_starve_the_rest (E : Env) (s₀ : Sys) (h : Reached E (settled E) s₀)
    (c : Cpu) (H : TaskId → Prop) (hogs : Hogged H c s₀) (s : Sys)
    (hrun : Reach (fun x => x = s₀) (step E) (hogging E c) s) :
    H (s.rq c).curr ∧ ∀ w ∈ s₀.queue c, ¬ H w → w ∈ s.queue c := by
  obtain ⟨y₀, hy₀, -⟩ := hogs.waits
  -- somebody always waits, so every `__schedule` is a turn
  have hinv : Hogged H c s ∧ (∃ y, Waits c y s) ∧ ∀ w ∈ s₀.queue c, ¬ H w → w ∈ s.queue c := by
    refine Reach.invariant (fun x => Hogged H c x ∧ (∃ y, Waits c y x) ∧
      ∀ w ∈ s₀.queue c, ¬ H w → w ∈ x.queue c) ?_ ?_ hrun
    · intro x hx
      rw [hx]
      exact ⟨hogs, ⟨y₀, .of_reached h hogs.curr hy₀⟩, fun w hw _ => hw⟩
    · intro x a x' hx hok hstep
      obtain ⟨hhog, ⟨y, hy⟩, hlow⟩ := hx
      obtain ⟨hcalm, hgo⟩ := hok
      have hnext : Hogged H c x' ∧ ∀ w ∈ s₀.queue c, ¬ H w → w ∈ x'.queue c := by
        cases hy.step hcalm hstep with
        | kept _ hk => exact ⟨hhog.kept hk, fun w hw hH => (hk.mem w).mpr (hlow w hw hH)⟩
        | turn how next hleave hends ht =>
          have hgo := hgo (c, how) hleave rfl
          obtain ⟨hH, hhog'⟩ := hhog.turn hy.sorted ht hgo (hends hgo)
          refine ⟨hhog', fun w hw hw' => (ht.mem w).mpr ⟨?_, Or.inl (hlow w hw hw')⟩⟩
          exact fun e => hw' (e ▸ hH)
      obtain ⟨y', hy', -⟩ := hnext.1.waits
      have hall := hy.settled hcalm hstep
      exact ⟨hnext.1, ⟨y', ⟨hall.1, hall.2.1, hall.2.2, hnext.1.curr, hy'⟩⟩, hnext.2⟩
  exact ⟨hinv.1.runs.1, hinv.2.2⟩

/-- The running task reads the clock before its slice is used up and it is
stopped. -/
def takeLongTurn : List Act := .setParams 0 0 0 0 :: takeTurn

/-- The first task has used up its value within its computation time. The other
two have overrun: they take turns, and it waits. -/
theorem overrunning_tasks_starve_the_rest_first :
    ∃ s₀ s, Reached (pacedEnv 600) (settled (pacedEnv 600)) s₀ ∧ s₀.queue 0 = [.task 1, .task 2] ∧
      Reach (fun x => x = s₀) (step (pacedEnv 600)) (hogging (pacedEnv 600) 0) s ∧
      s.reads = s₀.reads + 9 ∧ ((s.rq 0).curr = .task 2 ∨ (s.rq 0).curr = .task 3) ∧
      .task 1 ∈ s.queue 0 := by
  obtain ⟨s₀, h, hf⟩ := Reached.of_check
    (b := (TaskId.task 3, [TaskId.task 1, TaskId.task 2], ((0 : Int), (10 : Int), (100 : Int)), some true))
    (pacedEnv 600) (settled (pacedEnv 600))
    (fun s₀ => ((s₀.rq 0).curr, s₀.queue 0,
      (s₀.key (.task 1), s₀.key (.task 2), s₀.key (.task 3)),
      (runChecked (step (pacedEnv 600)) (hogging (pacedEnv 600) 0)
        (takeLongTurn ++ takeLongTurn ++ takeLongTurn) s₀).map fun s =>
          decide (s.reads = s₀.reads + 9)))
    (shareCpu ++ takeTurn ++ takeLongTurn) (by decide +kernel)
  simp only [Prod.mk.injEq] at hf
  obtain ⟨hcurr, hq, ⟨h₁, h₂, h₃⟩, hrest⟩ := hf
  obtain ⟨s, hrun, hreads⟩ : ∃ s,
      Reach (fun x => x = s₀) (step (pacedEnv 600)) (hogging (pacedEnv 600) 0) s ∧
        decide (s.reads = s₀.reads + 9) = true := Reach.of_check _ rfl hrest
  have hwho : ∀ y ∈ s₀.queue 0, y = .task 1 ∨ y = .task 2 := by
    rw [hq]
    decide
  have hogs : Hogged (fun p => p = .task 2 ∨ p = .task 3) 0 s₀ := by
    refine ⟨?_, ?_, ?_, ?_, ?_⟩
    · rw [hcurr, hq]
      decide
    · rw [hcurr, h₃]
      exact ⟨Or.inr rfl, by decide⟩
    · rw [hq]
      exact ⟨.task 2, by decide, Or.inl rfl⟩
    · intro y hy hH
      rcases hwho y hy with e | e
      · rw [e] at hH
        exact absurd hH (by decide)
      · rw [e, h₂]
    · intro y hy hH
      rcases hwho y hy with e | e
      · rw [e, h₁]
        decide
      · exact absurd (Or.inl e) hH
  have hall := overrunning_tasks_starve_the_rest (pacedEnv 600) s₀ h 0 _ hogs s hrun
  exact ⟨s₀, s, h, hq, hrun, of_decide_eq_true hreads, hall.1,
    hall.2 (.task 1) (by rw [hq]; decide) (by decide)⟩

end HvfSched
