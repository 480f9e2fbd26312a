import Mathlib.Algebra.Order.Group.Int
import HvfSched.Lib.Spans
import HvfSched.Runs.Flags
import HvfSched.Tasks.Running

/-!
# CPU time is charged once

`put_prev_task_hvf` adds the time since `latest_time` to `time_used`. The sum
over a history is right if `latest_time` was refreshed since the last put, and
`set_next_task_hvf` refreshes it only with `first` set. The core also puts and
sets a running task around a change of its attributes, with `first` clear:
after `sched_move_task` the next put charges the time before the move a second
time (`moved_task_charged_twice`).

The ledger of an observer is what the charges are measured against. It keeps
for every task the spans of time in which the task was running in the class
since it was last initialised, and the start of the span that is still open:

* a span opens when the task takes the CPU in the class, and when it comes
  into the class while it is running;
* it is closed by a put, at the clock reading of the put, and opens again
  right there if the task goes on running in the class;
* `init_sched_hvf_entity` forgets all spans; a child starts with those of its
  parent, since its entity is a copy.

`chargesKept` asks that no class change puts and sets a running task of the
class without initialising it. In runs that meet it the used time is the
length of the closed spans.
-/

namespace HvfSched

open Lib Sys

variable {E : Env} {s s' : Sys} {a : Act} {c : Cpu} {p : TaskId}

/-! ## The ledger -/

/-- The stamp of a clock reading, as a number. -/
def stampAt (E : Env) (i : Nat) : Int := (stampMs (E.clock i)).toInt

/-- The stamps of the clock are not negative and never go back. -/
structure ClockRises (E : Env) : Prop where
  nonneg : ∀ i, 0 ≤ stampAt E i
  mono : ∀ i j, i ≤ j → stampAt E i ≤ stampAt E j

/-- The closed spans of a task, newest first, and the start of the open one. -/
structure TimeSheet where
  spans : List (Int × Int)
  since : Option Int
  deriving DecidableEq

abbrev Ledger := TaskId → TimeSheet

/-- The action initialises the entity of `p`. -/
def initialisesTask (s : Sys) (a : Act) (p : TaskId) : Bool :=
  ((activates s a).any (fun x => x.1 == p) && a.isNew && (s.task p).schedClass == .hvf)
    || (classTarget s a == some (p, .hvf) && (s.task p).isQueued && a.initialises)

/-- The running task `p` is put: it stops running in the class, or a change
of its attributes puts and sets it. -/
def putsTask (s : Sys) (a : Act) (s' : Sys) (p : TaskId) : Bool :=
  runsHvf s p && (!runsHvf s' p || (classTarget s a).any (fun x => x.1 == p))

/-- The child a fork has created, and its parent. -/
def bornFrom (s : Sys) (a : Act) (s' : Sys) (p : TaskId) : Option TaskId :=
  match forks a with
  | some c => if p = .task s.nextPid ∧ s'.nextPid ≠ s.nextPid then some (s.rq c).curr else none
  | none => none

/-- The sheet of `p` after a step. The last clock reading of the step is the
one that opens a span or initialises, the first one the one that closes. -/
def nextSheet (E : Env) (s : Sys) (a : Act) (s' : Sys) (p : TaskId) (x : TimeSheet) : TimeSheet :=
  if initialisesTask s a p then
    { spans := []
      since := if runsHvf s' p then some (stampAt E (s'.reads - 1)) else none }
  else
    { spans :=
        if putsTask s a s' p then (x.since.getD (stampAt E s.reads), stampAt E s.reads) :: x.spans
        else x.spans
      since :=
        if runsHvf s' p then
          if putsTask s a s' p then some (stampAt E s.reads)
          else if runsHvf s p then x.since
          else some (stampAt E (s'.reads - 1))
        else none }

def nextLedger (E : Env) (s : Sys) (a : Act) (s' : Sys) (L : Ledger) : Ledger := fun p =>
  match bornFrom s a s' p with
  | some parent => ⟨(L parent).spans, none⟩
  | none => nextSheet E s a s' p (L p)

/-- Nobody has run yet. -/
def emptyLedger : Ledger := fun _ => ⟨[], none⟩

/-- A class change into HVF, or within it, initialises the task if it is
running. -/
def chargesKept (s : Sys) (a : Act) : Prop :=
  flagsKept s a ∧
  ∀ x ∈ classTarget s a, x.2 = .hvf → s.isCurrent x.1 = true →
    ((s.task x.1).isQueued && a.initialises) = true

instance (s : Sys) (a : Act) : Decidable (chargesKept s a) := inferInstanceAs (Decidable (_ ∧ _))

/-- The runs, with the ledger. -/
def Charging (E : Env) (ok : Sys → Act → Prop) : Sys × Ledger → Prop :=
  Observed (fun s => s = boot) (step E) ok (nextLedger E) emptyLedger

theorem Charging.of_check {β : Type} (E : Env) (ok : Sys → Act → Prop)
    [∀ s a, Decidable (ok s a)] (f : Sys × Ledger → β) (l : List Act) {b : β}
    (h : (runChecked (observed (step E) (nextLedger E)) (fun x a => ok x.1 a) l
      (boot, emptyLedger)).map f = some b) : ∃ x, Charging E ok x ∧ f x = b :=
  Observed.of_check f rfl h

/-! ## When the ledger writes -/

theorem not_initialises (h : ¬ reachesClass s a p) : initialisesTask s a p = false := by
  rw [Bool.eq_false_iff]
  intro hi
  unfold initialisesTask at hi
  simp only [Bool.or_eq_true, Bool.and_eq_true, Option.any_eq_true, beq_iff_eq] at hi
  rcases hi with ⟨⟨⟨x, hx, rfl⟩, hnew⟩, hcls⟩ | ⟨⟨htarget, -⟩, -⟩
  · exact h (Or.inr ⟨hnew, hcls, x.2, hx⟩)
  · exact h (Or.inl ⟨.hvf, htarget, Or.inr rfl⟩)

theorem not_puts (h : ¬ reachesClass s a p) (hruns : runsHvf s' p = runsHvf s p) :
    putsTask s a s' p = false := by
  rw [Bool.eq_false_iff]
  intro hput
  unfold putsTask at hput
  rw [hruns] at hput
  simp only [Bool.and_eq_true, Bool.or_eq_true, Bool.not_eq_true', Option.any_eq_true,
    beq_iff_eq] at hput
  obtain ⟨hr, hn | ⟨x, hx, rfl⟩⟩ := hput
  · rw [hr] at hn
    cases hn
  · exact h (Or.inl ⟨x.2, hx, Or.inl (runsHvf_iff.mp hr).1⟩)

theorem not_puts_of_off (h : runsHvf s p = false) : putsTask s a s' p = false := by
  unfold putsTask
  rw [h]
  rfl

theorem puts_of_leaves (h : runsHvf s p = true) (h' : runsHvf s' p = false) :
    putsTask s a s' p = true := by
  unfold putsTask
  rw [h, h']
  rfl

/-! ## The invariant -/

/-- The fields the charges are made from: first time, latest time, time used. -/
def Record.charging (r : Record) : Long × Long × Long := (r.first, r.latest, r.used)

/-- The used time of `p` is what its sheet says, and its stamps are those of
the sheet. -/
structure Charged (E : Env) (s : Sys) (p : TaskId) (x : TimeSheet) : Prop where
  used : (s.task p).record.used.toInt = totalLength x.spans
  first : 0 ≤ (s.task p).record.first.toInt
  since : x.since = if runsHvf s p then some (s.task p).record.latest.toInt else none
  latest : runsHvf s p = true → (s.task p).record.latest.toInt ≤ stampAt E s.reads
  chain : SpanChain (s.task p).record.first.toInt x.spans (x.since.getD (stampAt E s.reads))

namespace Charged

variable {x : TimeSheet}

theorem since_on (h : Charged E s p x) (hr : runsHvf s p = true) :
    x.since = some (s.task p).record.latest.toInt := by
  rw [h.since, hr]
  rfl

theorem since_off (h : Charged E s p x) (hr : runsHvf s p = false) : x.since = none := by
  rw [h.since, hr]
  rfl

/-- All spans end before the next clock reading. -/
theorem chain_now (h : Charged E s p x) :
    SpanChain (s.task p).record.first.toInt x.spans (stampAt E s.reads) := by
  have hc := h.chain
  cases hr : runsHvf s p with
  | false =>
    rw [h.since_off hr] at hc
    exact hc
  | true =>
    rw [h.since_on hr] at hc
    exact hc.mono (h.latest hr)

/-- A step that does not touch the time fields. -/
theorem keep (hclock : ClockRises E) (h : Charged E s p x)
    (hsame : (s'.task p).record.charging = (s.task p).record.charging)
    (hreads : s.reads ≤ s'.reads) (hruns : runsHvf s' p = runsHvf s p) : Charged E s' p x := by
  have hfirst : (s'.task p).record.first = (s.task p).record.first := congrArg (fun y => y.1) hsame
  have hlatest : (s'.task p).record.latest = (s.task p).record.latest :=
    congrArg (fun y => y.2.1) hsame
  have hused : (s'.task p).record.used = (s.task p).record.used := congrArg (fun y => y.2.2) hsame
  have hstamp := hclock.mono _ _ hreads
  constructor
  · rw [hused]
    exact h.used
  · rw [hfirst]
    exact h.first
  · rw [hruns, hlatest]
    exact h.since
  · intro hr
    rw [hruns] at hr
    rw [hlatest]
    exact le_trans (h.latest hr) hstamp
  · rw [hfirst]
    cases hr : runsHvf s p with
    | false =>
      have hnow := h.chain_now.mono hstamp
      rw [h.since_off hr]
      exact hnow
    | true =>
      have hc := h.chain
      rw [h.since_on hr, Option.getD_some] at hc ⊢
      exact hc

/-- The task takes the CPU: a span opens at the reading of `set_next`. -/
theorem opens (hclock : ClockRises E) (h : Charged E s p x) {n : Nat}
    (hrec : s'.clocked p = (Clocked.mk n (s.task p).record).dispatch E) (hn : s.reads ≤ n)
    (hruns : runsHvf s' p = true) : Charged E s' p ⟨x.spans, some (stampAt E n)⟩ := by
  have hr : (s'.task p).record = ((Clocked.mk n (s.task p).record).dispatch E).record :=
    congrArg Clocked.record hrec
  have hreads : s'.reads = n + 1 := congrArg Clocked.reads hrec
  constructor
  · rw [hr]
    exact h.used
  · rw [hr]
    exact h.first
  · rw [hruns, hr]
    rfl
  · intro _
    rw [hr, hreads]
    show stampAt E n ≤ stampAt E (n + 1)
    exact hclock.mono n (n + 1) (Nat.le_succ n)
  · rw [hr]
    exact h.chain_now.mono (hclock.mono _ _ hn)

/-- The charge of a put, in numbers: nothing wraps around, because all stamps
lie between zero and now. -/
theorem charge (h : Charged E s p x) (hruns : runsHvf s p = true) :
    ((s.task p).record.used + (stampMs (E.clock s.reads) - (s.task p).record.latest)).toInt
      = totalLength ((((s.task p).record.latest.toInt, stampAt E s.reads) :: x.spans)) := by
  have hlatest := h.latest hruns
  have hc := h.chain
  rw [h.since_on hruns] at hc
  have hfirst := h.first
  have hends : (s.task p).record.first.toInt ≤ (s.task p).record.latest.toInt := hc.ends_le
  have hlo := hc.totalLength_nonneg
  have hhi := hc.totalLength_le
  rw [← h.used] at hlo hhi
  have hmax := (fits_toInt (stampMs (E.clock s.reads))).2
  have hdiff : (stampMs (E.clock s.reads) - (s.task p).record.latest).toInt
      = stampAt E s.reads - (s.task p).record.latest.toInt := by
    refine toInt_sub_of_fits ?_
    unfold stampAt at hlatest
    exact ⟨by omega, by omega⟩
  have hsum : Fits ((s.task p).record.used.toInt
      + (stampMs (E.clock s.reads) - (s.task p).record.latest).toInt) := by
    rw [hdiff]
    simp only [Option.getD_some] at hhi
    unfold stampAt at hlatest ⊢
    exact ⟨by omega, by omega⟩
  rw [toInt_add_of_fits hsum, hdiff, h.used]
  show _ = stampAt E s.reads - (s.task p).record.latest.toInt + totalLength x.spans
  omega

/-- The task is put and no longer runs in the class: its span closes. -/
theorem closes (hclock : ClockRises E) (h : Charged E s p x) (hruns : runsHvf s p = true)
    (hused : (s'.task p).record.used
      = (s.task p).record.used + (stampMs (E.clock s.reads) - (s.task p).record.latest))
    (hfirst : (s'.task p).record.first = (s.task p).record.first)
    (hreads : s.reads ≤ s'.reads) (hruns' : runsHvf s' p = false) :
    Charged E s' p ⟨(x.since.getD (stampAt E s.reads), stampAt E s.reads) :: x.spans, none⟩ := by
  have hc := h.chain
  have hcharge := h.charge hruns
  rw [h.since_on hruns] at hc ⊢
  constructor
  · rw [hused]
    exact hcharge
  · rw [hfirst]
    exact h.first
  · rw [hruns']
    rfl
  · intro hr
    rw [hruns'] at hr
    cases hr
  · rw [hfirst]
    exact (hc.close (h.latest hruns)).mono (hclock.mono _ _ hreads)

/-- The task is initialised: nothing used, and all stamps are the reading of
`init_sched_hvf_entity`. -/
theorem fresh (hclock : ClockRises E) {y : Clocked} (hrec : s'.clocked p = y.enter E) :
    Charged E s' p ⟨[], if runsHvf s' p then some (stampAt E (s'.reads - 1)) else none⟩ := by
  have hr : (s'.task p).record = (y.enter E).record := congrArg Clocked.record hrec
  have hreads : s'.reads = (y.defaults E).reads + 1 := congrArg Clocked.reads hrec
  have hlast : s'.reads - 1 = (y.defaults E).reads := by omega
  have hrise := hclock.mono (y.defaults E).reads s'.reads (by omega)
  rw [hlast]
  constructor
  · rw [hr]
    rfl
  · rw [hr]
    exact hclock.nonneg _
  · rw [hr]
    rfl
  · intro _
    rw [hr]
    exact hrise
  · rw [hr]
    show stampAt E (y.defaults E).reads ≤ _
    cases runsHvf s' p with
    | false => exact hrise
    | true => exact le_refl _

end Charged

/-! ## One step -/

/-- A child has the entity of its parent. -/
theorem bornFrom_eq_some {parent : TaskId} (hstep : step E s a = some s')
    (h : bornFrom s a s' p = some parent) :
    (s'.task p).hvf = (s.task parent).hvf ∧ (s'.task p).schedClass ≠ .hvf ∧
      s'.reads = s.reads := by
  unfold bornFrom at h
  cases a with
  | fork c =>
    dsimp only [forks] at h
    split at h
    next hnew =>
      injection h with h
      obtain ⟨rfl, hpid⟩ := hnew
      obtain ⟨-, hx⟩ := step_ok hstep
      injection hx with hx
      unfold copyProcess at hx
      split at hx
      next =>
        rw [← hx] at hpid
        exact absurd rfl hpid
      next t ht =>
        have htask : s'.task (.task s.nextPid) = finishChild c t := by
          rw [← hx]
          exact setTask_self ..
        rw [htask]
        refine ⟨?_, (schedFork_forked c ht).schedClass, ?_⟩
        · rw [← h]
          show t.hvf = _
          exact schedFork_hvf ht
        · rw [← hx]
          rfl
    next => cases h
  | _ => cases h

theorem chargesKept_stay (hok : chargesKept s a) (htarget : classTarget s a = some (p, .hvf))
    (hinit : ¬ ((s.task p).isQueued && a.initialises) = true) : s.isCurrent p = false := by
  rw [Bool.eq_false_iff]
  intro hcurr
  exact hinit (hok.2 _ htarget rfl hcurr)

theorem initialises_of_target (htarget : classTarget s a = some (p, .hvf))
    (hinit : ((s.task p).isQueued && a.initialises) = true) : initialisesTask s a p = true := by
  unfold initialisesTask
  rw [htarget, Bool.or_eq_true]
  right
  simpa using hinit

theorem not_initialises_of_target {cls : SchedClass} (htarget : classTarget s a = some (p, cls))
    (hinit : cls = .hvf → ¬ ((s.task p).isQueued && a.initialises) = true) :
    initialisesTask s a p = false := by
  have hnew : a.isNew = false := by
    cases a with
    | wakeNew => cases htarget
    | _ => rfl
  unfold initialisesTask
  rw [htarget, hnew]
  by_cases hcls : cls = .hvf
  · have hi := hinit hcls
    rw [Bool.not_eq_true] at hi
    simp [hcls, hi]
  · simp [hcls]

section Sheet

variable {x : TimeSheet}

theorem nextSheet_fresh (hinit : initialisesTask s a p = true) :
    nextSheet E s a s' p x
      = ⟨[], if runsHvf s' p then some (stampAt E (s'.reads - 1)) else none⟩ :=
  if_pos hinit

theorem nextSheet_keep (h : Charged E s p x) (hinit : initialisesTask s a p = false)
    (hput : putsTask s a s' p = false) (hruns : runsHvf s' p = runsHvf s p) :
    nextSheet E s a s' p x = x := by
  unfold nextSheet
  rw [hinit, hput, hruns]
  cases hr : runsHvf s p with
  | false =>
    have hsince := h.since_off hr
    cases x
    dsimp only at hsince
    subst hsince
    rfl
  | true => rfl

theorem nextSheet_opens (hinit : initialisesTask s a p = false) (hruns : runsHvf s p = false)
    (hruns' : runsHvf s' p = true) :
    nextSheet E s a s' p x = ⟨x.spans, some (stampAt E (s'.reads - 1))⟩ := by
  unfold nextSheet
  rw [hinit, not_puts_of_off hruns, hruns, hruns']
  rfl

theorem nextSheet_closes (hinit : initialisesTask s a p = false) (hruns : runsHvf s p = true)
    (hruns' : runsHvf s' p = false) :
    nextSheet E s a s' p x
      = ⟨(x.since.getD (stampAt E s.reads), stampAt E s.reads) :: x.spans, none⟩ := by
  unfold nextSheet
  rw [hinit, puts_of_leaves hruns hruns', hruns']
  rfl

end Sheet

/-- A step that does not reach `p`, or reaches other fields only. -/
theorem Charged.quiet {x : TimeSheet} (hclock : ClockRises E) (h : Charged E s p x)
    (hinit : initialisesTask s a p = false) (hput : putsTask s a s' p = false)
    (hruns : runsHvf s' p = runsHvf s p)
    (hsame : (s'.task p).record.charging = (s.task p).record.charging)
    (hreads : s.reads ≤ s'.reads) : Charged E s' p (nextSheet E s a s' p x) := by
  rw [nextSheet_keep h hinit hput hruns]
  exact h.keep hclock hsame hreads hruns

namespace Charged

variable {x : TimeSheet}

/-- The task is switched out. -/
theorem put {how : Links.Leave} (hclock : ClockRises E) (hb : Base s) (hb' : Base s')
    (h : Charged E s p x) (hleave : leaves s a = some (c, how)) (hp : (s.rq c).curr = p)
    (hcls : (s.task p).schedClass = .hvf)
    (hrec : (s'.task p).record
      = ((s.clocked p).put E (how.running (s.task p).isRunning)).record)
    (hreads : s.reads < s'.reads) (hcls' : (s'.task p).schedClass = .hvf)
    (hcpus : ∀ d, (s'.rq d).curr = p ↔ d ≠ c ∧ (s.rq d).curr = p) :
    Charged E s' p (nextSheet E s a s' p x) := by
  obtain ⟨htarget, hnew⟩ := classTarget_of_leaves hleave
  obtain ⟨hruns, hruns'⟩ := runsHvf_put hb.sound hb'.sound hp hcls hcls' hcpus
  rw [nextSheet_closes (not_initialises (not_reachesClass htarget hnew p)) hruns hruns']
  refine h.closes hclock hruns ?_ ?_ (Nat.le_of_lt hreads) hruns'
  · rw [hrec]
    rfl
  · rw [hrec]
    rfl

/-- The task takes the CPU. -/
theorem dispatch {how : Links.Leave} {n : Nat} (hclock : ClockRises E) (hb : Base s) (hb' : Base s')
    (h : Charged E s p x) (hleave : leaves s a = some (c, how)) (hne : (s.rq c).curr ≠ p)
    (hcls : (s.task p).schedClass = .hvf)
    (hrec : s'.clocked p = (Clocked.mk n (s.task p).record).dispatch E) (hreads : s.reads ≤ n)
    (hcls' : (s'.task p).schedClass = .hvf)
    (hcpus : ∀ d, (s'.rq d).curr = p ↔ d = c ∨ (s.rq d).curr = p) :
    Charged E s' p (nextSheet E s a s' p x) := by
  obtain ⟨htarget, hnew⟩ := classTarget_of_leaves hleave
  obtain ⟨hruns, hruns'⟩ := runsHvf_dispatch hb.sound hb'.sound hne hcls hcls' hcpus
  have hlast : s'.reads - 1 = n := by
    have hr : s'.reads = n + 1 := congrArg Clocked.reads hrec
    omega
  rw [nextSheet_opens (not_initialises (not_reachesClass htarget hnew p)) hruns hruns', hlast]
  exact h.opens hclock hrec hreads hruns'

/-- A change within the class initialises the task, or finds it not running. -/
theorem stay (hclock : ClockRises E) (hb : Base s) (hb' : Base s') (h : Charged E s p x)
    (hok : chargesKept s a) (htarget : classTarget s a = some (p, .hvf))
    (hcls : (s.task p).schedClass = .hvf)
    (hrec : s'.clocked p = if (s.task p).isQueued && a.initialises
      then ((s.clocked p).putIf E (s.isCurrent p) (s.task p).isRunning).enter E
      else (s.clocked p).putIf E (s.isCurrent p) (s.task p).isRunning)
    (hcls' : (s'.task p).schedClass = .hvf) (hcpus : SameCpus s s' p) :
    Charged E s' p (nextSheet E s a s' p x) := by
  by_cases hinit : ((s.task p).isQueued && a.initialises) = true
  · rw [if_pos hinit] at hrec
    rw [nextSheet_fresh (initialises_of_target htarget hinit)]
    exact .fresh hclock hrec
  · -- the task is not running, so it is not put
    have hcurr := chargesKept_stay hok htarget hinit
    rw [if_neg hinit, Clocked.putIf, hcurr] at hrec
    have hoff : runsHvf s p = false := by
      rw [runsHvf_of_hvf hcls, hcurr]
    have hruns := runsHvf_same hb.sound hb'.sound (hcls'.trans hcls.symm) hcpus
    have hreads : s'.reads = s.reads := congrArg Clocked.reads hrec
    exact h.quiet hclock (not_initialises_of_target htarget fun _ => hinit)
      (not_puts_of_off hoff) hruns (congrArg (fun y => y.record.charging) hrec)
      (Nat.le_of_eq hreads.symm)

/-- A task that leaves the class while it is running is put first. -/
theorem leave {cls : SchedClass} (hclock : ClockRises E) (h : Charged E s p x)
    (htarget : classTarget s a = some (p, cls)) (hne : cls ≠ .hvf)
    (hcls : (s.task p).schedClass = .hvf)
    (hrec : s'.clocked p = ((s.clocked p).putIf E (s.isCurrent p) (s.task p).isRunning).clear)
    (hcls' : (s'.task p).schedClass = cls) : Charged E s' p (nextSheet E s a s' p x) := by
  have hinit := not_initialises_of_target htarget (fun hc => absurd hc hne)
  have hruns' : runsHvf s' p = false := by
    refine runsHvf_of_ne ?_
    rw [hcls']
    exact hne
  -- clearing the parameters does not touch the time fields
  have hsame : (s'.task p).record.charging
      = ((s.clocked p).putIf E (s.isCurrent p) (s.task p).isRunning).record.charging :=
    (congrArg (fun y => y.record.charging) hrec).trans
      (congrArg Record.charging (Clocked.timing_clear _))
  have hreads : s'.reads = _ := congrArg Clocked.reads hrec
  rw [Clocked.reads_clear] at hreads
  unfold Clocked.putIf at hsame hreads
  cases hcurr : s.isCurrent p with
  | true =>
    rw [hcurr] at hsame hreads
    have hruns : runsHvf s p = true := runsHvf_iff.mpr ⟨hcls, hcurr⟩
    have hreads : s'.reads = s.reads + 1 := hreads
    rw [nextSheet_closes hinit hruns hruns']
    exact h.closes hclock hruns (congrArg (fun y => y.2.2) hsame) (congrArg (fun y => y.1) hsame)
      (by omega) hruns'
  | false =>
    rw [hcurr] at hsame hreads
    have hruns : runsHvf s p = false := by
      rw [runsHvf_of_hvf hcls, hcurr]
    have hreads : s'.reads = s.reads := hreads
    exact h.quiet hclock hinit (not_puts_of_off hruns) (hruns'.trans hruns.symm) hsame
      (Nat.le_of_eq hreads.symm)

/-- A task that comes into the class is initialised, or is not running. -/
theorem join (hclock : ClockRises E) (hb : Base s) (hb' : Base s') (h : Charged E s p x)
    (hok : chargesKept s a) (htarget : classTarget s a = some (p, .hvf))
    (hcls : (s.task p).schedClass ≠ .hvf)
    (hrec : s'.clocked p = if (s.task p).isQueued && a.initialises
      then (s.clocked p).enter E else (s.clocked p).defaults E)
    (hcls' : (s'.task p).schedClass = .hvf) (hcpus : SameCpus s s' p) :
    Charged E s' p (nextSheet E s a s' p x) := by
  by_cases hinit : ((s.task p).isQueued && a.initialises) = true
  · rw [if_pos hinit] at hrec
    rw [nextSheet_fresh (initialises_of_target htarget hinit)]
    exact .fresh hclock hrec
  · have hcurr := chargesKept_stay hok htarget hinit
    rw [if_neg hinit] at hrec
    have hruns' : runsHvf s' p = false := by
      rw [runsHvf_of_hvf hcls', isCurrent_same hb.sound hb'.sound (ne_idle_of_hvf hb'.sound hcls')
        hcpus, hcurr]
    have hsame : (s'.task p).record.charging = (s.task p).record.charging :=
      (congrArg (fun y => y.record.charging) hrec).trans
        (congrArg Record.charging ((s.clocked p).timing_defaults E))
    have hreads : s'.reads = _ := congrArg Clocked.reads hrec
    refine h.quiet hclock (not_initialises_of_target htarget fun _ => hinit)
      (not_puts_of_off (runsHvf_of_ne hcls)) (hruns'.trans (runsHvf_of_ne hcls).symm) hsame ?_
    rw [hreads]
    exact (s.clocked p).reads_defaults

end Charged

/-- The sheet of a task that no fork has just created follows the charges. -/
theorem Charged.step {x : TimeSheet} (hclock : ClockRises E) (hb : Base s) (hb' : Base s')
    (h : Charged E s p x) (hok : chargesKept s a) (hstep : HvfSched.step E s a = some s')
    (hborn : bornFrom s a s' p = none) : Charged E s' p (nextSheet E s a s' p x) := by
  cases step_task hstep p with
  | same hidle hrec hreads hcls hcpus =>
    have hruns := runsHvf_same hb.sound hb'.sound hcls hcpus
    exact h.quiet hclock (not_initialises hidle) (not_puts hidle hruns) hruns
      (congrArg Record.charging hrec) hreads
  | other hidle hrec hreads hcls hcls' =>
    have hruns : runsHvf s' p = runsHvf s p := by
      rw [runsHvf_of_ne hcls, runsHvf_of_ne hcls']
    exact h.quiet hclock (not_initialises hidle) (not_puts hidle hruns) hruns
      (congrArg Record.charging hrec) hreads
  | tick c ha hp hcls hrec hstill =>
    subst ha
    have hidle := not_reachesClass (s := s) (a := .tick c) rfl rfl p
    have hruns := runsHvf_same hb.sound hb'.sound (hstill.schedClass p) (hstill.sameCpus p)
    have hreads : s'.reads = s.reads := congrArg Clocked.reads hrec
    exact h.quiet hclock (not_initialises hidle) (not_puts hidle hruns) hruns
      (congrArg (fun y => y.record.charging) hrec) (Nat.le_of_eq hreads.symm)
  | params c d1 d2 ct ha hp hacc hrec hreads hstill =>
    subst ha
    have hidle := not_reachesClass (s := s) (a := .setParams c d1 d2 ct) rfl rfl p
    have hruns := runsHvf_same hb.sound hb'.sound (hstill.schedClass p) (hstill.sameCpus p)
    refine h.quiet hclock (not_initialises hidle) (not_puts hidle hruns) hruns ?_ hreads
    rw [hrec]
    rfl
  | put c how hleave hp hcls hrec hreads hcls' hcpus =>
    exact h.put hclock hb hb' hleave hp hcls hrec hreads hcls' hcpus
  | dispatch c how n hleave hne hcls hrec hreads hcls' hcpus =>
    exact h.dispatch hclock hb hb' hleave hne hcls hrec hreads hcls' hcpus
  | enter dest hact hnew hcls hrec hstill =>
    have hinit : initialisesTask s a p = true := by
      unfold initialisesTask
      rw [hact, hnew, hcls]
      simp
    rw [nextSheet_fresh hinit]
    exact .fresh hclock hrec
  | stay htarget hcls hrec hcls' hcpus =>
    exact h.stay hclock hb hb' hok htarget hcls hrec hcls' hcpus
  | leave cls htarget hne hcls hrec hcls' => exact h.leave hclock htarget hne hcls hrec hcls'
  | join htarget hcls hrec hcls' hcpus =>
    exact h.join hclock hb hb' hok htarget hcls hrec hcls' hcpus
  | born c t hp hfork ht htask hs =>
    -- excluded: the fork has just created `p`
    unfold bornFrom at hborn
    rw [hfork] at hborn
    dsimp only at hborn
    rw [if_pos] at hborn
    · cases hborn
    · refine ⟨hp, ?_⟩
      rw [hs]
      exact Nat.succ_ne_self _

theorem Charged.born {L : Ledger} {parent : TaskId} (h : Charged E s parent (L parent))
    (hstep : HvfSched.step E s a = some s') (hborn : bornFrom s a s' p = some parent) :
    Charged E s' p ⟨(L parent).spans, none⟩ := by
  obtain ⟨hhvf, hcls, hreads⟩ := bornFrom_eq_some hstep hborn
  have hused : (s'.task p).record.used = (s.task parent).record.used := by
    show (s'.task p).hvf.timeUsed = _
    rw [hhvf]
    rfl
  have hfirst : (s'.task p).record.first = (s.task parent).record.first := by
    show (s'.task p).hvf.firstTime = _
    rw [hhvf]
    rfl
  have hruns := runsHvf_of_ne hcls
  constructor
  · rw [hused]
    exact h.used
  · rw [hfirst]
    exact h.first
  · rw [hruns]
    rfl
  · intro hr
    rw [hruns] at hr
    cases hr
  · rw [hfirst, hreads]
    exact h.chain_now

/-! ## Whole runs -/

theorem boot_charged (hclock : ClockRises E) (p : TaskId) : Charged E boot p (emptyLedger p) := by
  have hrec : (boot.task p).record.used = 0 ∧ (boot.task p).record.first = 0 := by
    cases p with
    | idle c => exact ⟨rfl, rfl⟩
    | task n => exact ⟨rfl, rfl⟩
  obtain ⟨hused, hfirst⟩ := hrec
  have hruns := runsHvf_of_ne (boot_not_hvf p)
  have hzero : (0 : Long).toInt = 0 := rfl
  constructor
  · rw [hused]
    rfl
  · rw [hfirst, hzero]
  · rw [hruns]
    rfl
  · intro hr
    rw [hruns] at hr
    cases hr
  · rw [hfirst, hzero]
    exact hclock.nonneg 0

theorem charging_charged {ok : Sys → Act → Prop} (hclock : ClockRises E)
    (hok : ∀ s a, ok s a → chargesKept s a) {x : Sys × Ledger} (h : Charging E ok x) :
    Base x.1 ∧ ∀ p, Charged E x.1 p (x.2 p) := by
  refine Reach.invariant (fun x => Base x.1 ∧ ∀ p, Charged E x.1 p (x.2 p)) ?_ ?_ h
  · rintro ⟨s, L⟩ ⟨rfl, rfl⟩
    exact ⟨boot_base, boot_charged hclock⟩
  · rintro ⟨s, L⟩ a ⟨s', L'⟩ ⟨hb, hc⟩ hk hstep
    obtain ⟨hs, hL⟩ := observed_eq_some hstep
    dsimp only at hs hL hb hc
    subst hL
    have hkept := hok s a hk
    have hb' := step_base hb hkept.1 hs
    refine ⟨hb', ?_⟩
    intro p
    show Charged E s' p (nextLedger E s a s' L p)
    unfold nextLedger
    split
    next parent hborn => exact (hc parent).born hs hborn
    next hborn => exact (hc p).step hclock hb hb' hkept hs hborn

/-- The report of a task that ends: it has not waited for less than no time. -/
theorem Charged.waitTime_nonneg {x : TimeSheet} (hclock : ClockRises E) (h : Charged E s p x)
    {i : Nat} (hi : s.reads ≤ i) (pid : Nat) :
    0 ≤ (s.task p).hvf.timeUsed ∧
      (s.task p).hvf.timeUsed.toInt ≤ stampAt E i - (s.task p).hvf.firstTime.toInt ∧
      0 ≤ (registerEntityInfo (E.clock i) (s.task p).hvf pid).waitTime := by
  have hchain := h.chain_now.mono (hclock.mono _ _ hi)
  have hlo := hchain.totalLength_nonneg
  have hhi := hchain.totalLength_le
  rw [← h.used] at hlo hhi
  have hlo : 0 ≤ (s.task p).hvf.timeUsed.toInt := hlo
  have hhi : (s.task p).hvf.timeUsed.toInt
      ≤ stampAt E i - (s.task p).hvf.firstTime.toInt := hhi
  have hfirst : 0 ≤ (s.task p).hvf.firstTime.toInt := h.first
  have hmax := (fits_toInt (stampMs (E.clock i))).2
  unfold stampAt at hhi
  have hturn : (stampMs (E.clock i) - (s.task p).hvf.firstTime).toInt
      = (stampMs (E.clock i)).toInt - (s.task p).hvf.firstTime.toInt :=
    toInt_sub_of_fits ⟨by omega, by omega⟩
  have hwait : (registerEntityInfo (E.clock i) (s.task p).hvf pid).waitTime.toInt
      = (stampMs (E.clock i)).toInt - (s.task p).hvf.firstTime.toInt
        - (s.task p).hvf.timeUsed.toInt := by
    show (stampMs (E.clock i) - (s.task p).hvf.firstTime - (s.task p).hvf.timeUsed).toInt = _
    rw [toInt_sub_of_fits, hturn]
    rw [hturn]
    exact ⟨by omega, by omega⟩
  have hzero : (0 : Long).toInt = 0 := rfl
  refine ⟨?_, hhi, ?_⟩
  · rw [Int64.le_iff_toInt_le, hzero]
    exact hlo
  · rw [Int64.le_iff_toInt_le, hzero, hwait]
    omega

/-- In every run in which no running task is put and set without being
initialised, the used time of a task is the length of the disjoint spans in
which it ran in the class, and its waiting time is not negative. -/
theorem cpu_time_charged_once (E : Env) (hclock : ClockRises E) (s : Sys) (L : Ledger)
    (h : Charging E chargesKept (s, L)) (p : TaskId) :
    (s.task p).hvf.timeUsed.toInt = totalLength (L p).spans ∧
    ((L p).spans.Pairwise (fun new old => old.2 ≤ new.1) ∧ ∀ x ∈ (L p).spans, x.1 ≤ x.2) ∧
    ∀ i pid, s.reads ≤ i →
      0 ≤ (s.task p).hvf.timeUsed ∧
      (s.task p).hvf.timeUsed.toInt ≤ stampAt E i - (s.task p).hvf.firstTime.toInt ∧
      0 ≤ (registerEntityInfo (E.clock i) (s.task p).hvf pid).waitTime := by
  have hc := (charging_charged hclock (fun _ _ hk => hk) h).2 p
  refine ⟨hc.used, ⟨hc.chain.pairwise, fun x hx => (hc.chain.span_le x hx).1⟩, ?_⟩
  intro i pid hi
  exact hc.waitTime_nonneg hclock hi pid

/-- A clock that ticks for a while and then stands still. -/
def steadyEnv : Env where
  rb := RbLib.plain TaskId
  clock i := ⟨1000, Int64.ofNat (min i 60) * 1000000⟩
  tickNsec := 200000000

theorem steadyEnv_stampAt (i : Nat) : stampAt steadyEnv i = 1000000 + (min i 60 : Nat) := by
  have hall : ∀ n < 61, (stampMs ⟨1000, Int64.ofNat n * 1000000⟩).toInt = 1000000 + (n : Int) := by
    decide +kernel
  exact hall _ (by omega)

theorem steadyEnv_rises : ClockRises steadyEnv where
  nonneg i := by
    rw [steadyEnv_stampAt]
    omega
  mono i j hij := by
    rw [steadyEnv_stampAt, steadyEnv_stampAt]
    omega

/-- A task that runs twice, with a sleep in between. -/
theorem cpu_time_charged_over_two_dispatches :
    ∃ s L, Charging steadyEnv chargesKept (s, L) ∧
      (L (.task 1)).spans = [(1000004, 1000005), (1000002, 1000003)] ∧
      ((s.task (.task 1)).hvf.timeUsed.toInt = totalLength (L (.task 1)).spans ∧
      ((L (.task 1)).spans.Pairwise (fun new old => old.2 ≤ new.1) ∧
        ∀ x ∈ (L (.task 1)).spans, x.1 ≤ x.2) ∧
      ∀ i pid, s.reads ≤ i →
        0 ≤ (s.task (.task 1)).hvf.timeUsed ∧
        (s.task (.task 1)).hvf.timeUsed.toInt
          ≤ stampAt steadyEnv i - (s.task (.task 1)).hvf.firstTime.toInt ∧
        0 ≤ (registerEntityInfo (steadyEnv.clock i) (s.task (.task 1)).hvf pid).waitTime) := by
  obtain ⟨⟨s, L⟩, hs, hspans⟩ := Charging.of_check (b := [(1000004, 1000005), (1000002, 1000003)])
    steadyEnv chargesKept (fun x => (x.2 (.task 1)).spans)
    (dispatchSecond ++ sleepOn 0 ++ [.wake 0 (.task 1) taskNormal 0,
      .schedule 0 .smNone ⟨false, false⟩ pickNone] ++ sleepOn 0)
    (by decide +kernel)
  exact ⟨s, L, hs, hspans, cpu_time_charged_once steadyEnv steadyEnv_rises s L hs (.task 1)⟩

/-- A running task is moved between groups twice and then sleeps: it ran for
three milliseconds and is charged six, and its waiting time is negative. -/
theorem moved_task_charged_twice :
    ClockRises steadyEnv ∧ ∃ s L, Charging steadyEnv (fun _ _ => True) (s, L) ∧
      (s.task (.task 1)).hvf.timeUsed = 6 ∧ totalLength (L (.task 1)).spans = 3 ∧
      (registerEntityInfo (steadyEnv.clock s.reads) (s.task (.task 1)).hvf 1).waitTime = -1 := by
  refine ⟨steadyEnv_rises, ?_⟩
  obtain ⟨⟨s, L⟩, hs, hf⟩ := Charging.of_check (b := ((6 : Long), (3 : Int), (-1 : Long)))
    steadyEnv (fun _ _ => True)
    (fun x => ((x.1.task (.task 1)).hvf.timeUsed, totalLength (x.2 (.task 1)).spans,
      (registerEntityInfo (steadyEnv.clock x.1.reads) (x.1.task (.task 1)).hvf 1).waitTime))
    (dispatchSecond ++ [.moveTask (.task 1), .moveTask (.task 1)] ++ sleepOn 0)
    (by decide +kernel)
  injection hf with hused hf
  injection hf with htotal hwait
  exact ⟨s, L, hs, hused, htotal, hwait⟩

end HvfSched
