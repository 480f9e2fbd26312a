import HvfSched.Tasks.Steps

/-!
# What a step does to a value

A step of the machine writes the value of one task at most: the running task
of the CPU that reschedules, the task that is activated, or the task whose
class is changed (`valueSubject`). On the way it may go through several of
the functions that compute values, each of which overwrites what the one
before it left.

What those functions are called with can be read off the state before the step
(`TaskStruct.budget`): whether the task is put, and so charged, whether it has a
slice to pay for, and whether its entity is enqueued or initialised (`Work`).
`Calls E B i t₀ t` says that `t₀` becomes `t` by calls with operands of the
budget `B`; `step_calls` that every value the step leaves behind comes about in
this way. Whatever holds of all `t` along `Calls` then holds after every single
call, and not only at the end of the step.
-/

namespace HvfSched

open Lib Sys

variable {E : Env} {s₀ s s' : Sys} {c : Cpu} {p q : TaskId} {t₀ t t' : TaskStruct} {n : Nat}

/-! ## Accounts -/

/-- What the functions on values read and write of a task. -/
structure Account where
  value : Long
  used : Long
  first : Long
  latest : Long
  expired : Bool
  params : Params
  parsSet : Bool

def TaskStruct.account (t : TaskStruct) : Account where
  value := t.hvf.currSchedValue
  used := t.hvf.timeUsed
  first := t.hvf.firstTime
  latest := t.hvf.latestTime
  expired := t.hvf.sliceExpired
  params := t.params
  parsSet := t.parsSet

/-- Nothing happened to any account, and the clock was not read. -/
structure SameAccounts (s s' : Sys) : Prop where
  account : ∀ q, (s'.task q).account = (s.task q).account
  reads : s'.reads = s.reads

namespace SameAccounts

theorem refl (s : Sys) : SameAccounts s s := ⟨fun _ => rfl, rfl⟩

theorem trans {s₁ : Sys} (h : SameAccounts s s₁) (h' : SameAccounts s₁ s') : SameAccounts s s' :=
  ⟨fun q => (h'.account q).trans (h.account q), h'.reads.trans h.reads⟩

theorem value (h : SameAccounts s s') (q : TaskId) : s'.value q = s.value q :=
  congrArg Account.value (h.account q)

theorem setTask (s : Sys) {p : TaskId} (ht : t.account = (s.task p).account) :
    SameAccounts s (s.setTask p t) := by
  refine ⟨?_, rfl⟩
  intro q
  rw [setTask_task]
  split
  next hq =>
    rw [hq]
    exact ht
  next => rfl

theorem setRq (s : Sys) (c : Cpu) (r : Rq) : SameAccounts s (s.setRq c r) := ⟨fun _ => rfl, rfl⟩

/-- A call that touches bookkeeping only. -/
theorem of_data (h : SameData s s') : SameAccounts s s' := by
  refine ⟨?_, h.reads⟩
  intro q
  have ha := congrArg TaskStruct.account (h.data q)
  exact ha

end SameAccounts

/-! ## Operands -/

/-- What a step does with the task it is about. -/
structure Work where
  /-- `put_prev_task_hvf` is called, -/
  puts : Bool
  /-- for a task in `TASK_RUNNING`, -/
  decays : Bool
  /-- which is not linked then -/
  links : Bool
  /-- `switching_to_hvf` is called -/
  enters : Bool
  /-- `enqueue_task_hvf` is called, -/
  enqueues : Bool
  /-- and initialises the entity -/
  inits : Bool

/-- What is made of the clock in a step that starts at reading `i`. No step
uses a reading after the third. -/
def readings {α : Type} (f : Timespec64 → α) (E : Env) (i : Nat) : List α :=
  (List.range 3).map fun k => f (E.clock (i + k))

theorem mem_readings {α : Type} {f : Timespec64 → α} {i j : Nat} (hlo : i ≤ j)
    (hhi : j ≤ i + 2) : f (E.clock j) ∈ readings f E i := by
  refine List.mem_map.mpr ⟨j - i, List.mem_range.mpr (by omega), ?_⟩
  rw [Nat.add_sub_cancel' hlo]

/-- What the functions on values are called with in a step: the times used that
`reduce_sched_value` takes, the times used and computation times that the link
of an entity compares, and the first times and parameters of
`compute_init_sched_value`. -/
structure Budget where
  reduces : List Long
  overruns : List (Long × Long)
  inits : List (Long × Params)

namespace TaskStruct

/-- The time used when the task was put, or as it is. -/
def usedBy (E : Env) (i : Nat) (w : Work) (t : TaskStruct) : Long :=
  if w.puts then t.hvf.timeUsed + (stampMs (E.clock i) - t.hvf.latestTime) else t.hvf.timeUsed

/-- The parameters an enqueue can find: those of the task, and defaults if it
has none. -/
def paramsSeen (E : Env) (i : Nat) (t : TaskStruct) : List Params :=
  (if t.parsSet = true ∨ t.schedClass = .hvf then [t.params] else []) ++
    (if t.parsSet then [] else readings defaultParams E i)

/-- The budget of a task for one step. -/
def budget (E : Env) (i : Nat) (w : Work) (t : TaskStruct) : Budget where
  reduces := if w.decays ∧ t.hvf.sliceExpired then [t.usedBy E i w] else []
  overruns :=
    (if w.decays ∧ w.links then [(t.usedBy E i w, t.computationTime)] else []) ++
    (if w.enqueues then
      (t.paramsSeen E i).map fun x => (if w.inits then 0 else t.usedBy E i w, x.computationTime)
    else [])
  inits :=
    (if t.parsSet = false ∧ (w.enters ∨ (w.enqueues ∧ w.inits)) then
      (readings defaultParams E i).map fun x => (t.hvf.firstTime, x)
    else []) ++
    (if w.enqueues then
      (t.paramsSeen E i).flatMap fun x =>
        (if w.inits then readings stampMs E i else [t.hvf.firstTime]).map fun f => (f, x)
    else [])

end TaskStruct

section Members

variable {i : Nat} {w : Work}

theorem mem_reduces (hd : w.decays = true) (he : t.hvf.sliceExpired = true) :
    t.usedBy E i w ∈ (t.budget E i w).reduces := by
  show _ ∈ if _ then _ else _
  rw [if_pos ⟨hd, he⟩]
  exact List.mem_singleton.mpr rfl

theorem mem_overruns_put (hd : w.decays = true) (hl : w.links = true) :
    (t.usedBy E i w, t.computationTime) ∈ (t.budget E i w).overruns := by
  refine List.mem_append_left _ ?_
  rw [if_pos ⟨hd, hl⟩]
  exact List.mem_singleton.mpr rfl

theorem mem_overruns {u : Long} {x : Params} (he : w.enqueues = true)
    (hu : u = if w.inits then 0 else t.usedBy E i w) (hx : x ∈ t.paramsSeen E i) :
    (u, x.computationTime) ∈ (t.budget E i w).overruns := by
  refine List.mem_append_right _ ?_
  rw [if_pos he, hu]
  exact List.mem_map.mpr ⟨x, hx, rfl⟩

theorem mem_inits_defaults {j : Nat} (hset : t.parsSet = false)
    (hw : w.enters = true ∨ (w.enqueues = true ∧ w.inits = true)) (hlo : i ≤ j) (hhi : j ≤ i + 2) :
    (t.hvf.firstTime, defaultParams (E.clock j)) ∈ (t.budget E i w).inits := by
  refine List.mem_append_left _ ?_
  rw [if_pos ⟨hset, hw⟩]
  exact List.mem_map.mpr ⟨_, mem_readings hlo hhi, rfl⟩

theorem mem_inits {f : Long} {x : Params} (he : w.enqueues = true)
    (hf : f ∈ if w.inits then readings stampMs E i else [t.hvf.firstTime])
    (hx : x ∈ t.paramsSeen E i) : (f, x) ∈ (t.budget E i w).inits := by
  refine List.mem_append_right _ ?_
  rw [if_pos he]
  exact List.mem_flatMap.mpr ⟨x, hx, List.mem_map.mpr ⟨f, hf, rfl⟩⟩

theorem paramsSeen_own (h : t.parsSet = true ∨ t.schedClass = .hvf) :
    t.params ∈ t.paramsSeen E i := by
  refine List.mem_append_left _ ?_
  rw [if_pos h]
  exact List.mem_singleton.mpr rfl

theorem paramsSeen_defaults {j : Nat} (h : t.parsSet = false) (hlo : i ≤ j) (hhi : j ≤ i + 2) :
    defaultParams (E.clock j) ∈ t.paramsSeen E i := by
  refine List.mem_append_right _ ?_
  rw [h]
  exact mem_readings hlo hhi

end Members

/-! ## Calls -/

/-- Calls of the functions on values with operands of the budget `B`, in a step
that starts at clock reading `i`. -/
inductive Calls (E : Env) (B : Budget) (i : Nat) (t₀ : TaskStruct) : TaskStruct → Prop
  | start : Calls E B i t₀ t₀
  | used : Calls E B i t₀ { t₀ with hvf := updateUsedSeHvf (E.clock i) t₀.hvf }
  | other {t t' : TaskStruct} (h : Calls E B i t₀ t) (ha : t'.account = t.account) :
      Calls E B i t₀ t'
  | reduce {t : TaskStruct} (h : Calls E B i t₀ t) (hm : t.hvf.timeUsed ∈ B.reduces) :
      Calls E B i t₀ { t with hvf := { reduceSchedValue t.hvf with sliceExpired := false } }
  | penalty {t : TaskStruct} (h : Calls E B i t₀ t)
      (hm : (t.hvf.timeUsed, t.computationTime) ∈ B.overruns) (hover : exceededTime t = true) :
      Calls E B i t₀ { t with hvf := penaltyHvfEntity t.hvf t.computationTime }
  | init {t t' : TaskStruct} (h : Calls E B i t₀ t) (hm : (t.hvf.firstTime, t.params) ∈ B.inits)
      (hc : computeInitSchedValue wrapv t = .ok t') : Calls E B i t₀ t'
  | stamp {t : TaskStruct} (j : Nat) (h : Calls E B i t₀ t) :
      Calls E B i t₀ { t with hvf := initSchedHvfEntity (E.clock j) t.hvf }
  | defaults {t t' : TaskStruct} (j : Nat) (h : Calls E B i t₀ t)
      (hm : t.parsSet = false → (t.hvf.firstTime, defaultParams (E.clock j)) ∈ B.inits)
      (hg : giveDefaultHvfValues (E.clock j) t = .ok t') : Calls E B i t₀ t'

/-- The initial value is written to the entity, and nothing else. -/
theorem computeInitSchedValue_rest (h : computeInitSchedValue wrapv t = .ok t') :
    t'.parsSet = t.parsSet ∧ t'.params = t.params ∧ t'.hvf.timeUsed = t.hvf.timeUsed ∧
      t'.hvf.firstTime = t.hvf.firstTime := by
  unfold computeInitSchedValue at h
  obtain ⟨v, -, h⟩ := bind_ok.mp h
  injection h with h
  rw [← h]
  exact ⟨rfl, rfl, rfl, rfl⟩

/-- A task without parameters gets the default ones. -/
theorem giveDefaultHvfValues_unset {now : Timespec64} (hset : t.parsSet = false)
    (h : giveDefaultHvfValues now t = .ok t') :
    t'.parsSet = true ∧ t'.params = defaultParams now ∧ t'.hvf.timeUsed = t.hvf.timeUsed ∧
      t'.hvf.firstTime = t.hvf.firstTime := by
  unfold giveDefaultHvfValues at h
  rw [if_neg (Bool.eq_false_iff.mp hset)] at h
  exact computeInitSchedValue_rest h

/-! ## The stages of `put_prev_task_hvf` -/

/-- The time since `latest_time` is added to the time used. -/
def Sys.withUsed (E : Env) (p : TaskId) (s : Sys) : Sys :=
  (s.tickClock).setEntity p (updateUsedSeHvf (s.now E) (s.task p).hvf)

/-- The decay for a used-up slice. -/
def Sys.reduced (p : TaskId) (s : Sys) : Sys := s.setEntity p (reduceIfExpired (s.task p).hvf)

theorem putPrevTaskHvf_eq (E : Env) (c : Cpu) (p : TaskId) (s : Sys) :
    putPrevTaskHvf E c p s =
      if (s.task p).isRunning then putPrevHvfEntity E c p (reduced p (withUsed E p s))
      else withUsed E p s := by
  have hstate : ((withUsed E p s).task p).isRunning = (s.task p).isRunning := by
    unfold Sys.withUsed
    rw [Sys.setEntity, setTask_self]
    rfl
  rw [← hstate]
  rfl

/-! ## The subject of a step -/

/-- In the middle of a step that began in `s₀` and does the work `w`: only `p` was
written, by `Calls`, and the clock was read at most `n` times. -/
structure Tracked (E : Env) (s₀ : Sys) (p : TaskId) (w : Work) (n : Nat) (s : Sys) : Prop where
  self : Calls E ((s₀.task p).budget E s₀.reads w) s₀.reads (s₀.task p) (s.task p)
  others : ∀ q, q ≠ p → s.value q = s₀.value q
  low : s₀.reads ≤ s.reads
  high : s.reads ≤ s₀.reads + n

/-- What an enqueue finds: the entity was not initialised in this step, and the
parameters are the task's own. -/
structure Pending (E : Env) (s₀ : Sys) (p : TaskId) (w : Work) (s : Sys) : Prop where
  used : (s.task p).hvf.timeUsed = (s₀.task p).usedBy E s₀.reads w
  first : (s.task p).hvf.firstTime = (s₀.task p).hvf.firstTime
  params : (s.task p).params ∈ (s₀.task p).paramsSeen E s₀.reads
  unset : (s.task p).parsSet = false → (s₀.task p).parsSet = false

/-- The put of `t` is part of the work. -/
structure Work.Puts (w : Work) (t : TaskStruct) : Prop where
  puts : w.puts = true
  decays : t.isRunning = true → w.decays = true
  links : t.isRunning = true → t.hvf.onRq = false → w.links = true

theorem Pending.of_same {w : Work} (hs : SameAccounts s₀ s) (hcls : (s₀.task p).schedClass = .hvf)
    (hw : w.puts = false) : Pending E s₀ p w s := by
  have hpar : (s.task p).params = (s₀.task p).params := congrArg Account.params (hs.account p)
  have hset : (s.task p).parsSet = (s₀.task p).parsSet := congrArg Account.parsSet (hs.account p)
  refine ⟨?_, congrArg Account.first (hs.account p), ?_, ?_⟩
  · have hused := congrArg Account.used (hs.account p)
    rw [TaskStruct.usedBy, if_neg (Bool.eq_false_iff.mp hw)]
    exact hused
  · rw [hpar]
    exact paramsSeen_own (Or.inr hcls)
  · rw [hset]
    exact id

theorem Pending.same {w : Work} (h : Pending E s₀ p w s) (hs : SameAccounts s s') :
    Pending E s₀ p w s' := by
  have hpar : (s'.task p).params = (s.task p).params := congrArg Account.params (hs.account p)
  have hset : (s'.task p).parsSet = (s.task p).parsSet := congrArg Account.parsSet (hs.account p)
  have hused := congrArg Account.used (hs.account p)
  have hfirst := congrArg Account.first (hs.account p)
  refine ⟨hused.trans h.used, hfirst.trans h.first, ?_, ?_⟩
  · rw [hpar]
    exact h.params
  · rw [hset]
    exact h.unset

namespace Tracked

variable {w : Work}

theorem of_same (hs : SameAccounts s₀ s) : Tracked E s₀ p w 0 s where
  self := .other .start (hs.account p)
  others q _ := hs.value q
  low := Nat.le_of_eq hs.reads.symm
  high := Nat.le_of_eq hs.reads

theorem same (h : Tracked E s₀ p w n s) (hs : SameAccounts s s') : Tracked E s₀ p w n s' where
  self := .other h.self (hs.account p)
  others q hq := (hs.value q).trans (h.others q hq)
  low := by
    rw [hs.reads]
    exact h.low
  high := by
    rw [hs.reads]
    exact h.high

theorem setTask (h : Tracked E s₀ p w n s)
    (ht : Calls E ((s₀.task p).budget E s₀.reads w) s₀.reads (s₀.task p) t) :
    Tracked E s₀ p w n (s.setTask p t) where
  self := by
    rw [setTask_self]
    exact ht
  others q hq := by
    rw [Sys.value, setTask_ne s t hq]
    exact h.others q hq
  low := h.low
  high := h.high

theorem tickClock (h : Tracked E s₀ p w n s) : Tracked E s₀ p w (n + 1) s.tickClock where
  self := h.self
  others := h.others
  low := Nat.le_succ_of_le h.low
  high := Nat.succ_le_succ h.high

theorem weaken {m : Nat} (h : Tracked E s₀ p w n s) (hnm : n ≤ m) : Tracked E s₀ p w m s :=
  ⟨h.self, h.others, h.low, Nat.le_trans h.high (Nat.add_le_add_left hnm _)⟩

theorem computeInit (h : Tracked E s₀ p w n s)
    (hm : ((s.task p).hvf.firstTime, (s.task p).params) ∈ ((s₀.task p).budget E s₀.reads w).inits)
    (hc : computeInit p s = .ok s') :
    Tracked E s₀ p w n s' ∧ (s'.task p).params = (s.task p).params ∧
      (s'.task p).hvf.timeUsed = (s.task p).hvf.timeUsed := by
  obtain ⟨t, ht, hs⟩ := computeInit_cases hc
  obtain ⟨-, hpar, hused, -⟩ := computeInitSchedValue_rest ht
  rw [hs]
  refine ⟨h.setTask (.init h.self hm ht), ?_, ?_⟩
  · rw [setTask_self]
    exact hpar
  · rw [setTask_self]
    exact hused

/-- After `give_default_hvf_values` the parameters are the task's own. -/
theorem giveDefaults (h : Tracked E s₀ p w n s) (hn : n ≤ 2)
    (hused : (s.task p).hvf.timeUsed = (s₀.task p).usedBy E s₀.reads w)
    (hfirst : (s.task p).hvf.firstTime = (s₀.task p).hvf.firstTime)
    (hown : (s.task p).parsSet = true → (s.task p).params ∈ (s₀.task p).paramsSeen E s₀.reads)
    (hunset : (s.task p).parsSet = false → (s₀.task p).parsSet = false)
    (hw : w.enters = true ∨ (w.enqueues = true ∧ w.inits = true))
    (hg : giveDefaults E p s = .ok s') : Tracked E s₀ p w (n + 1) s' ∧ Pending E s₀ p w s' := by
  rcases giveDefaults_cases hg with ⟨hset, hs⟩ | ⟨hset, t, ht, hs⟩
  · rw [hs]
    refine ⟨h.weaken (Nat.le_succ n), hused, hfirst, hown hset, hunset⟩
  · have hlow := h.low
    have hhigh := h.high
    obtain ⟨hset', hpar', hused', hfirst'⟩ := giveDefaultHvfValues_unset hset ht
    have hcall : Calls E ((s₀.task p).budget E s₀.reads w) s₀.reads (s₀.task p) t := by
      refine .defaults s.reads h.self (fun _ => ?_) ht
      rw [hfirst]
      exact mem_inits_defaults (hunset hset) hw hlow (by omega)
    rw [hs]
    refine ⟨h.tickClock.setTask hcall, ?_, ?_, ?_, ?_⟩
    · rw [setTask_self, hused', hused]
    · rw [setTask_self, hfirst', hfirst]
    · rw [setTask_self, hpar']
      exact paramsSeen_defaults (hunset hset) hlow (by omega)
    · rw [setTask_self, hset']
      exact fun hf => nomatch hf

/-- The value is computed anew. What the link compares then is in the budget. -/
theorem refreshValue {flags : Mask} (h : Tracked E s₀ p w n s) (hp : Pending E s₀ p w s)
    (hn : n ≤ 1) (henq : w.enqueues = true) (hentry : isEntry flags = w.inits)
    (hr : refreshValue E p flags s = .ok s') :
    Tracked E s₀ p w (n + 2) s' ∧ ((s'.task p).hvf.timeUsed, (s'.task p).computationTime) ∈
      ((s₀.task p).budget E s₀.reads w).overruns := by
  rcases refreshValue_cases hr with ⟨hflags, s₁, h₁, h₂⟩ | ⟨hflags, h₁ | hs⟩
  · have hinits : w.inits = true := hentry.symm.trans hflags
    obtain ⟨hg, hpg⟩ := h.giveDefaults (by omega) hp.used hp.first (fun _ => hp.params) hp.unset
      (Or.inr ⟨henq, hinits⟩) h₁
    have hlow := hg.low
    have hhigh := hg.high
    have hstamp := hg.tickClock.setTask (.stamp s₁.reads hg.self)
    have hm : (stampMs (E.clock s₁.reads), (s₁.task p).params) ∈
        ((s₀.task p).budget E s₀.reads w).inits := by
      refine mem_inits henq ?_ hpg.params
      rw [if_pos hinits]
      exact mem_readings hlow (by omega)
    obtain ⟨hc, hpar, hused⟩ := hstamp.computeInit (by rw [setTask_self]; exact hm) h₂
    refine ⟨hc, mem_overruns (x := (s'.task p).params) henq ?_ ?_⟩
    · rw [hused, setTask_self, if_pos hinits]
      rfl
    · rw [hpar, setTask_self]
      exact hpg.params
  · have hinits : w.inits = false := hentry.symm.trans hflags
    have hm : ((s.task p).hvf.firstTime, (s.task p).params) ∈
        ((s₀.task p).budget E s₀.reads w).inits := by
      refine mem_inits henq ?_ hp.params
      rw [hinits, hp.first]
      exact List.mem_singleton.mpr rfl
    obtain ⟨hc, hpar, hused⟩ := h.computeInit hm h₁
    refine ⟨hc.weaken (by omega), mem_overruns (x := (s'.task p).params) henq ?_ ?_⟩
    · rw [hused, hp.used, hinits, if_neg Bool.false_ne_true]
    · rw [hpar]
      exact hp.params
  · have hinits : w.inits = false := hentry.symm.trans hflags
    rw [hs]
    refine ⟨h.weaken (by omega), mem_overruns (x := (s.task p).params) henq ?_ hp.params⟩
    rw [hp.used, hinits, if_neg Bool.false_ne_true]

theorem enqueueHvfEntity (h : Tracked E s₀ p w n s)
    (hm : ((s.task p).hvf.timeUsed, (s.task p).computationTime) ∈
      ((s₀.task p).budget E s₀.reads w).overruns) :
    Tracked E s₀ p w n (enqueueHvfEntity E c p s) := by
  have hpen : Tracked E s₀ p w n (s.setTask p (penaltyIfExceeded (s.task p))) := by
    unfold penaltyIfExceeded
    split
    next hover => exact h.setTask (.penalty h.self hm hover)
    next => exact h.setTask h.self
  have hflag := SameAccounts.setTask (s.setTask p (penaltyIfExceeded (s.task p))) (p := p)
    (t := linkedTask (s.task p)) (by rw [setTask_self]; rfl)
  have hl := hpen.same hflag
  rw [setTask_setTask] at hl
  unfold HvfSched.enqueueHvfEntity
  dsimp only
  rw [Sys.setHvf, Sys.setEntity, setTask_setTask, setTask_self]
  exact hl.same (.setRq _ c _)

theorem enqueueTask {flags : Mask} (h : Tracked E s₀ p w n s) (hp : Pending E s₀ p w s)
    (hn : n ≤ 1) (henq : w.enqueues = true) (hentry : isEntry flags = w.inits)
    (he : enqueueTask E c p flags s = .ok s') : Tracked E s₀ p w (n + 2) s' := by
  rcases enqueueTask_cases he with ⟨-, he⟩ | ⟨-, hs⟩
  · obtain ⟨s₁, h₁, h₂⟩ := enqueueTaskHvf_cases he
    obtain ⟨hr, hm⟩ := h.refreshValue hp hn henq hentry h₁
    rcases h₂ with ⟨-, hs⟩ | ⟨-, hs⟩
    · rw [hs]
      exact (hr.enqueueHvfEntity hm).same (.setRq _ c _)
    · rw [hs]
      exact hr
  · rw [hs]
    exact (h.same (.setRq _ c _)).weaken (by omega)

/-- `put_prev_task` comes before every other reading of the clock. -/
theorem withUsed (hs : SameAccounts s₀ s) : Tracked E s₀ p w 1 (withUsed E p s) := by
  have hnow : s.now E = E.clock s₀.reads := congrArg E.clock hs.reads
  have hused : Calls E ((s₀.task p).budget E s₀.reads w) s₀.reads (s₀.task p)
      { s.task p with hvf := updateUsedSeHvf (s.now E) (s.task p).hvf } := by
    have hadd := congrArg
      (fun a : Account => { a with used := a.used + (stampMs (E.clock s₀.reads) - a.latest) })
      (hs.account p)
    refine .other .used ?_
    rw [hnow]
    exact hadd
  exact (of_same hs).tickClock.setTask hused

theorem reduced (h : Tracked E s₀ p w n s)
    (hm : (s.task p).hvf.sliceExpired = true →
      (s.task p).hvf.timeUsed ∈ ((s₀.task p).budget E s₀.reads w).reduces) :
    Tracked E s₀ p w n (reduced p s) := by
  unfold Sys.reduced reduceIfExpired
  split
  next hexp => exact h.setTask (.reduce h.self (hm hexp))
  next => exact h.setTask h.self

theorem putPrevHvfEntity (h : Tracked E s₀ p w n s)
    (hm : (s.task p).hvf.onRq = false → ((s.task p).hvf.timeUsed, (s.task p).computationTime) ∈
      ((s₀.task p).budget E s₀.reads w).overruns) :
    Tracked E s₀ p w n (putPrevHvfEntity E c p s) := by
  unfold HvfSched.putPrevHvfEntity
  dsimp only
  split
  next => exact h.same (.setRq _ c _)
  next hflag => exact (h.enqueueHvfEntity (hm (Bool.eq_false_iff.mpr hflag))).same (.setRq _ c _)

end Tracked

/-! ## The put -/

section Put

variable {w : Work}

theorem withUsed_self (E : Env) (p : TaskId) (s : Sys) :
    (withUsed E p s).task p
      = { s.task p with hvf := updateUsedSeHvf (s.now E) (s.task p).hvf } := by
  unfold Sys.withUsed
  rw [Sys.setEntity, setTask_self]
  rfl

theorem withUsed_used (hs : SameAccounts s₀ s) (hw : w.puts = true) :
    ((withUsed E p s).task p).hvf.timeUsed = (s₀.task p).usedBy E s₀.reads w := by
  have hnow : s.now E = E.clock s₀.reads := congrArg E.clock hs.reads
  have hused := congrArg
    (fun a : Account => a.used + (stampMs (E.clock s₀.reads) - a.latest)) (hs.account p)
  rw [withUsed_self, TaskStruct.usedBy, if_pos hw, hnow]
  exact hused

/-- What `put_prev_task_hvf` reduces by is in the budget. -/
theorem mem_reduces_withUsed (hs : SameAccounts s₀ s) (hw : w.Puts (s.task p))
    (hrun : (s.task p).isRunning = true)
    (hexp : ((withUsed E p s).task p).hvf.sliceExpired = true) :
    ((withUsed E p s).task p).hvf.timeUsed ∈ ((s₀.task p).budget E s₀.reads w).reduces := by
  have hexp₀ : (s.task p).hvf.sliceExpired = (s₀.task p).hvf.sliceExpired :=
    congrArg Account.expired (hs.account p)
  rw [withUsed_used hs hw.puts]
  refine mem_reduces (hw.decays hrun) ?_
  rw [withUsed_self] at hexp
  rw [← hexp₀]
  exact hexp

theorem reduceIfExpired_used (e : SchedHvfEntity) :
    (reduceIfExpired e).timeUsed = e.timeUsed := by
  unfold reduceIfExpired
  split
  next => rfl
  next => rfl

/-- What it compares when it links the entity is in the budget. -/
theorem mem_overruns_reduced (hs : SameAccounts s₀ s) (hw : w.Puts (s.task p))
    (hrun : (s.task p).isRunning = true)
    (hflag : ((reduced p (withUsed E p s)).task p).hvf.onRq = false) :
    (((reduced p (withUsed E p s)).task p).hvf.timeUsed,
        ((reduced p (withUsed E p s)).task p).computationTime) ∈
      ((s₀.task p).budget E s₀.reads w).overruns := by
  have hpar : (s.task p).computationTime = (s₀.task p).computationTime :=
    congrArg (fun a => a.params.computationTime) (hs.account p)
  have hself : (reduced p (withUsed E p s)).task p = { (withUsed E p s).task p with
      hvf := reduceIfExpired ((withUsed E p s).task p).hvf } := by
    unfold Sys.reduced
    rw [Sys.setEntity, setTask_self]
  have hused := reduceIfExpired_used ((withUsed E p s).task p).hvf
  rw [withUsed_used hs hw.puts] at hused
  have hlinked : (s.task p).hvf.onRq = false := by
    rw [hself] at hflag
    have hsame := reduceIfExpired_onRq ((withUsed E p s).task p).hvf
    rw [withUsed_self] at hsame
    rw [withUsed_self] at hflag
    exact hsame.symm.trans hflag
  rw [hself]
  show ((reduceIfExpired _).timeUsed, ((withUsed E p s).task p).computationTime) ∈ _
  rw [hused, withUsed_self]
  show (_, (s.task p).computationTime) ∈ _
  rw [hpar]
  exact mem_overruns_put (hw.decays hrun) (hw.links hrun hlinked)

theorem Tracked.putPrevTask (hs : SameAccounts s₀ s) (hw : w.Puts (s.task p)) :
    Tracked E s₀ p w 1 (putPrevTask E c p s) := by
  unfold HvfSched.putPrevTask
  split
  next =>
    have hused := withUsed (E := E) (p := p) (w := w) hs
    rw [putPrevTaskHvf_eq]
    split
    next hrun =>
      have hred := hused.reduced (mem_reduces_withUsed hs hw hrun)
      exact hred.putPrevHvfEntity (mem_overruns_reduced hs hw hrun)
    next => exact hused
  next => exact (of_same hs).weaken (Nat.zero_le 1)

/-- Of what an enqueue finds, a put writes the time used. -/
theorem Pending.putPrevTask (hs : SameAccounts s₀ s) (hcls₀ : (s₀.task p).schedClass = .hvf)
    (hcls : (s.task p).schedClass = .hvf) (hw : w.puts = true) :
    Pending E s₀ p w (putPrevTask E c p s) := by
  have hself := (On.putPrevTask E c p s).self
  rw [if_pos hcls] at hself
  have hused := congrArg (fun x => x.record.used) hself
  have hfirst := congrArg (fun x => x.record.first) hself
  have hpar := congrArg (fun x => x.record.params) hself
  have hset := congrArg (fun x => x.record.parsSet) hself
  have hfirst₀ := congrArg Account.first (hs.account p)
  have hpar₀ : (s.task p).params = (s₀.task p).params := congrArg Account.params (hs.account p)
  have hset₀ : (s.task p).parsSet = (s₀.task p).parsSet := congrArg Account.parsSet (hs.account p)
  refine ⟨?_, hfirst.trans hfirst₀, ?_, ?_⟩
  · have hadd := withUsed_used (E := E) (p := p) hs hw
    rw [withUsed_self] at hadd
    exact hused.trans hadd
  · have hmem : ((HvfSched.putPrevTask E c p s).task p).params = (s₀.task p).params :=
      hpar.trans hpar₀
    rw [hmem]
    exact paramsSeen_own (Or.inr hcls₀)
  · intro hunset
    exact hset₀.symm.trans (hset.symm.trans hunset)

end Put

/-! ## The halves of a class change -/

/-- The first half of a class change is part of the work. -/
structure Work.TakesOff (w : Work) (s : Sys) (p : TaskId) : Prop where
  puts : w.puts = s.isCurrent p
  decays : s.isCurrent p = true → (s.task p).isRunning = true → w.decays = true
  links : ((s.task p).hvf.onRq = false ∨
    ((s.task p).isQueued = true ∧ (s.rq (s.task p).cpu).hvf.curr ≠ some p)) → w.links = true

section Halves

variable {w : Work}

/-- A write of attributes does not matter. -/
theorem Work.TakesOff.of_body (hw : w.TakesOff s p) (ht : t.body = (s.task p).body) :
    w.TakesOff (s.setTask p t) p := by
  have hcpu : t.cpu = (s.task p).cpu := by
    have h := congrArg TaskStruct.cpu ht
    exact h
  have hrun : t.isRunning = (s.task p).isRunning := by
    have h := congrArg TaskStruct.isRunning ht
    exact h
  have hq : t.isQueued = (s.task p).isQueued := by
    have h := congrArg TaskStruct.isQueued ht
    exact h
  have hflag : t.hvf.onRq = (s.task p).hvf.onRq := by
    have h := congrArg (fun t : TaskStruct => t.hvf.onRq) ht
    exact h
  have hcurr : (s.setTask p t).isCurrent p = s.isCurrent p := by
    unfold Sys.isCurrent
    rw [setTask_self, hcpu]
    rfl
  refine ⟨?_, ?_, ?_⟩
  · rw [hcurr]
    exact hw.puts
  · rw [hcurr, setTask_self, hrun]
    exact hw.decays
  · rw [setTask_self, hflag, hq, hcpu]
    exact hw.links

/-- The put after the dequeue. -/
theorem Work.TakesOff.puts_of_dequeue {s₁ : Sys} (hw : w.TakesOff s p)
    (hcls : (s.task p).schedClass = .hvf) (hcurr : s.isCurrent p = true)
    (h₁ : ((s.task p).isQueued = true ∧ ∃ b, dequeueTask E (s.task p).cpu p s = .ok (b, s₁)) ∨
      ((s.task p).isQueued = false ∧ s₁ = s)) : w.Puts (s₁.task p) := by
  have hsame : w.Puts (s.task p) :=
    ⟨hw.puts.trans hcurr, hw.decays hcurr, fun _ hflag => hw.links (Or.inl hflag)⟩
  rcases h₁ with ⟨hq, b, hr⟩ | ⟨-, h₁⟩
  · have hstate := (dequeueTask_bits hr p).2
    have hrun : (s₁.task p).isRunning = (s.task p).isRunning := by
      unfold TaskStruct.isRunning
      rw [hstate]
    rcases dequeueTask_cases hr with ⟨-, hd⟩ | ⟨hno, -⟩
    · rcases dequeueTaskHvf_cases hd with ⟨⟨hne, -⟩, -⟩ | ⟨⟨-, hidle⟩, -⟩ | ⟨-, -, heq⟩
      · refine ⟨hw.puts.trans hcurr, ?_, fun _ _ => hw.links (Or.inr ⟨hq, hne⟩)⟩
        rw [hrun]
        exact hw.decays hcurr
      · rw [← hrun] at hidle
        refine ⟨hw.puts.trans hcurr, fun h => ?_, fun h => ?_⟩
        · exact absurd (hidle.symm.trans h) Bool.false_ne_true
        · exact absurd (hidle.symm.trans h) Bool.false_ne_true
      · injection heq with _ heq
        rw [heq]
        exact hsame
    · exact absurd hcls hno
  · rw [h₁]
    exact hsame

theorem takeOff_tracked (hs : SameAccounts s₀ s) (hcls₀ : (s₀.task p).schedClass = .hvf)
    (hcls : (s.task p).schedClass = .hvf) (hw : w.TakesOff s p) (h : takeOff E p s = .ok s') :
    Tracked E s₀ p w 1 s' ∧ Pending E s₀ p w s' := by
  obtain ⟨s₁, h₁, h₂⟩ := takeOff_cases h
  have hd : SameAccounts s₀ s₁ ∧ (s₁.task p).schedClass = .hvf := by
    rcases h₁ with ⟨-, b, hr⟩ | ⟨-, h₁⟩
    · have hdata := SameData.dequeueTask hr
      exact ⟨hs.trans (.of_data hdata), (schedClass_of_data (hdata.data p)).trans hcls⟩
    · rw [h₁]
      exact ⟨hs, hcls⟩
  rw [h₂]
  split
  next hcurr =>
    have hputs := hw.puts_of_dequeue hcls hcurr h₁
    exact ⟨.putPrevTask hd.1 hputs, .putPrevTask hd.1 hcls₀ hd.2 hputs.puts⟩
  next hcurr =>
    have hnone : w.puts = false := hw.puts.trans (Bool.eq_false_iff.mpr hcurr)
    exact ⟨(Tracked.of_same hd.1).weaken (Nat.zero_le 1), .of_same hd.1 hcls₀ hnone⟩

theorem Tracked.putBack {queued running : Bool} {flags : Mask} (h : Tracked E s₀ p w n s)
    (hp : Pending E s₀ p w s) (hn : n ≤ 1)
    (hw : queued = true → (s.task p).schedClass = .hvf → w.enqueues = true)
    (hentry : isEntry flags = w.inits)
    (hb : putBack E p queued running flags s = .ok s') : Tracked E s₀ p w (n + 2) s' := by
  rcases putBack_cases hb with ⟨hq, he⟩ | ⟨-, hs⟩
  · by_cases hcls : (s.task p).schedClass = .hvf
    · exact h.enqueueTask hp hn (hw hq hcls) hentry he
    · rcases enqueueTask_cases he with ⟨hcls', -⟩ | ⟨-, hs⟩
      · exact absurd hcls' hcls
      · rw [hs]
        exact (h.same (.setRq _ _ _)).weaken (by omega)
  · rw [hs]
    exact h.weaken (by omega)

/-- The `switching_to` hook, for a task of the class. -/
theorem checkClassChanging_old {cls : SchedClass} (hold : cls = .hvf)
    (hc : checkClassChanging E p cls s = .ok s') : s' = s := by
  rcases checkClassChanging_cases hc with ⟨hnew, -⟩ | ⟨-, hs⟩
  · exact absurd hold hnew.1
  · exact hs

/-- The hook, for a task that comes into the class. -/
theorem checkClassChanging_tracked {cls : SchedClass} (hs : SameAccounts s₀ s) (hold : cls ≠ .hvf)
    (hnew : (s.task p).schedClass = .hvf) (hputs : w.puts = false) (henters : w.enters = true)
    (hc : checkClassChanging E p cls s = .ok s') :
    Tracked E s₀ p w 1 s' ∧ Pending E s₀ p w s' := by
  rcases checkClassChanging_cases hc with ⟨-, hg⟩ | ⟨hsame, -⟩
  · have hpar : (s.task p).params = (s₀.task p).params := congrArg Account.params (hs.account p)
    have hset : (s.task p).parsSet = (s₀.task p).parsSet :=
      congrArg Account.parsSet (hs.account p)
    have hused := congrArg Account.used (hs.account p)
    have hfirst := congrArg Account.first (hs.account p)
    refine (Tracked.of_same (w := w) hs).giveDefaults (by omega) ?_ hfirst ?_ ?_ (Or.inl henters) hg
    · rw [TaskStruct.usedBy, if_neg (Bool.eq_false_iff.mp hputs)]
      exact hused
    · rw [hset, hpar]
      exact fun hown => paramsSeen_own (Or.inl hown)
    · rw [hset]
      exact id
  · exact absurd ⟨hold, hnew⟩ hsame

end Halves

/-! ## One step -/

/-- The task whose value a step may write. -/
def valueSubject (s : Sys) (a : Act) : Option TaskId :=
  match leaves s a, activates s a, classTarget s a with
  | some (c, _), _, _ =>
    if (s.task (s.rq c).curr).schedClass = .hvf then some (s.rq c).curr else none
  | none, some (p, _), _ => if (s.task p).schedClass = .hvf then some p else none
  | none, none, some (p, cls) =>
    if (s.task p).schedClass = .hvf ∨ cls = .hvf then some p else none
  | none, none, none => none

section Subject

variable {a : Act} {how : Links.Leave} {dest : Cpu} {cls : SchedClass}

theorem leaves_of_activates {x : TaskId × Cpu} (h : activates s a = some x) : leaves s a = none := by
  cases a with
  | wake => rfl
  | wakeNew => rfl
  | _ => cases h

theorem none_of_classTarget {x : TaskId × SchedClass} (h : classTarget s a = some x) :
    leaves s a = none ∧ activates s a = none := by
  cases a with
  | setscheduler => exact ⟨rfl, rfl⟩
  | setprio => exact ⟨rfl, rfl⟩
  | moveTask => exact ⟨rfl, rfl⟩
  | _ => cases h

theorem valueSubject_leaves (h : leaves s a = some (c, how))
    (hcls : (s.task (s.rq c).curr).schedClass = .hvf) : valueSubject s a = some (s.rq c).curr := by
  unfold valueSubject
  rw [h]
  exact if_pos hcls

theorem valueSubject_activates (h : activates s a = some (p, dest))
    (hcls : (s.task p).schedClass = .hvf) : valueSubject s a = some p := by
  unfold valueSubject
  rw [leaves_of_activates h, h]
  exact if_pos hcls

theorem valueSubject_change (h : classTarget s a = some (p, cls))
    (hcls : (s.task p).schedClass = .hvf ∨ cls = .hvf) : valueSubject s a = some p := by
  unfold valueSubject
  rw [(none_of_classTarget h).1, (none_of_classTarget h).2, h]
  exact if_pos hcls

end Subject

/-- What a step does with the task it may write. -/
def work (E : Env) (s : Sys) (a : Act) : Work :=
  match leaves s a, activates s a, classTarget s a with
  | some (c, how), _, _ =>
    let t := s.task (s.rq c).curr
    { puts := switchesTo E s a != some (s.rq c).curr
      decays := switchesTo E s a != some (s.rq c).curr && how.running t.isRunning
      links := !t.hvf.onRq
      enters := false
      enqueues := false
      inits := false }
  | none, some _, _ =>
    { puts := false, decays := false, links := false, enters := false, enqueues := true
      inits := a.isNew }
  | none, none, some (p, cls) =>
    let t := s.task p
    let old := t.schedClass == .hvf
    { puts := old && s.isCurrent p
      decays := old && s.isCurrent p && t.isRunning
      links := !t.hvf.onRq || (t.isQueued && (s.rq t.cpu).hvf.curr != some p)
      enters := !old && cls == .hvf
      enqueues := t.isQueued && cls == .hvf
      inits := a.initialises }
  | none, none, none =>
    { puts := false, decays := false, links := false, enters := false, enqueues := false
      inits := false }

/-! ## Up to the pick -/

/-- The state in which `__schedule` makes its pick, seen from the one in which
the step starts. -/
structure UpToPick (s s₀ s₁ : Sys) (c : Cpu) (how : Links.Leave) : Prop where
  start : (s₀.rq c).curr = (s.rq c).curr
  links : s₁.links = s₀.links.leave c (s.rq c).curr how
  curr : (s₁.rq c).curr = (s.rq c).curr
  schedClass : (s₁.task (s.rq c).curr).schedClass = (s.task (s.rq c).curr).schedClass
  same : SameAccounts s s₁

theorem upToPick {how : Links.Leave} {s₁ : Sys} {mode : SchedMode} {sig : Signals}
    (hstart : (s₀ = s ∧ (s.task (s.rq c).curr).state ≠ taskDead) ∨
      (how = .block ∧ s.isLive (s.rq c).curr = true ∧ s₀ = setTaskState (s.rq c).curr taskDead s))
    (hhow : how = leaveOf mode sig (s₀.task (s.rq c).curr))
    (hprev : leavePrev E c mode sig s₀ = .ok s₁) : UpToPick s s₀ s₁ c how := by
  have hs₀ : SameAccounts s s₀ ∧ (s₀.rq c).curr = (s.rq c).curr ∧
      (s₀.task (s.rq c).curr).schedClass = (s.task (s.rq c).curr).schedClass := by
    rcases hstart with ⟨h₀, -⟩ | ⟨-, -, h₀⟩
    · rw [h₀]
      exact ⟨.refl s, rfl, rfl⟩
    · rw [h₀]
      refine ⟨.setTask s (by rfl), rfl, ?_⟩
      rw [setTaskState, setTask_self]
  obtain ⟨hsame, hcurr, hcls⟩ := hs₀
  have hl : s₁.links = s₀.links.leave c (s.rq c).curr how := by
    rw [links_leavePrev hprev, hcurr, hhow]
  refine ⟨hcurr, hl, ?_, ?_, hsame.trans (.of_data (.leavePrev hprev))⟩
  · have hc := congrArg (fun l => (l.rq c).curr) hl
    exact (hc.trans (Links.leave_curr ..)).trans hcurr
  · exact (schedClass_of_data ((SameData.leavePrev hprev).data _)).trans hcls

section WorkOf

variable {a : Act} {how : Links.Leave} {dest : Cpu} {cls : SchedClass}

theorem work_activates (h : activates s a = some (p, dest)) :
    (work E s a).puts = false ∧ (work E s a).enqueues = true ∧ (work E s a).inits = a.isNew := by
  unfold work
  rw [leaves_of_activates h, h]
  exact ⟨rfl, rfl, rfl⟩

theorem work_change (h : classTarget s a = some (p, cls)) :
    ((s.task p).schedClass = .hvf → (work E s a).TakesOff s p) ∧
    ((s.task p).schedClass ≠ .hvf → (work E s a).puts = false ∧
      (cls = .hvf → (work E s a).enters = true)) ∧
    ((s.task p).isQueued = true → cls = .hvf → (work E s a).enqueues = true) ∧
    (work E s a).inits = a.initialises := by
  unfold work
  rw [(none_of_classTarget h).1, (none_of_classTarget h).2, h]
  refine ⟨fun hcls => ⟨?_, ?_, ?_⟩, fun hcls => ⟨?_, ?_⟩, ?_, rfl⟩
  · simp [hcls]
  · intro hcurr hrun
    simp [hcls, hcurr, hrun]
  · simp
  · simp [hcls]
  · simp [hcls]
  · intro hq hnew
    simp [hq, hnew]

/-- A step that goes on in another task does not go on in `prev`. -/
theorem switchesTo_ne {prev next : TaskId} (hto : next ≠ prev → switchesTo E s a = some next)
    (hne : next ≠ prev) : switchesTo E s a ≠ some prev := by
  rw [hto hne]
  exact fun h => hne (Option.some.inj h)

/-- A switch away from a task of the class puts it. -/
theorem work_leaves {s₁ : Sys} {mode : SchedMode} {sig : Signals} (h : leaves s a = some (c, how))
    (hstart : (s₀ = s ∧ (s.task (s.rq c).curr).state ≠ taskDead) ∨
      (how = .block ∧ s.isLive (s.rq c).curr = true ∧ s₀ = setTaskState (s.rq c).curr taskDead s))
    (hhow : how = leaveOf mode sig (s₀.task (s.rq c).curr))
    (hprev : leavePrev E c mode sig s₀ = .ok s₁)
    (hto : switchesTo E s a ≠ some (s.rq c).curr) :
    (work E s a).Puts (s₁.task (s.rq c).curr) := by
  have hput : (switchesTo E s a != some (s.rq c).curr) = true := bne_iff_ne.mpr hto
  have hup := upToPick hstart hhow hprev
  have hrunning : (s₁.task (s.rq c).curr).isRunning
      = how.running (s₀.task (s.rq c).curr).isRunning := by
    rw [← hup.start] at hhow ⊢
    exact leavePrev_isRunning hhow hprev
  have hlinked : (s₁.links.task (s.rq c).curr).linked
      = ((s₀.links.leave c (s.rq c).curr how).task (s.rq c).curr).linked := by
    rw [hup.links]
  -- a task that is still running was neither blocked nor unlinked
  have hsame : how ≠ .block → how.running (s₀.task (s.rq c).curr).isRunning
        = how.running (s.task (s.rq c).curr).isRunning ∧
      (s₁.task (s.rq c).curr).hvf.onRq = (s.task (s.rq c).curr).hvf.onRq := by
    intro hblock
    rcases hstart with ⟨hs₀, -⟩ | ⟨hb, -⟩
    · rw [hs₀] at hlinked ⊢
      refine ⟨rfl, hlinked.trans ?_⟩
      cases how with
      | stay => rfl
      | signalled =>
        show (if _ = _ then _ else _ : TaskLink).linked = _
        rw [if_pos rfl]
        rfl
      | block => exact absurd rfl hblock
    · exact absurd hb hblock
  unfold work
  rw [h]
  refine ⟨hput, fun hrun => ?_, fun hrun hflag => ?_⟩
  · rw [hrunning] at hrun
    cases hb : how with
    | block =>
      rw [hb] at hrun
      cases hrun
    | stay =>
      have hs := (hsame (by rw [hb]; decide)).1
      rw [hs, hb] at hrun
      show (_ && _) = true
      rw [hput, hrun]
      rfl
    | signalled =>
      show (_ && _) = true
      rw [hput]
      rfl
  · rw [hrunning] at hrun
    have hblock : how ≠ .block := by
      intro hb
      rw [hb] at hrun
      cases hrun
    rw [(hsame hblock).2] at hflag
    show (!_) = true
    rw [hflag]
    rfl

end WorkOf

theorem setNextTask_value {first : Bool} (h : setNextTask E c p first s = .ok s') (q : TaskId) :
    s'.value q = s.value q := by
  cases first with
  | false =>
    rw [setNextTask_false] at h
    injection h with h
    rw [h]
  | true =>
    unfold setNextTask at h
    split at h
    next =>
      rw [setNextTaskHvf, if_pos rfl, setNextHvfEntity] at h
      obtain ⟨s₁, h₁, h₂⟩ := bind_ok.mp h
      injection h₂ with h₂
      rw [← h₂, ← (SameAccounts.of_data (.dequeueIfOnRq h₁)).value q]
      unfold Sys.value
      rw [Sys.setHvf, setRq_task, Sys.setEntity, setTask_task]
      split
      next hq => rw [hq]; rfl
      next => rfl
    next =>
      injection h with h
      rw [h]

/-- The budget of a task in a step. -/
def Sys.budget (E : Env) (s : Sys) (a : Act) (p : TaskId) : Budget :=
  (s.task p).budget E s.reads (work E s a)

/-- The value of `q` after a step: the old one, or one that `Calls` computed. -/
def ValueFrom (E : Env) (s : Sys) (a : Act) (s' : Sys) (q : TaskId) : Prop :=
  s'.value q = s.value q ∨
    (valueSubject s a = some q ∧
      ∃ t, Calls E (s.budget E a q) s.reads (s.task q) t ∧ s'.value q = t.hvf.currSchedValue)

theorem Tracked.valueFrom {a : Act} (h : Tracked E s p (work E s a) n s')
    (ha : valueSubject s a = some p) (q : TaskId) : ValueFrom E s a s' q := by
  by_cases hq : q = p
  · rw [hq]
    exact Or.inr ⟨ha, s'.task p, h.self, rfl⟩
  · exact Or.inl (h.others q hq)

theorem ValueFrom.congr {a : Act} {s₁ : Sys} (h : ValueFrom E s a s₁ q)
    (hv : s'.value q = s₁.value q) : ValueFrom E s a s' q := by
  unfold ValueFrom
  rw [hv]
  exact h

theorem reschedule_valueFrom {a : Act} {how : Links.Leave} {next : TaskId} {s₁ s₂ : Sys}
    {mode : SchedMode} {sig : Signals} (hleave : leaves s a = some (c, how))
    (hstart : (s₀ = s ∧ (s.task (s.rq c).curr).state ≠ taskDead) ∨
      (how = .block ∧ s.isLive (s.rq c).curr = true ∧ s₀ = setTaskState (s.rq c).curr taskDead s))
    (hhow : how = leaveOf mode sig (s₀.task (s.rq c).curr))
    (hprev : leavePrev E c mode sig s₀ = .ok s₁)
    (hto : next ≠ (s.rq c).curr → switchesTo E s a = some next)
    (hset : putPrevSetNextTask E c (s.rq c).curr next s₁ = .ok s₂) (q : TaskId) :
    ValueFrom E s a s₂ q := by
  have hup := upToPick hstart hhow hprev
  rcases putPrevSetNextTask_cases hset with ⟨-, h₂⟩ | ⟨hne, hset⟩
  · rw [h₂]
    exact Or.inl (hup.same.value q)
  · refine ValueFrom.congr ?_ (setNextTask_value hset q)
    by_cases hcls : (s.task (s.rq c).curr).schedClass = .hvf
    · have hputs := work_leaves hleave hstart hhow hprev (switchesTo_ne hto hne)
      exact (Tracked.putPrevTask hup.same hputs).valueFrom (valueSubject_leaves hleave hcls) q
    · rw [putPrevTask, if_neg (by rw [hup.schedClass]; exact hcls)]
      exact Or.inl (hup.same.value q)

/-- `activate_task` passes the flags on, with `ENQUEUE_MIGRATED` at most. -/
theorem activateFlags_isEntry {a : Act} {flags : Mask} {P : Prop} [Decidable P]
    (h : isEntry flags = a.isNew ∧ isEntry (flags ||| enqueueMigrated) = a.isNew) :
    isEntry (if P then flags ||| enqueueMigrated else flags) = a.isNew := by
  split
  next => exact h.2
  next => exact h.1

theorem activate_valueFrom {a : Act} {dest thisCpu : Cpu} {v flags : Mask} {s₁ : Sys}
    (hact : activates s a = some (p, dest))
    (h : activateTask E dest p flags (setTaskCpu p dest (setTaskState p v s)) = .ok s₁)
    (hs : (v = taskRunning ∧ s' = wakeupPreempt thisCpu dest p s₁) ∨
      s' = setTaskState p taskRunning (wakeupPreempt thisCpu dest p s₁))
    (hentry : isEntry flags = a.isNew ∧ isEntry (flags ||| enqueueMigrated) = a.isNew) (q : TaskId) :
    ValueFrom E s a s' q := by
  have hstart : SameAccounts s (setTaskCpu p dest (setTaskState p v s)) :=
    (SameAccounts.setTask s (by rfl)).trans (.setTask _ (by rfl))
  have hcls₀ : ((setTaskCpu p dest (setTaskState p v s)).task p).schedClass
      = (s.task p).schedClass := by
    rw [setTaskCpu, setTask_self, setTaskState, setTask_self]
  have hend : s'.value q = s₁.value q := by
    have hw := SameAccounts.of_data (.wakeupPreempt thisCpu dest p s₁)
    rcases hs with ⟨-, hs⟩ | hs
    · rw [hs]
      exact hw.value q
    · rw [hs, value_setTaskState]
      exact hw.value q
  refine ValueFrom.congr ?_ hend
  obtain ⟨s₂, h₂, h₃⟩ := activateTask_cases h
  have hon : SameAccounts s₂ s₁ := by
    rw [h₃]
    exact .setTask s₂ (by rfl)
  refine ValueFrom.congr ?_ (hon.value q)
  by_cases hcls : (s.task p).schedClass = .hvf
  · obtain ⟨hputs, henq, hinits⟩ := work_activates (E := E) hact
    refine ((Tracked.of_same hstart).enqueueTask (.of_same hstart hcls hputs) (Nat.zero_le 1) henq
      ?_ h₂).valueFrom (valueSubject_activates hact hcls) q
    exact (activateFlags_isEntry hentry).trans hinits.symm
  · rw [enqueueTask, if_neg (by rw [hcls₀]; exact hcls)] at h₂
    injection h₂ with h₂
    rw [← h₂]
    exact Or.inl (hstart.value q)

theorem account_of_body (h : t.body = t'.body) : t.account = t'.account := by
  have ha := congrArg TaskStruct.account h
  exact ha

theorem clearHvfValues_value (t : TaskStruct) :
    (clearHvfValues t).hvf.currSchedValue = t.hvf.currSchedValue := by
  unfold clearHvfValues
  split
  next => rfl
  next => rfl

/-- A class change between two classes other than HVF. -/
theorem putBack_same {queued running : Bool} {flags : Mask}
    (hcls : (s.task p).schedClass ≠ .hvf) (h : putBack E p queued running flags s = .ok s') :
    SameAccounts s s' := by
  rcases putBack_cases h with ⟨-, he⟩ | ⟨-, hs⟩
  · rcases enqueueTask_cases he with ⟨hcls', -⟩ | ⟨-, hs⟩
    · exact absurd hcls' hcls
    · rw [hs]
      exact .setRq _ _ _
  · rw [hs]
    exact .refl s

theorem ClassChange.valueFrom {a : Act} {cls : SchedClass} (htarget : classTarget s a = some (p, cls))
    (h : ClassChange E p cls a.initialises s s') (q : TaskId) : ValueFrom E s a s' q := by
  obtain ⟨hbody₀, hcls₀, hoff, hbody, hcls, hmid, hback, hend, hentry, -⟩ := h
  next t₀ t s₁ s₂ s₃ running flags =>
  have hend' : s'.value q = s₃.value q := by
    rcases hend with h' | ⟨-, h'⟩ | ⟨c, h'⟩
    · rw [h']
    · rw [h', Sys.value, switchedFromHvf, setTask_task]
      split
      next hq => rw [clearHvfValues_value, hq, Sys.value]
      next => rfl
    · rw [h']
      rfl
  refine ValueFrom.congr ?_ hend'
  have hs₀ : SameAccounts s (s.setTask p t₀) := .setTask s (account_of_body hbody₀)
  have hs₁ : SameAccounts s₁ (s₁.setTask p t) := .setTask s₁ (account_of_body hbody)
  have hclsₘ : ((s₁.setTask p t).task p).schedClass = cls := by
    rw [setTask_self]
    exact hcls
  obtain ⟨hwold, hwnew, hwenq, hinits⟩ := work_change (E := E) htarget
  have hflags := hentry.trans hinits.symm
  have hcls₂ : (s₂.task p).schedClass = cls := (checkClassChanging_schedClass hmid).trans hclsₘ
  have henq : (s.task p).isQueued = true → (s₂.task p).schedClass = .hvf →
      (work E s a).enqueues = true := by
    intro hq hhvf
    exact hwenq hq (hcls₂.symm.trans hhvf)
  -- a task of the class is put and enqueued, one that enters it is enqueued only
  by_cases hold : (s.task p).schedClass = .hvf
  · have hcls' : ((s.setTask p t₀).task p).schedClass = .hvf := by
      rw [setTask_self, hcls₀]
      exact hold
    obtain ⟨ht, hp⟩ := takeOff_tracked hs₀ hold hcls' ((hwold hold).of_body hbody₀) hoff
    rw [checkClassChanging_old hold hmid] at hback henq
    exact ((ht.same hs₁).putBack (hp.same hs₁) (Nat.le_refl 1) henq hflags hback).valueFrom
      (valueSubject_change htarget (Or.inl hold)) q
  · have hold₀ : ((s.setTask p t₀).task p).schedClass ≠ .hvf := by
      rw [setTask_self, hcls₀]
      exact hold
    have hs := (hs₀.trans (.of_data (.takeOff hold₀ hoff))).trans hs₁
    by_cases hnew : cls = .hvf
    · obtain ⟨hputs, henters⟩ := hwnew hold
      obtain ⟨ht, hp⟩ := checkClassChanging_tracked hs hold (hclsₘ.trans hnew) hputs (henters hnew)
        hmid
      exact (ht.putBack hp (Nat.le_refl 1) henq hflags hback).valueFrom
        (valueSubject_change htarget (Or.inr hnew)) q
    · have hclsne : ((s₁.setTask p t).task p).schedClass ≠ .hvf := by
        rw [hclsₘ]
        exact hnew
      rw [checkClassChanging, if_neg (fun hc => hclsne hc.2)] at hmid
      injection hmid with hmid
      rw [← hmid] at hback
      exact Or.inl ((hs.trans (putBack_same hclsne hback)).value q)

theorem finishTaskSwitch_value (h : finishTaskSwitch E c p s = .ok s') (q : TaskId) :
    s'.value q = s.value q := by
  rcases finishTaskSwitch_cases h with ⟨-, s₁, h₁, hs⟩ | ⟨-, hs⟩
  · rw [hs]
    exact (SameAccounts.of_data (.dequeueIfOnRq h₁)).value q
  · rw [hs]
    rfl

/-- What a step does to the value of `q`. A new task has the value of its
parent. -/
theorem step_calls {a : Act} (h : step E s a = some s') (q : TaskId) :
    ValueFrom E s a s' q ∨
    (q = .task s.nextPid ∧ ∃ c, forks a = some c ∧ s'.value q = s.value (s.rq c).curr) := by
  cases step_case h with
  | quiet _ _ hv => exact Or.inl (Or.inl (hv q))
  | state _ _ _ _ _ _ _ hv => exact Or.inl (Or.inl (hv q))
  | reschedule c how next s₀ s₁ s₂ mode sig picks hleave hstart hhow hprev _ _ hset hs =>
    have hto := switchesTo_of_step h hleave hs
    refine Or.inl (ValueFrom.congr (reschedule_valueFrom hleave hstart hhow hprev hto hset q) ?_)
    rw [hs]
    exact (SameAccounts.of_data (.switchTo c _ next s₂)).value q
  | activate p dest thisCpu v flags s₁ hact _ _ _ _ ha hs hentry =>
    exact Or.inl (activate_valueFrom hact ha hs hentry q)
  | change p cls htarget _ hc => exact Or.inl (hc.valueFrom htarget q)
  | bury c p _ _ hf => exact Or.inl (Or.inl (finishTaskSwitch_value hf q))
  | fork c t hfork _ ht hs =>
    have hchild : t.hvf = (s.task (s.rq c).curr).hvf := schedFork_hvf ht
    rw [hs]
    by_cases hq : q = .task s.nextPid
    · refine Or.inr ⟨hq, c, hfork, ?_⟩
      rw [hq]
      have hself : (addTask (finishChild c t) s).task (.task s.nextPid) = finishChild c t :=
        if_pos rfl
      rw [Sys.value, hself, Sys.value, ← hchild]
      rfl
    · refine Or.inl (Or.inl ?_)
      have hne : (addTask (finishChild c t) s).task q = s.task q := if_neg hq
      rw [Sys.value, hne, Sys.value]

end HvfSched
