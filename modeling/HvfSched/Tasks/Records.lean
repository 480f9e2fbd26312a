import HvfSched.Links.Steps
import HvfSched.Queue.Entity

/-!
# The record of a task

Besides the value and the link of a task the class keeps a handful of fields
about it: the parameters, the time stamps, the time used, the run time within
a slice and the latch that says the slice is used up. Whatever a hook does to
these fields it does without a look at the trees or at the values of other
tasks, so it can be said once, as a function of the fields themselves.

* `Record` is those fields, and `Clocked` a record together with the number
  of clock readings taken so far, since most of the functions read the clock.
  The functions on `Clocked` are the hooks, seen from the record.
* `SameData` is for the calls that touch bookkeeping only: they leave every
  field of every task but state, queue position, CPU and link.
* `On p f s s'` says that a piece of the machine acts on the record of `p` as
  `f`, and on no other task at all. Two pieces compose (`On.trans`).
-/

namespace HvfSched

open Lib Sys

variable {E : Env} {s s' s₁ : Sys} {c : Cpu} {p q : TaskId} {t t' : TaskStruct}

/-! ## Records -/

/-- Deadlines and computation time as `set_scheduling_params` takes them. -/
structure Params where
  deadline1 : Long
  deadline2 : Long
  computationTime : Long
  deriving DecidableEq

def TaskStruct.params (t : TaskStruct) : Params := ⟨t.deadline1, t.deadline2, t.computationTime⟩

/-- The parameters `give_default_hvf_values` gives at a clock reading. -/
def defaultParams (now : Timespec64) : Params where
  deadline1 := now.tvSec + now.tvNsec / (K * K * K) + 4
  deadline2 := now.tvSec + now.tvNsec / (K * K * K) + 6
  computationTime := K

structure Record where
  params : Params
  parsSet : Bool
  first : Long
  latest : Long
  used : Long
  runtime : Long
  answers : Int32
  firstAnswer : Long
  expired : Bool

def TaskStruct.record (t : TaskStruct) : Record where
  params := t.params
  parsSet := t.parsSet
  first := t.hvf.firstTime
  latest := t.hvf.latestTime
  used := t.hvf.timeUsed
  runtime := t.hvf.runtime
  answers := t.hvf.cpuAnswers
  firstAnswer := t.hvf.cpuFirstAnswer
  expired := t.hvf.sliceExpired

/-- A record without its parameters. -/
def Record.timing (r : Record) : Record := { r with params := ⟨0, 0, 0⟩, parsSet := false }

/-- A record, and the clock readings taken so far. -/
structure Clocked where
  reads : Nat
  record : Record

def Sys.clocked (s : Sys) (p : TaskId) : Clocked := ⟨s.reads, (s.task p).record⟩

namespace Clocked

/-- `put_prev_task_hvf`: the time since `latest_time` is charged, and if the
task is still `TASK_RUNNING` the latch is released. -/
def put (E : Env) (running : Bool) (x : Clocked) : Clocked where
  reads := x.reads + 1
  record :=
    { x.record with
      used := x.record.used + (stampMs (E.clock x.reads) - x.record.latest)
      expired := if running then false else x.record.expired }

/-- `set_next_task_hvf` for a task that takes the CPU. -/
def dispatch (E : Env) (x : Clocked) : Clocked where
  reads := x.reads + 1
  record :=
    { x.record with
      latest := stampMs (E.clock x.reads)
      runtime := 0
      answers := x.record.answers + 1
      firstAnswer :=
        if x.record.answers + 1 = 1 then stampMs (E.clock x.reads) else x.record.firstAnswer }

/-- `give_default_hvf_values`. -/
def defaults (E : Env) (x : Clocked) : Clocked :=
  if x.record.parsSet then x
  else
    { reads := x.reads + 1
      record := { x.record with params := defaultParams (E.clock x.reads), parsSet := true } }

/-- `init_sched_hvf_entity`. -/
def init (E : Env) (x : Clocked) : Clocked where
  reads := x.reads + 1
  record :=
    { x.record with
      first := stampMs (E.clock x.reads)
      latest := stampMs (E.clock x.reads)
      used := 0
      answers := 0
      expired := false }

/-- An enqueue with `ENQUEUE_INITIAL` or `ENQUEUE_CHANGED`. -/
def enter (E : Env) (x : Clocked) : Clocked := (x.defaults E).init E

/-- `clear_hvf_values`. -/
def clear (x : Clocked) : Clocked :=
  if x.record.parsSet then { x with record := { x.record with params := ⟨0, 0, 0⟩, parsSet := false } }
  else x

/-- `task_tick_hvf`, for a task of value `v`. -/
def tick (E : Env) (v : Long) (x : Clocked) : Clocked :=
  { x with
    record :=
      { x.record with
        runtime := x.record.runtime + E.tickNsec
        expired := x.record.expired || x.record.runtime + E.tickNsec ≥ timeSlice v * K * K } }

/-- The stages of a class change that reach the record: the task is put if it
is running in the class, gets parameters when it enters the class, is
initialised by the enqueue if that says the task is new, and loses its
parameters when it leaves the class. -/
def change (E : Env) (isPut running enters isInit isCleared : Bool) (x : Clocked) : Clocked :=
  let x := if isPut then x.put E running else x
  let x := if enters then x.defaults E else x
  let x := if isInit then x.enter E else x
  if isCleared then x.clear else x

/-- Giving and clearing parameters leaves the other fields alone. -/
theorem timing_defaults (E : Env) (x : Clocked) :
    (x.defaults E).record.timing = x.record.timing := by
  unfold defaults
  split
  next => rfl
  next => rfl

theorem timing_clear (x : Clocked) : x.clear.record.timing = x.record.timing := by
  unfold clear
  split
  next => rfl
  next => rfl

end Clocked

/-! ## Calls that touch bookkeeping only -/

theorem dequeueTask_bits {r : Bool × Sys} (h : dequeueTask E c p s = .ok r) (q : TaskId) :
    (r.2.task q).schedClass = (s.task q).schedClass ∧ (r.2.task q).state = (s.task q).state := by
  have hl := links_dequeueTask h
  have hf := Links.dequeue_frame c p s.links
  have hcls := congrArg (fun x => (x.2.task q).schedClass) hl
  have hstate := congrArg (fun x => (x.2.task q).state) hl
  exact ⟨hcls.trans (hf.schedClass q), hstate.trans (hf.state q)⟩

/-- A task without its state, its position, its CPU and its link. -/
def TaskStruct.data (t : TaskStruct) : TaskStruct :=
  { t with
    state := taskRunning
    onRq := .off
    onCpu := false
    cpu := 0
    hvf := { t.hvf with onRq := false } }

theorem record_of_data (h : t.data = t'.data) : t.record = t'.record := by
  have hr := congrArg TaskStruct.record h
  exact hr

theorem schedClass_of_data (h : t.data = t'.data) : t.schedClass = t'.schedClass := by
  have hc := congrArg TaskStruct.schedClass h
  exact hc

structure SameData (s s' : Sys) : Prop where
  data : ∀ q, (s'.task q).data = (s.task q).data
  reads : s'.reads = s.reads

namespace SameData

theorem refl (s : Sys) : SameData s s := ⟨fun _ => rfl, rfl⟩

theorem trans (h : SameData s s₁) (h' : SameData s₁ s') : SameData s s' :=
  ⟨fun q => (h'.data q).trans (h.data q), h'.reads.trans h.reads⟩

theorem setTask (s : Sys) {p : TaskId} (ht : t.data = (s.task p).data) :
    SameData s (s.setTask p t) := by
  refine ⟨?_, rfl⟩
  intro q
  rw [setTask_task]
  split
  next hq =>
    rw [hq]
    exact ht
  next => rfl

theorem setRq (s : Sys) (c : Cpu) (r : Rq) : SameData s (s.setRq c r) := ⟨fun _ => rfl, rfl⟩

theorem dequeueHvfEntity (h : dequeueHvfEntity E c p s = .ok s') : SameData s s' := by
  unfold HvfSched.dequeueHvfEntity at h
  dsimp only at h
  split at h
  next =>
    injection h with h
    rw [← h]
    exact (setTask s (by rfl)).trans (setRq _ c _)
  next => cases h

theorem dequeueIfOnRq (h : dequeueIfOnRq E c p s = .ok s') : SameData s s' := by
  rcases dequeueIfOnRq_cases h with ⟨-, hd⟩ | ⟨-, hs⟩
  · exact dequeueHvfEntity hd
  · rw [hs]
    exact refl s

theorem dequeueTask {r : Bool × Sys} (h : dequeueTask E c p s = .ok r) : SameData s r.2 := by
  rcases dequeueTask_cases h with ⟨-, hd⟩ | ⟨-, hr⟩
  · rcases dequeueTaskHvf_cases hd with ⟨-, s₁, h₁, hr⟩ | ⟨-, s₁, h₁, hr⟩ | ⟨-, -, hr⟩
    · rw [hr]
      exact (dequeueHvfEntity h₁).trans (setRq _ c _)
    · rw [hr]
      exact ((dequeueIfOnRq h₁).trans (setRq _ c _)).trans (setRq _ c _)
    · rw [hr]
      exact refl s
  · rw [hr]
    exact setRq _ c _

theorem leavePrev {mode : SchedMode} {sig : Signals} (h : leavePrev E c mode sig s = .ok s') :
    SameData s s' := by
  rcases leavePrev_cases h with ⟨-, ⟨-, hs⟩ | ⟨-, hb⟩⟩ | ⟨-, hs⟩
  · rw [hs]
    exact setTask s (by rfl)
  · obtain ⟨b, s₁, h₁, hs⟩ := blockTask_cases hb
    have hd : SameData s s₁ := dequeueTask h₁
    rw [hs]
    split
    next => exact hd.trans (setTask s₁ (by rfl))
    next => exact hd
  · rw [hs]
    exact refl s

/-- The first half of a class change, when the class is not HVF. -/
theorem takeOff (hcls : (s.task p).schedClass ≠ .hvf) (h : takeOff E p s = .ok s') :
    SameData s s' := by
  obtain ⟨s₁, h₁, hs⟩ := takeOff_cases h
  have hd : SameData s s₁ := by
    rcases h₁ with ⟨-, b, hr⟩ | ⟨-, h₁⟩
    · exact dequeueTask hr
    · rw [h₁]
      exact refl s
  have hcls₁ : (s₁.task p).schedClass ≠ .hvf := by
    rw [schedClass_of_data (hd.data p)]
    exact hcls
  rw [hs, putPrevTask, if_neg hcls₁, ite_self]
  exact hd

theorem wakeupPreempt (thisCpu c : Cpu) (p : TaskId) (s : Sys) :
    SameData s (wakeupPreempt thisCpu c p s) := by
  rcases wakeupPreempt_cases thisCpu c p s with hs | hs
  · rw [hs]
    exact refl s
  · rw [hs]
    exact setRq _ c _

theorem switchTo (c : Cpu) (prev next : TaskId) (s : Sys) :
    SameData s (switchTo c prev next s) := by
  unfold HvfSched.switchTo
  split
  next => exact setRq _ c _
  next =>
    have hprev : SameData s (setOnCpu prev false s) := setTask s (by rfl)
    have hnext := setTask (t := { (setOnCpu prev false s).task next with onCpu := true })
      (setOnCpu prev false s) (p := next) rfl
    exact (hprev.trans hnext).trans (setRq _ c _)

end SameData

/-! ## Calls that act on one record -/

structure On (p : TaskId) (f : Clocked → Clocked) (s s' : Sys) : Prop where
  self : s'.clocked p = f (s.clocked p)
  others : ∀ q, q ≠ p → (s'.task q).data = (s.task q).data

namespace On

variable {f g : Clocked → Clocked}

theorem trans (h : On p f s s₁) (h' : On p g s₁ s') : On p (fun x => g (f x)) s s' where
  self := by rw [h'.self, h.self]
  others q hq := (h'.others q hq).trans (h.others q hq)

/-- What counts is the function at the record there is. -/
theorem congr (h : On p f s s') (hx : g (s.clocked p) = f (s.clocked p)) : On p g s s' :=
  ⟨h.self.trans hx.symm, h.others⟩

theorem of_same (h : SameData s s') : On p (fun x => x) s s' where
  self := by rw [Sys.clocked, Sys.clocked, h.reads, record_of_data (h.data p)]
  others q _ := h.data q

theorem then_same (h : On p f s s₁) (h' : SameData s₁ s') : On p f s s' := h.trans (of_same h')

theorem after_same (h : SameData s s₁) (h' : On p f s₁ s') : On p f s s' := (of_same h).trans h'

/-- A write to the task that leaves the clock alone. -/
theorem setTask (ht : ⟨s.reads, t.record⟩ = f (s.clocked p)) : On p f s (s.setTask p t) where
  self := by
    rw [← ht, Sys.clocked, setTask_self]
    rfl
  others q hq := by rw [setTask_ne s t hq]

/-- A write to the task after one reading of the clock. -/
theorem setTask_tickClock (ht : ⟨s.reads + 1, t.record⟩ = f (s.clocked p)) :
    On p f s (s.tickClock.setTask p t) where
  self := by
    rw [← ht, Sys.clocked, setTask_self]
    rfl
  others q hq := by
    rw [setTask_ne _ t hq]
    rfl

theorem giveDefaults (h : giveDefaults E p s = .ok s') : On p (fun x => x.defaults E) s s' := by
  rcases giveDefaults_cases h with ⟨hset, hs⟩ | ⟨hunset, t, ht, hs⟩
  · rw [hs]
    refine ⟨?_, fun _ _ => rfl⟩
    have hx : (s.clocked p).record.parsSet = true := hset
    rw [Clocked.defaults, if_pos hx]
  · rw [hs]
    refine setTask_tickClock ?_
    have hx : ¬ (s.clocked p).record.parsSet = true := Bool.eq_false_iff.mp hunset
    rw [Clocked.defaults, if_neg hx]
    rw [giveDefaultHvfValues, if_neg (Bool.eq_false_iff.mp hunset)] at ht
    unfold computeInitSchedValue at ht
    obtain ⟨v, -, ht⟩ := bind_ok.mp ht
    injection ht with ht
    rw [← ht]
    rfl

theorem computeInit (h : computeInit p s = .ok s') : On p (fun x => x) s s' := by
  obtain ⟨t, ht, hs⟩ := computeInit_cases h
  rw [hs]
  refine setTask ?_
  unfold computeInitSchedValue at ht
  obtain ⟨v, -, ht⟩ := bind_ok.mp ht
  injection ht with ht
  rw [← ht]
  rfl

theorem refreshValue {flags : Mask} (h : refreshValue E p flags s = .ok s') :
    On p (fun x => if isEntry flags then x.enter E else x) s s' := by
  rcases refreshValue_cases h with ⟨hentry, s₁, h₁, h₂⟩ | ⟨hplain, hrest⟩
  · have hinit : On p (fun x => x.init E) s₁
        (s₁.tickClock.setEntity p (initSchedHvfEntity (s₁.now E) (s₁.task p).hvf)) :=
      setTask_tickClock rfl
    have hall := ((giveDefaults h₁).trans hinit).trans (computeInit h₂)
    exact hall.congr (if_pos hentry)
  · have hsame : On p (fun x => x) s s' := by
      rcases hrest with h₁ | hs
      · exact computeInit h₁
      · rw [hs]
        exact of_same (.refl s)
    exact hsame.congr (if_neg (Bool.eq_false_iff.mp hplain))

theorem enqueueHvfEntity (E : Env) (c : Cpu) (p : TaskId) (s : Sys) :
    On p (fun x => x) s (enqueueHvfEntity E c p s) := by
  have htask := enqueueHvfEntity_task E c p s
  refine ⟨?_, ?_⟩
  · have hreads : (HvfSched.enqueueHvfEntity E c p s).reads = s.reads := rfl
    rw [Sys.clocked, hreads, htask, if_pos rfl]
    unfold linkedTask penaltyIfExceeded
    split
    next => rfl
    next => rfl
  · intro q hq
    rw [htask, if_neg hq]

theorem enqueueTask {flags : Mask} (h : enqueueTask E c p flags s = .ok s') :
    On p (fun x => if (s.task p).schedClass = .hvf ∧ isEntry flags = true then x.enter E else x)
      s s' := by
  rcases enqueueTask_cases h with ⟨hcls, he⟩ | ⟨hcls, hs⟩
  · obtain ⟨s₁, h₁, h₂⟩ := enqueueTaskHvf_cases he
    have hend : On p (fun x => x) s₁ s' := by
      rcases h₂ with ⟨-, hs⟩ | ⟨-, hs⟩
      · rw [hs]
        exact (enqueueHvfEntity E c p s₁).then_same (.setRq _ c _)
      · rw [hs]
        exact of_same (.refl s₁)
    refine ((refreshValue h₁).trans hend).congr ?_
    simp only [hcls, true_and]
  · rw [hs]
    exact (of_same (.setRq s c _)).congr (if_neg fun hc => hcls hc.1)

theorem putPrevTask (E : Env) (c : Cpu) (p : TaskId) (s : Sys) :
    On p (fun x => if (s.task p).schedClass = .hvf then x.put E (s.task p).isRunning else x) s
      (putPrevTask E c p s) := by
  unfold HvfSched.putPrevTask
  split
  next =>
    unfold putPrevTaskHvf
    dsimp only
    rw [Sys.setEntity, setTask_self]
    have hrunning : ∀ e : SchedHvfEntity,
        ({ s.tickClock.task p with hvf := e } : TaskStruct).isRunning = (s.task p).isRunning :=
      fun _ => rfl
    rw [hrunning]
    split
    next hrun =>
      have hput : On p (fun x => x.put E true) s
          (s.tickClock.setTask p { s.task p with
            hvf := reduceIfExpired (updateUsedSeHvf (s.now E) (s.task p).hvf) }) := by
        refine setTask_tickClock ?_
        unfold reduceIfExpired
        split
        next => rfl
        next hflag =>
          have hfalse : (s.task p).hvf.sliceExpired = false := Bool.eq_false_iff.mpr hflag
          have hkeep : (s.task p).record.expired = false := hfalse
          rw [Clocked.put, if_pos rfl, ← hkeep]
          rfl
      have hend : ∀ s₁ : Sys, On p (fun x => x) s₁ (putPrevHvfEntity E c p s₁) := by
        intro s₁
        unfold putPrevHvfEntity
        dsimp only
        split
        next => exact of_same (.setRq s₁ c _)
        next => exact (enqueueHvfEntity E c p s₁).then_same (.setRq _ c _)
      have hall := hput.trans (hend _)
      rw [hrun, Sys.setEntity, setTask_setTask, setTask_self]
      exact hall
    next hsleep =>
      rw [Bool.eq_false_iff.mpr hsleep]
      exact setTask_tickClock rfl
  next => exact of_same (.refl s)

theorem setNextTask (h : setNextTask E c p true s = .ok s') :
    On p (fun x => if (s.task p).schedClass = .hvf then x.dispatch E else x) s s' := by
  rcases setNextTask_cases h with ⟨hcls, s₁, h₁, hs⟩ | ⟨hcls, hs⟩
  · rw [hs]
    have hstamp : On p (fun x => x.dispatch E) s₁
        (s₁.tickClock.setEntity p (updateLatestSeHvf (s₁.now E) (s₁.task p).hvf)) :=
      setTask_tickClock rfl
    refine ((after_same (.dequeueIfOnRq h₁) hstamp).then_same (.setRq _ c _)).congr ?_
    exact if_pos hcls
  · rw [hs]
    exact (of_same (.refl s)).congr (if_neg hcls)
end On

end HvfSched
