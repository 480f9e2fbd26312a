import HvfSched.Queue.Put
import HvfSched.Values.Shape

/-!
# Recomputing the value of a task

An enqueue that wakes, migrates or restores a task computes its value anew
from the first time stamp and the parameters, whatever the value was before,
and punishes it for the time used so far. `dueValue` is the value as the
machine computes it, with the wraps of its products. The division traps when
the divisor wraps to zero (`DivisorOk` excludes it), and that is the only way
in which the enqueue fails.
-/

namespace HvfSched

open Lib Sys

variable {E : Env} {s s' : Sys} {c : Cpu} {p q : TaskId} {t : TaskStruct} {v : Long}

/-! ## The value -/

/-- What `compute_init_sched_value` leaves in the entity. -/
def dueValue (t : TaskStruct) : Long :=
  if t.dueAt < t.deadline1 * K then H
  else if t.deadline2 * K < t.dueAt then 0
  else (t.deadline2 * K - t.dueAt) * H / ((t.deadline2 - t.deadline1) * K)

/-- Between the deadlines their distance in milliseconds is not zero. -/
def DivisorOk (t : TaskStruct) : Prop :=
  t.dueAt < t.deadline1 * K ∨ t.deadline2 * K < t.dueAt ∨ (t.deadline2 - t.deadline1) * K ≠ 0

instance (t : TaskStruct) : Decidable (DivisorOk t) := inferInstanceAs (Decidable (_ ∨ _ ∨ _))

/-- A multiple of 1000 is even, also after a wrap. -/
theorem mul_K_ne_neg_one (a : Long) : a * K ≠ -1 := by
  intro h
  have hint := congrArg Int64.toInt h
  have hneg : (-1 : Long).toInt = -1 := by decide
  rw [Int64.toInt_mul, K_toInt, hneg] at hint
  unfold Int.bmod at hint
  dsimp only at hint
  split at hint
  next => omega
  next => omega

theorem machineDiv_mul_K (a b : Long) :
    machineDiv a (b * K) = if b * K ≠ 0 then .ok (a / (b * K)) else .error .divide := by
  unfold machineDiv
  by_cases hzero : b * K = 0
  · rw [if_pos (Or.inl hzero), if_neg (not_not.mpr hzero)]
  · rw [if_pos hzero, if_neg]
    rintro (h | ⟨-, h⟩)
    · exact hzero h
    · exact mul_K_ne_neg_one b h

theorem computeInitValue_eq_due (t : TaskStruct) :
    computeInitValue wrapv t.hvf.firstTime t.computationTime t.deadline1 t.deadline2
      = if DivisorOk t then .ok (dueValue t) else .error .divide := by
  rw [computeInitValue_wrapv_eq, machineDiv_mul_K]
  show (if t.dueAt < t.deadline1 * K then _ else if t.deadline2 * K < t.dueAt then _ else
    if (t.deadline2 - t.deadline1) * K ≠ 0 then _ else _ : Except Trap Long) = _
  unfold dueValue
  by_cases h₁ : t.dueAt < t.deadline1 * K
  · have hok : DivisorOk t := Or.inl h₁
    rw [if_pos h₁, if_pos h₁, if_pos hok]
  · rw [if_neg h₁, if_neg h₁]
    by_cases h₂ : t.deadline2 * K < t.dueAt
    · have hok : DivisorOk t := Or.inr (Or.inl h₂)
      rw [if_pos h₂, if_pos h₂, if_pos hok]
    · rw [if_neg h₂, if_neg h₂]
      have hok : DivisorOk t ↔ (t.deadline2 - t.deadline1) * K ≠ 0 := by
        refine ⟨?_, fun h => Or.inr (Or.inr h)⟩
        rintro (h | h | h)
        · exact absurd h h₁
        · exact absurd h h₂
        · exact h
      by_cases h₃ : (t.deadline2 - t.deadline1) * K ≠ 0
      · rw [if_pos h₃, if_pos (hok.mpr h₃)]
        rfl
      · rw [if_neg h₃, if_neg (fun h => h₃ (hok.mp h))]

/-! ## The enqueue -/

/-- The task with its value computed anew. -/
def TaskStruct.renewed (t : TaskStruct) : TaskStruct :=
  { t with hvf := { t.hvf with initSchedValue := dueValue t, currSchedValue := dueValue t } }

theorem computeInit_eq (p : TaskId) (s : Sys) :
    computeInit p s = if DivisorOk (s.task p) then .ok (s.setTask p (s.task p).renewed)
      else .error .divide := by
  unfold computeInit computeInitSchedValue
  rw [computeInitValue_eq_due]
  split
  next => rfl
  next => rfl

/-- The flags of an enqueue that computes the value anew, of a task that is
not new. -/
def renews (flags : Mask) : Bool :=
  !hasAny flags (enqueueInitial ||| enqueueChanged) &&
    hasAny flags (enqueueWakeup ||| enqueueMigrated ||| enqueueRestore)

/-- `enqueue_task` with such flags. -/
theorem enqueueTask_renews {flags : Mask} (hcls : (s.task p).schedClass = .hvf)
    (hflags : renews flags = true) :
    enqueueTask E c p flags s =
      if DivisorOk (s.task p) then
        if (s.rq c).hvf.curr ≠ some p ∧ (s.task p).hvf.onRq = false then
          .ok ((enqueueHvfEntity E c p (s.setTask p (s.task p).renewed)).addNrRunning c 1)
        else .ok (s.setTask p (s.task p).renewed)
      else .error .divide := by
  unfold renews at hflags
  rw [Bool.and_eq_true, Bool.not_eq_true'] at hflags
  obtain ⟨hold, hnew⟩ := hflags
  have hrefresh : refreshValue E p flags s = computeInit p s := by
    rw [refreshValue, hold, hnew]
    rfl
  rw [enqueueTask, if_pos hcls, enqueueTaskHvf, hrefresh, computeInit_eq]
  split
  next =>
    show (if (s.rq c).hvf.curr ≠ some p ∧
      ((s.setTask p (s.task p).renewed).task p).hvf.onRq = false then _ else _) = _
    rw [setTask_self]
    split
    next h => exact (if_pos h).symm
    next h => exact (if_neg h).symm
  next => rfl

/-- The value of a task that is linked after `used` milliseconds: computed
anew, and less a share for the square of the overrun. -/
def relinkValue (t : TaskStruct) (used : Long) : Long :=
  let overrun := used - t.computationTime
  let v := dueValue t
  if t.computationTime < used then settleValue v (v - overrun * overrun * v / 100) else v

theorem linkValue_renewed (t : TaskStruct) : linkValue t.renewed = relinkValue t t.hvf.timeUsed := by
  unfold linkValue penaltyIfExceeded relinkValue
  by_cases hover : t.computationTime < t.hvf.timeUsed
  · have hex : exceededTime t.renewed = true := decide_eq_true hover
    rw [if_pos hex, if_pos hover]
    rfl
  · have hex : ¬ exceededTime t.renewed = true := fun h => hover (of_decide_eq_true h)
    rw [if_neg hex, if_neg hover]
    rfl

end HvfSched
