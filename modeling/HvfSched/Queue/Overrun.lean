import HvfSched.Queue.Put
import HvfSched.Values.Share

/-!
# What an overrun costs

A running task that has used up its slice is put back in two steps. The first,
`reduce_sched_value`, takes a share for the time used. The second is the
penalty of the enqueue: it takes a share for the square of the overrun, from
what the first one has left. Each of the two lifts a value of zero to ten. If
the first update uses the value up, the second one lifts it, and only a task
that has overrun gets there: it is put back with ten, where a task with more
computation time is put back with nothing (`overrun_pays`).

`overrun_never_pays_iff` compares any two such tasks that differ in their
computation time. It asks nothing of the machines they run on, of their clocks,
or of their queues.
-/

namespace HvfSched

open Lib

/-! ## In exact numbers -/

/-- The value after both updates. -/
def requeued (v used ct : Int) : Int :=
  if ct < used then lessShare (lessShare v used) ((used - ct) * (used - ct)) else lessShare v used

/-- More computation time does not make the value smaller, unless it keeps a
task whose value is used up from being lifted. -/
theorem requeued_le_iff {v used ct ct' : Int} (hv : 0 ≤ v) (hct : ct ≤ ct') :
    requeued v used ct ≤ requeued v used ct' ↔ v = 0 ∨ used < 100 ∨ used ≤ ct ∨ ct' < used := by
  have hzero := lessShare_eq_zero_iff hv used
  have hleft := lessShare_nonneg v used
  unfold requeued
  by_cases hover' : ct' < used
  · -- both have overrun, the first one by more
    have hsq : (used - ct') * (used - ct') ≤ (used - ct) * (used - ct) :=
      Int.mul_le_mul (by omega) (by omega) (by omega) (by omega)
    rw [if_pos hover', if_pos (by omega)]
    simp only [hover', or_true, iff_true]
    exact lessShare_antitone hleft hsq
  · rw [if_neg hover']
    by_cases hover : ct < used
    · rw [if_pos hover]
      by_cases hused : lessShare v used = 0
      · -- only the first one is lifted
        rw [hused, lessShare_zero]
        have hboth := hzero.mp hused
        omega
      · have hsome : 0 < lessShare v used := by omega
        have hsq : 0 ≤ (used - ct) * (used - ct) := Int.mul_nonneg (by omega) (by omega)
        have hle := lessShare_le_of_pos hsome hsq
        have hnot := mt hzero.mpr hused
        exact iff_of_true hle (by omega)
    · rw [if_neg hover]
      exact iff_of_true (Int.le_refl _) (by omega)

/-! ## The machine -/

/-- `time_used` of the running task once `put_prev_task_hvf` has charged it. -/
def Sys.chargedTime (E : Env) (s : Sys) (p : TaskId) : Long :=
  (updateUsedSeHvf (s.now E) (s.task p).hvf).timeUsed

/-- `p` is put back with its slice used up, and no product of the two updates
overflows. The penalty is for a task that is not linked. -/
structure PutExpired (E : Env) (s : Sys) (p : TaskId) : Prop where
  running : (s.task p).isRunning = true
  expired : (s.task p).hvf.sliceExpired = true
  value : OnScale (s.value p)
  used : 0 ≤ s.chargedTime E p
  rate : Fits ((s.chargedTime E p).toInt * (s.value p).toInt)
  penalty : (s.task p).hvf.onRq = false → (s.task p).computationTime < s.chargedTime E p →
    Fits (((s.chargedTime E p).toInt - (s.task p).computationTime.toInt)
      * ((s.chargedTime E p).toInt - (s.task p).computationTime.toInt)) ∧
    Fits (((s.chargedTime E p).toInt - (s.task p).computationTime.toInt)
      * ((s.chargedTime E p).toInt - (s.task p).computationTime.toInt)
      * lessShare (s.value p).toInt (s.chargedTime E p).toInt)

instance (E : Env) (s : Sys) (p : TaskId) : Decidable (PutExpired E s p) :=
  decidable_of_iff
    ((s.task p).isRunning = true ∧ (s.task p).hvf.sliceExpired = true ∧ OnScale (s.value p) ∧
      0 ≤ s.chargedTime E p ∧ Fits ((s.chargedTime E p).toInt * (s.value p).toInt) ∧
      ((s.task p).hvf.onRq = false → (s.task p).computationTime < s.chargedTime E p →
        Fits (((s.chargedTime E p).toInt - (s.task p).computationTime.toInt)
          * ((s.chargedTime E p).toInt - (s.task p).computationTime.toInt)) ∧
        Fits (((s.chargedTime E p).toInt - (s.task p).computationTime.toInt)
          * ((s.chargedTime E p).toInt - (s.task p).computationTime.toInt)
          * lessShare (s.value p).toInt (s.chargedTime E p).toInt)))
    ⟨fun ⟨h₁, h₂, h₃, h₄, h₅, h₆⟩ => ⟨h₁, h₂, h₃, h₄, h₅, h₆⟩,
      fun h => ⟨h.running, h.expired, h.value, h.used, h.rate, h.penalty⟩⟩

namespace PutExpired

variable {E : Env} {s : Sys} {p : TaskId}

/-- The first update. -/
theorem reduced_toInt (h : PutExpired E s p) :
    (settleValue (s.value p) (s.value p - s.chargedTime E p * s.value p / 100)).toInt
      = lessShare (s.value p).toInt (s.chargedTime E p).toInt :=
  settle_toInt h.value (Int64.le_iff_toInt_le.mp h.used) h.rate

/-- A task that is linked is reduced only. -/
theorem value_of_linked (h : PutExpired E s p) (hlink : (s.task p).hvf.onRq = true) (c : Cpu) :
    ((putPrevTaskHvf E c p s).value p).toInt
      = lessShare (s.value p).toInt (s.chargedTime E p).toInt := by
  rw [← h.reduced_toInt, putPrevTaskHvf_value h.running, requeueValue, hlink, h.expired]
  rfl

/-- A task that is not linked goes through both updates. -/
theorem value_of_unlinked (h : PutExpired E s p) (hlink : (s.task p).hvf.onRq = false) (c : Cpu) :
    ((putPrevTaskHvf E c p s).value p).toInt
      = requeued (s.value p).toInt (s.chargedTime E p).toInt (s.task p).computationTime.toInt := by
  have hfirst := h.reduced_toInt
  have hshow : requeueValue E s p
      = let v := settleValue (s.value p) (s.value p - s.chargedTime E p * s.value p / 100)
        let overrun := s.chargedTime E p - (s.task p).computationTime
        if (s.task p).computationTime < s.chargedTime E p then
          settleValue v (v - overrun * overrun * v / 100)
        else v := by
    rw [requeueValue, hlink, h.expired]
    simp only [if_true, true_and]
    rfl
  rw [putPrevTaskHvf_value h.running, hshow, requeued, ← hfirst]
  dsimp only
  by_cases hover : (s.task p).computationTime < s.chargedTime E p
  · have hover' := Int64.lt_iff_toInt_lt.mp hover
    obtain ⟨hsq, hprod⟩ := h.penalty hlink hover
    have hsquare := overrun_square_toInt hover' hsq
    rw [← hsquare, ← hfirst] at hprod
    rw [if_pos hover, if_pos hover', ← hsquare]
    refine settle_toInt ?_ ?_ hprod
    · rw [OnScale, hfirst]
      exact ⟨lessShare_nonneg _ _, lessShare_le h.value.1 h.value.2 (Int64.le_iff_toInt_le.mp h.used)⟩
    · rw [hsquare]
      exact Int.mul_nonneg (by omega) (by omega)
  · rw [if_neg hover, if_neg (fun hc => hover (Int64.lt_iff_toInt_lt.mpr hc))]

end PutExpired

/-- Of two tasks with the same value and the same time used, the one with less
computation time is not put back with a greater value, unless the value is
used up and only that one has overrun. -/
theorem overrun_never_pays_iff {E E' : Env} {s s' : Sys} {p p' : TaskId} (c c' : Cpu)
    (h : PutExpired E s p) (h' : PutExpired E' s' p')
    (hvalue : s'.value p' = s.value p) (hused : s'.chargedTime E' p' = s.chargedTime E p)
    (hlink : (s'.task p').hvf.onRq = (s.task p).hvf.onRq)
    (hct : (s.task p).computationTime ≤ (s'.task p').computationTime) :
    ¬ (putPrevTaskHvf E c p s).value p > (putPrevTaskHvf E' c' p' s').value p' ↔
      (s.task p).hvf.onRq = true ∨ s.value p = 0 ∨ s.chargedTime E p < 100 ∨
        s.chargedTime E p ≤ (s.task p).computationTime ∨
        (s'.task p').computationTime < s.chargedTime E p := by
  rw [gt_iff_lt, Int64.lt_iff_toInt_lt, Int.not_lt]
  cases hflag : (s.task p).hvf.onRq with
  | true =>
    rw [h.value_of_linked hflag, h'.value_of_linked (hlink.trans hflag), hvalue, hused]
    simp
  | false =>
    have h100 : (100 : Long).toInt = 100 := H_toInt
    rw [h.value_of_unlinked hflag, h'.value_of_unlinked (hlink.trans hflag), hvalue, hused,
      requeued_le_iff h.value.1 (Int64.le_iff_toInt_le.mp hct)]
    simp only [Int64.lt_iff_toInt_lt, Int64.le_iff_toInt_le, ← Int64.toInt_inj, h100]
    simp

/-! ## Two runs -/

/-- The second task sets its computation time, is moved into the class, and uses
up its first slice on CPU 0. -/
def useUpWith (ct : Long) : List Act :=
  startFirst ++ [.fork 0, .wakeNew 0 (.task 1) 0,
    .schedule 0 .smPreempt ⟨false, false⟩ (pickFair (.task 1)), .setParams 0 2000 3000 ct,
    .schedule 0 .smPreempt ⟨false, false⟩ (pickFair (.task 0)),
    .setscheduler permissive (.task 1) (plainAttr 8) true true, .setState 0 taskInterruptible,
    .schedule 0 .smNone ⟨false, false⟩ pickNone, .tick 0]

/-- One millisecond used: an overrun by that millisecond costs nothing yet, and
gains nothing. -/
theorem overrun_never_pays_at_first :
    ∃ s s', (Reached sampleEnv (fun _ _ => True) s ∧ Reached sampleEnv (fun _ _ => True) s') ∧
      ((s.task (.task 1)).computationTime = 0 ∧ (s'.task (.task 1)).computationTime = 200) ∧
      ¬ (putPrevTaskHvf sampleEnv 0 (.task 1) s).value (.task 1)
        > (putPrevTaskHvf sampleEnv 0 (.task 1) s').value (.task 1) := by
  have hrun : ∃ s s',
      (Reached sampleEnv (fun _ _ => True) s ∧ Reached sampleEnv (fun _ _ => True) s') ∧
      (PutExpired sampleEnv s (.task 1) ∧ PutExpired sampleEnv s' (.task 1)) ∧
      ((s.task (.task 1)).computationTime = 0 ∧ (s'.task (.task 1)).computationTime = 200) ∧
      s'.value (.task 1) = s.value (.task 1) ∧
      s'.chargedTime sampleEnv (.task 1) = s.chargedTime sampleEnv (.task 1) ∧
      (s'.task (.task 1)).hvf.onRq = (s.task (.task 1)).hvf.onRq ∧
      s.chargedTime sampleEnv (.task 1) < 100 :=
    Reached.exists_two_of_eval sampleEnv (useUpWith 0) (useUpWith 200) (by decide +kernel)
  obtain ⟨s, s', hr, ⟨h, h'⟩, ⟨hct, hct'⟩, hvalue, hused, hlink, hfew⟩ := hrun
  refine ⟨s, s', hr, ⟨hct, hct'⟩, ?_⟩
  refine (overrun_never_pays_iff 0 0 h h' hvalue hused hlink ?_).mpr (Or.inr (Or.inr (Or.inl hfew)))
  rw [hct, hct']
  decide

/-- A clock that is read every tenth of a second. -/
def tenthEnv : Env where
  rb := RbLib.plain TaskId
  clock i := ⟨1000 + Int64.ofNat (i / 10), Int64.ofNat (i % 10) * 100000000⟩
  tickNsec := 200000000

/-- Two tasks that differ in their computation time only have used a tenth of a
second, which uses up their value. The one that was given half of that is put
back with ten, the one that was given twice that with nothing. -/
theorem overrun_pays :
    ∃ s s', (Reached tenthEnv (fun _ _ => True) s ∧ Reached tenthEnv (fun _ _ => True) s') ∧
      (PutExpired tenthEnv s (.task 1) ∧ PutExpired tenthEnv s' (.task 1)) ∧
      (((s.rq 0).curr = .task 1 ∧ (s.task (.task 1)).schedClass = .hvf) ∧
        (s'.rq 0).curr = .task 1 ∧
        s.task (.task 1) = { s'.task (.task 1) with computationTime := 50 } ∧
        (s'.task (.task 1)).computationTime = 200) ∧
      (s.chargedTime tenthEnv (.task 1) = 100 ∧ s'.chargedTime tenthEnv (.task 1) = 100) ∧
      (putPrevTaskHvf tenthEnv 0 (.task 1) s).value (.task 1) = 10 ∧
      (putPrevTaskHvf tenthEnv 0 (.task 1) s').value (.task 1) = 0 := by
  refine Reached.exists_two_of_eval tenthEnv (useUpWith 50) (useUpWith 200) ?_
  decide +kernel

end HvfSched
