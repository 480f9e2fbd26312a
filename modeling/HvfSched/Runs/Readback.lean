import HvfSched.Model.User
import HvfSched.Tasks.OneTask

/-!
# Reading parameters back

`get_scheduling_params` copies three fields one after the other, and stops at
the first one that does not get through. So there is one string of bytes, the
fields side by side (`paramBytes`), and whatever happens a prefix of it is in
the memory of the caller, up to the first address that cannot be written
(`params_copied_until_a_fault`). What the prefix does not cover is as it
was: the call never writes outside the structure, and writes nothing if it
answers `-EINVAL`.

A task that has set its parameters reads the same ones back for as long as it
does not set others or leave the class (`params_read_back`); in between it may
sleep, be boosted inside the class, enter it, or be moved.
-/

namespace HvfSched

open Lib Sys

variable {E : Env} {s s' : Sys} {act : Act} {p : TaskId} {U : UserSpace} {a : Nat} {m : Memory}

/-! ## The copies -/

/-- Fields copied side by side, until one does not get through. -/
def copyFields (U : UserSpace) : Nat → List (List UInt8) → Memory → Int × Memory
  | _, [], m => (0, m)
  | a, f :: fs, m =>
    let r := copyToUser U a f m
    if r.1 ≠ 0 then (-EFAULT, r.2) else copyFields U (a + f.length) fs r.2

/-- One field, behind what has been copied already. -/
theorem copyToUser_behind (pre f : List UInt8) (hacc : U.accessOk (a + pre.length) f.length = true) :
    copyToUser U (a + pre.length) f (writeBytes m a pre)
      = (f.length - U.copied (a + pre.length) f.length,
        writeBytes m a (pre ++ f.take (U.copied (a + pre.length) f.length))) := by
  unfold copyToUser
  rw [if_pos hacc]
  dsimp only
  rw [writeBytes_append]

/-- A field that does not get through meets an address that cannot be written. -/
theorem exists_not_writable {n : Nat} (h : U.copied a n < n) : ∃ i < n, U.writable (a + i) = false := by
  by_contra hno
  have hall : ∀ i < n, U.writable (a + i) = true :=
    fun i hi => Bool.eq_true_of_not_eq_false fun hf => hno ⟨i, hi, hf⟩
  have hfull := U.copied_all a n hall
  omega

/-- How a copy ends, with the number of bytes that got through. -/
inductive CopyEnd (U : UserSpace) (a n k : Nat) : Int → Prop
  | ok (hk : k = n) : CopyEnd U a n k 0
  | fault (hk : k < n) (hout : ∃ i < n, U.writable (a + i) = false) : CopyEnd U a n k (-EFAULT)

/-- A prefix of the fields gets through. -/
theorem copyFields_prefix (fs : List (List UInt8)) (pre : List UInt8) (n : Nat)
    (hacc : U.accessOk a n = true) (hn : pre.length + fs.flatten.length = n)
    (hpre : ∀ i < pre.length, U.writable (a + i) = true) :
    ∃ k, (copyFields U (a + pre.length) fs (writeBytes m a pre)).2
        = writeBytes m a ((pre ++ fs.flatten).take k) ∧
      (∀ i < k, U.writable (a + i) = true) ∧
      CopyEnd U a n k (copyFields U (a + pre.length) fs (writeBytes m a pre)).1 := by
  -- induction on the fields that are left; `pre` has got through
  induction fs generalizing pre with
  | nil =>
    refine ⟨pre.length, ?_, hpre, .ok (by simpa using hn)⟩
    rw [List.flatten_nil, List.append_nil, List.take_length]
    rfl
  | cons f fs ih =>
    rw [List.flatten_cons, List.length_append] at hn
    have hbehind := copyToUser_behind (m := m) pre f
      (U.accessOk_sub a n pre.length f.length hacc (by omega))
    have hle := U.copied_le (a + pre.length) f.length
    have hwritten : ∀ i < pre.length + U.copied (a + pre.length) f.length,
        U.writable (a + i) = true := by
      intro i hi
      by_cases hlt : i < pre.length
      · exact hpre i hlt
      · have hw := U.copied_writable (a + pre.length) f.length (i - pre.length) (by omega)
        have hsum : a + pre.length + (i - pre.length) = a + i := by omega
        rw [hsum] at hw
        exact hw
    unfold copyFields
    rw [hbehind]
    dsimp only
    by_cases hstop : f.length - U.copied (a + pre.length) f.length ≠ 0
    · rw [if_pos hstop]
      refine ⟨pre.length + U.copied (a + pre.length) f.length, ?_, hwritten, .fault (by omega) ?_⟩
      · rw [List.take_length_add_append, List.flatten_cons, List.take_append_of_le_length hle]
      · obtain ⟨i, hi, hout⟩ := exists_not_writable (U := U) (a := a + pre.length)
          (n := f.length) (by omega)
        refine ⟨pre.length + i, by omega, ?_⟩
        rw [← Nat.add_assoc]
        exact hout
    · have hall : U.copied (a + pre.length) f.length = f.length := by omega
      rw [if_neg hstop, hall, List.take_length]
      rw [hall] at hwritten
      have hnext := ih (pre ++ f) (by rw [List.length_append]; omega)
        (fun i hi => hwritten i (by rw [List.length_append] at hi; exact hi))
      rw [List.length_append, ← Nat.add_assoc, List.append_assoc] at hnext
      exact hnext

/-! ## `get_scheduling_params` -/

/-- The structure as it is copied. -/
def paramBytes (t : TaskStruct) : List UInt8 :=
  encodeLong t.deadline1 ++ (encodeLong t.deadline2 ++ encodeLong t.computationTime)

@[simp] theorem length_encodeLong (x : Long) : (encodeLong x).length = 8 := length_toBytes _ _

@[simp] theorem length_paramBytes (t : TaskStruct) : (paramBytes t).length = 24 := by
  simp [paramBytes]

theorem getSchedulingParams_eq (U : UserSpace) (t : TaskStruct) (a : Nat) (m : Memory) :
    getSchedulingParams U t a m = if a ≠ 0 ∧ U.accessOk a sizeofParams = true then
      copyFields U a [encodeLong t.deadline1, encodeLong t.deadline2, encodeLong t.computationTime] m
    else (-EINVAL, m) := by
  simp only [getSchedulingParams, copyFields, length_encodeLong, Nat.add_assoc]
  rfl

theorem getSchedulingParams_writes (U : UserSpace) (t : TaskStruct) (a : Nat) (m : Memory) :
    ∃ k, (getSchedulingParams U t a m).2 = writeBytes m a ((paramBytes t).take k) ∧
      (∀ i < k, U.writable (a + i) = true) ∧
      if a ≠ 0 ∧ U.accessOk a sizeofParams = true then
        CopyEnd U a sizeofParams k (getSchedulingParams U t a m).1
      else k = 0 ∧ (getSchedulingParams U t a m).1 = -EINVAL := by
  rw [getSchedulingParams_eq]
  by_cases hptr : a ≠ 0 ∧ U.accessOk a sizeofParams = true
  · rw [if_pos hptr]
    obtain ⟨k, hmem, hw, hend⟩ := copyFields_prefix (m := m)
      [encodeLong t.deadline1, encodeLong t.deadline2, encodeLong t.computationTime] []
      sizeofParams hptr.2 (by simp [sizeofParams]) (fun i hi => absurd hi (Nat.not_lt_zero i))
    rw [writeBytes_nil] at hmem hend
    refine ⟨k, ?_, hw, ?_⟩
    · simpa [paramBytes] using hmem
    · rw [if_pos hptr]
      exact hend
  · rw [if_neg hptr]
    refine ⟨0, ?_, fun i hi => absurd hi (Nat.not_lt_zero i), ?_⟩
    · simp
    · rw [if_neg hptr]
      exact ⟨rfl, rfl⟩

/-- The answer of `get_scheduling_params` says what is in the memory of the
caller. 0 comes exactly when the structure lies in user memory all of which can
be written, and then it is there as a whole; `-EINVAL` when the pointer is
refused, and nothing is written; `-EFAULT` otherwise, and then a proper prefix
of the structure is there. Nothing else is ever written. -/
theorem params_copied_until_a_fault (U : UserSpace) (t : TaskStruct) (a : Nat) (m : Memory) :
    ∃ k ≤ sizeofParams, (getSchedulingParams U t a m).2 = writeBytes m a ((paramBytes t).take k) ∧
      (∀ i < k, U.writable (a + i) = true) ∧
      ((getSchedulingParams U t a m).1 = 0 ∧ k = sizeofParams ∧ a ≠ 0 ∧
          U.accessOk a sizeofParams = true ∧ (∀ i < sizeofParams, U.writable (a + i) = true) ∨
        (getSchedulingParams U t a m).1 = -EINVAL ∧ k = 0 ∧
          (a = 0 ∨ U.accessOk a sizeofParams = false) ∨
        (getSchedulingParams U t a m).1 = -EFAULT ∧ k < sizeofParams ∧ a ≠ 0 ∧
          U.accessOk a sizeofParams = true ∧ ∃ i < sizeofParams, U.writable (a + i) = false) := by
  obtain ⟨k, hmem, hw, hend⟩ := getSchedulingParams_writes U t a m
  by_cases hptr : a ≠ 0 ∧ U.accessOk a sizeofParams = true
  · rw [if_pos hptr] at hend
    generalize (getSchedulingParams U t a m).1 = r at hend ⊢
    cases hend with
    | ok hk =>
      subst hk
      exact ⟨_, Nat.le_refl _, hmem, hw, Or.inl ⟨rfl, rfl, hptr.1, hptr.2, hw⟩⟩
    | fault hk hout =>
      exact ⟨k, Nat.le_of_lt hk, hmem, hw, Or.inr (Or.inr ⟨rfl, hk, hptr.1, hptr.2, hout⟩)⟩
  · rw [if_neg hptr] at hend
    refine ⟨k, ?_, hmem, hw, Or.inr (Or.inl ⟨hend.2, hend.1, ?_⟩)⟩
    · rw [hend.1]
      exact Nat.zero_le _
    · rwa [not_and_or, not_not, Bool.not_eq_true] at hptr

/-- A user space that can be written below address 4096. -/
def lowSpace : UserSpace where
  accessOk _ _ := true
  writable a := decide (a < 4096)
  copied a n := min n (4096 - a)
  accessOk_sub _ _ _ _ h _ := h
  copied_le _ _ := Nat.min_le_left ..
  copied_writable a n i h := decide_eq_true (by omega)
  copied_all a n h := by
    cases n with
    | zero => exact Nat.zero_min _
    | succ n =>
      have hlast := of_decide_eq_true (h n (Nat.lt_succ_self n))
      omega

/-- A structure that begins twelve bytes before the end: the first field gets
through, and half of the second. -/
theorem params_copied_until_a_fault_low :
    ∃ t : TaskStruct, t.deadline1 = 1010 ∧
      (getSchedulingParams lowSpace t 4084 fun _ => 0).1 = -EFAULT ∧
      ∃ k < sizeofParams, (getSchedulingParams lowSpace t 4084 fun _ => 0).2
        = writeBytes (fun _ => 0) 4084 ((paramBytes t).take k) := by
  refine ⟨{ boot.task (.task 0) with deadline1 := 1010, deadline2 := 1020, computationTime := 500 },
    rfl, by decide, ?_⟩
  obtain ⟨k, -, hmem, -, ⟨hok, -⟩ | ⟨hinval, -⟩ | ⟨-, hk, -⟩⟩ := params_copied_until_a_fault lowSpace
    { boot.task (.task 0) with deadline1 := 1010, deadline2 := 1020, computationTime := 500 } 4084
    fun _ => 0
  · exact absurd hok (by decide)
  · exact absurd hinval (by decide)
  · exact ⟨k, hk, hmem⟩

/-! ## Reading back -/

theorem decodeLong_encodeLong (x : Long) : decodeLong (encodeLong x) = x := by
  have hlt : x.toUInt64.toNat < Nat.pow 256 8 := x.toUInt64.toNat_lt
  rw [decodeLong, encodeLong, ofBytes_toBytes, Nat.mod_eq_of_lt hlt, UInt64.ofNat_toNat]
  exact Int64.toInt64_toUInt64 x

/-- A `struct d_params` in user memory. -/
def readParams (m : Memory) (a : Nat) : Params where
  deadline1 := decodeLong (readBytes m a sizeofLong)
  deadline2 := decodeLong (readBytes m (a + sizeofLong) sizeofLong)
  computationTime := decodeLong (readBytes m (a + 2 * sizeofLong) sizeofLong)

theorem readParams_paramBytes (m : Memory) (a : Nat) (t : TaskStruct) :
    readParams (writeBytes m a (paramBytes t)) a = t.params := by
  have hread : ∀ i, i + 8 ≤ 24 → readBytes (writeBytes m a (paramBytes t)) (a + i) 8
      = ((paramBytes t).drop i).take 8 :=
    fun i hi => readBytes_writeBytes (paramBytes t) i 8 (by rw [length_paramBytes]; exact hi)
  have hdrop : (paramBytes t).drop 8 = encodeLong t.deadline2 ++ encodeLong t.computationTime :=
    List.drop_left' (length_encodeLong _)
  have h₁ : readBytes (writeBytes m a (paramBytes t)) a 8 = encodeLong t.deadline1 :=
    (hread 0 (by omega)).trans (List.take_left' (length_encodeLong _))
  have h₂ : readBytes (writeBytes m a (paramBytes t)) (a + 8) 8 = encodeLong t.deadline2 := by
    rw [hread 8 (by omega), hdrop]
    exact List.take_left' (length_encodeLong _)
  have h₃ : readBytes (writeBytes m a (paramBytes t)) (a + 16) 8 = encodeLong t.computationTime := by
    have hlast : (paramBytes t).drop 16 = encodeLong t.computationTime := by
      rw [show 16 = 8 + 8 from rfl, ← List.drop_drop, hdrop]
      exact List.drop_left' (length_encodeLong _)
    rw [hread 16 (by omega), hlast]
    exact List.take_of_length_le (Nat.le_of_eq (length_encodeLong _))
  show Params.mk (decodeLong (readBytes _ a 8)) (decodeLong (readBytes _ (a + 8) 8))
    (decodeLong (readBytes _ (a + 16) 8)) = t.params
  rw [h₁, h₂, h₃, decodeLong_encodeLong, decodeLong_encodeLong, decodeLong_encodeLong]
  rfl

/-- After a successful call the structure holds the parameters of the task. -/
theorem readParams_of_get {t : TaskStruct} {m' : Memory} (h : getSchedulingParams U t a m = (0, m')) :
    readParams m' a = t.params := by
  obtain ⟨k, hmem, -, hend⟩ := getSchedulingParams_writes U t a m
  rw [h] at hmem hend
  have hk : k = sizeofParams := by
    split at hend
    next =>
      cases hend with
      | ok hk => exact hk
    next => cases hend.2
  have hmem : m' = writeBytes m a ((paramBytes t).take k) := hmem
  have hall : (paramBytes t).take k = paramBytes t := by
    rw [hk]
    exact List.take_of_length_le (Nat.le_of_eq (length_paramBytes t))
  rw [hmem, hall, readParams_paramBytes]

/-- `p` does not set its parameters anew and does not leave the class. -/
def paramsKept (E : Env) (p : TaskId) (s : Sys) (act : Act) : Prop :=
  (∀ x ∈ classTarget s act, x.1 = p → (s.task p).schedClass = .hvf → x.2 = .hvf) ∧
  match act with
  | .setParams c d1 d2 ct => (s.rq c).curr = p → paramsAccepted (s.now E) d1 d2 ct = false
  | _ => True

instance (E : Env) (p : TaskId) (s : Sys) (act : Act) : Decidable (paramsKept E p s act) := by
  unfold paramsKept
  cases act <;> infer_instance

/-- The record holds parameters of the task's own, and they are `x`. -/
structure Record.Has (r : Record) (x : Params) : Prop where
  set : r.parsSet = true
  params : r.params = x

/-- The parts of a step that keep the parameters. -/
theorem Record.Has.enter {x : Params} {y : Clocked} (h : y.record.Has x) : (y.enter E).record.Has x := by
  have hdefaults : y.defaults E = y := by
    unfold Clocked.defaults
    rw [if_pos h.set]
  rw [Clocked.enter, hdefaults]
  exact ⟨h.set, h.params⟩

theorem Record.Has.putIf {x : Params} {y : Clocked} {current running : Bool} (h : y.record.Has x) :
    (y.putIf E current running).record.Has x := by
  unfold Clocked.putIf
  split
  · exact ⟨h.set, h.params⟩
  · exact h

/-- One step keeps the parameters of a task. -/
theorem has_step {x : Params} (hlive : s.isLive p = true) (h : (s.task p).record.Has x)
    (hok : paramsKept E p s act) (hstep : step E s act = some s') : (s'.task p).record.Has x := by
  have hclocked : (s.clocked p).record.Has x := h
  cases step_task hstep p with
  | same _ hrec _ _ _ =>
    rw [hrec]
    exact h
  | other _ hrec _ _ _ =>
    rw [hrec]
    exact h
  | tick c _ _ _ hrec _ =>
    have hrec : (s'.task p).record = _ := congrArg Clocked.record hrec
    rw [hrec]
    exact ⟨h.set, h.params⟩
  | params c d1 d2 ct ha hp hacc _ _ _ =>
    subst ha
    rw [hok.2 hp] at hacc
    cases hacc
  | put c how _ _ _ hrec _ _ _ =>
    rw [hrec]
    exact ⟨h.set, h.params⟩
  | dispatch c how n _ _ _ hrec _ _ _ =>
    have hrec : (s'.task p).record = _ := congrArg Clocked.record hrec
    rw [hrec]
    exact ⟨h.set, h.params⟩
  | enter dest _ _ _ hrec _ =>
    have hrec : (s'.task p).record = _ := congrArg Clocked.record hrec
    rw [hrec]
    exact hclocked.enter
  | stay _ _ hrec _ _ =>
    have hrec : (s'.task p).record = _ := congrArg Clocked.record hrec
    rw [hrec]
    split
    · exact hclocked.putIf.enter
    · exact hclocked.putIf
  | leave cls htarget hne hcls _ _ => exact absurd (hok.1 (p, cls) htarget rfl hcls) hne
  | join _ _ hrec _ _ =>
    -- the task kept its parameters outside the class
    have hrec : (s'.task p).record = _ := congrArg Clocked.record hrec
    rw [hrec]
    split
    · exact hclocked.enter
    · unfold Clocked.defaults
      rw [if_pos hclocked.set]
      exact hclocked
  | born c t hp _ _ _ _ => exact absurd hp (ne_next_of_live hlive)

/-- A call that is accepted gives the task these parameters. -/
theorem has_setParams {c : Cpu} {d1 d2 ct : Long} (hstep : step E s (.setParams c d1 d2 ct) = some s')
    (hacc : paramsAccepted (s.now E) d1 d2 ct = true) :
    (s'.task (s.rq c).curr).record.Has ⟨d1, d2, ct⟩ := by
  obtain ⟨-, hexec⟩ := step_ok hstep
  have hs := Except.ok.inj hexec
  have htask : s'.task (s.rq c).curr
      = (setSchedulingParams (s.now E) d1 d2 ct (s.task (s.rq c).curr)).2 := by
    rw [← hs]
    exact setTask_self ..
  rw [htask, setSchedulingParams, if_pos hacc]
  exact ⟨rfl, rfl⟩

/-- A task that sets its parameters reads the same ones back, until it sets
others or leaves the class: at any later moment of a run a call that answers 0
has put them in the memory of the caller. -/
theorem params_read_back {c : Cpu} {d1 d2 ct : Long} {s₀ s₁ : Sys} {m' : Memory}
    (hset : step E s₀ (.setParams c d1 d2 ct) = some s₁)
    (hacc : paramsAccepted (s₀.now E) d1 d2 ct = true)
    (hrun : Reach (· = s₁) (step E) (paramsKept E (s₀.rq c).curr) s)
    (hget : getSchedulingParams U (s.task (s₀.rq c).curr) a m = (0, m')) :
    readParams m' a = ⟨d1, d2, ct⟩ := by
  have hlive : s₁.isLive (s₀.rq c).curr = true := step_isLive hset (step_ok hset).1
  have hhas : s.isLive (s₀.rq c).curr = true ∧ (s.task (s₀.rq c).curr).record.Has ⟨d1, d2, ct⟩ := by
    refine hrun.invariant (fun x => x.isLive (s₀.rq c).curr = true ∧
      (x.task (s₀.rq c).curr).record.Has ⟨d1, d2, ct⟩) ?_ ?_
    · intro x hx
      rw [hx]
      exact ⟨hlive, has_setParams hset hacc⟩
    · intro x act x' hx hok hstep
      exact ⟨step_isLive hstep hx.1, has_step hx.1 hx.2 hok hstep⟩
  rw [readParams_of_get hget]
  exact hhas.2.params

/-- A user space all of which can be written. -/
def flatSpace : UserSpace where
  accessOk _ _ := true
  writable _ := true
  copied _ n := n
  accessOk_sub _ _ _ _ h _ := h
  copied_le _ _ := Nat.le_refl _
  copied_writable _ _ _ _ := rfl
  copied_all _ _ _ := rfl

/-- The task uses up its slice, sleeps, is woken, runs again and is given the
same policy once more. -/
theorem params_read_back_awake :
    ∃ s₀ s₁ s m', Reached sampleEnv (fun _ _ => True) s₀ ∧ (s₀.rq 0).curr = .task 1 ∧
      step sampleEnv s₀ (.setParams 0 1010 1020 500) = some s₁ ∧
      Reach (· = s₁) (step sampleEnv) (paramsKept sampleEnv (.task 1)) s ∧
      getSchedulingParams flatSpace (s.task (.task 1)) 4096 (fun _ => 0) = (0, m') ∧
      readParams m' 4096 = ⟨1010, 1020, 500⟩ := by
  obtain ⟨s₀, h₀, hf⟩ := Reached.of_check (b := (TaskId.task 1, true, some (some (TaskId.task 1))))
    sampleEnv (fun _ _ => True)
    (fun s₀ => ((s₀.rq 0).curr, paramsAccepted (s₀.now sampleEnv) 1010 1020 500,
      (step sampleEnv s₀ (.setParams 0 1010 1020 500)).map fun s₁ =>
        (runChecked (step sampleEnv) (paramsKept sampleEnv (.task 1))
          ([.tick 0] ++ sleepOn 0 ++ [.wake 0 (.task 1) 3 0,
            .schedule 0 .smNone ⟨false, false⟩ pickNone,
            .setscheduler permissive (.task 1) (plainAttr 8) true true]) s₁).map
          fun s => (s.rq 0).curr))
    dispatchSecond (by decide +kernel)
  simp only [Prod.mk.injEq] at hf
  obtain ⟨hcurr, hacc, hrest⟩ := hf
  obtain ⟨s₁, hset, hrest⟩ := Option.map_eq_some_iff.mp hrest
  obtain ⟨s, hrun, -⟩ : ∃ s, Reach (· = s₁) (step sampleEnv) (paramsKept sampleEnv (.task 1)) s ∧
      (s.rq 0).curr = .task 1 := Reach.of_check _ rfl hrest
  refine ⟨s₀, s₁, s, _, h₀, hcurr, hset, hrun, rfl, ?_⟩
  rw [← hcurr] at hrun
  refine params_read_back (U := flatSpace) (m := fun _ => 0) hset hacc hrun ?_
  rw [hcurr]
  rfl

end HvfSched
