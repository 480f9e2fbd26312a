import HvfSched.Values.Scale

/-!
# Values over whole runs

A run stays on the scale as long as the task each step is about has a safe
budget at that step: what the functions on values are called with there does
not wrap. The condition speaks of the clock, the parameters and the times of
that task alone. Under a clock that is set, a task that enters the class with
its own parameters or with the default ones meets it (`values_stay_on_scale_after_slice`
runs in the year 2023). A task whose parameters were accepted need not: a
computation time of minus 2^29 milliseconds passes `set_scheduling_params`, and
the first enqueue squares an overrun of 2^29.
-/

namespace HvfSched

open Lib Sys

variable {E : Env} {s s' : Sys} {a : Act}

/-- The task the step may write has a safe budget. -/
def scaleKept (E : Env) (s : Sys) (a : Act) : Prop :=
  ∀ p ∈ valueSubject s a, (s.budget E a p).Safe

instance (E : Env) (s : Sys) (a : Act) : Decidable (scaleKept E s a) :=
  inferInstanceAs (Decidable (∀ p ∈ valueSubject s a, _))

theorem step_scaled (h : Scaled s) (hok : scaleKept E s a) (hstep : step E s a = some s') :
    Scaled s' := by
  intro q
  rcases step_calls hstep q with (hv | ⟨hsub, t, hcalls, hv⟩) | ⟨-, c, -, hv⟩
  · rw [hv]
    exact h q
  · rw [hv]
    exact hcalls.onScale (h q) (hok q hsub)
  · rw [hv]
    exact h _

theorem boot_scaled : Scaled boot := by
  intro p
  cases p with
  | idle c => exact zero_onScale
  | task n => exact zero_onScale

theorem reached_scaled {ok : Sys → Act → Prop} (hok : ∀ s a, ok s a → scaleKept E s a)
    (h : Reached E ok s) : Scaled s := by
  refine Reach.invariant Scaled ?_ ?_ h
  · intro s hs
    rw [hs]
    exact boot_scaled
  · intro s a s' hs hk hstep
    exact step_scaled hs (hok s a hk) hstep

theorem values_stay_on_scale (E : Env) (s : Sys) (h : Reached E (scaleKept E) s) :
    (∀ p, OnScale (s.value p)) ∧
    (∀ p q, goesLeft s p q = true ↔ s.value p ≤ s.value q) ∧
    ∀ a s', scaleKept E s a → step E s a = some s' → ∀ p, s.isLive p = true →
      s'.value p = s.value p ∨
      ((∃ t, Calls E (s.budget E a p) s.reads (s.task p) t ∧ s'.value p = t.hvf.currSchedValue) ∧
        ∀ t, Calls E (s.budget E a p) s.reads (s.task p) t → OnScale t.hvf.currSchedValue) := by
  have hs := reached_scaled (fun _ _ hk => hk) h
  refine ⟨hs, goesLeft_iff hs, ?_⟩
  intro a s' hok hstep p hlive
  rcases step_calls hstep p with (hv | ⟨hsub, hcalls⟩) | ⟨hp, -⟩
  · exact Or.inl hv
  · exact Or.inr ⟨hcalls, fun t ht => ht.onScale (hs p) (hok p hsub)⟩
  · exact absurd hp (ne_next_of_live hlive)

/-- Two tasks enter HVF, one of them uses up its slice and is put back with
what is left of its value. -/
theorem values_stay_on_scale_after_slice :
    ∃ s, Reached wallEnv (scaleKept wallEnv) s ∧
      (s.value (.task 0) = 97 ∧ s.value (.task 1) = 100) ∧
      (∀ p, OnScale (s.value p)) ∧
      (∀ p q, goesLeft s p q = true ↔ s.value p ≤ s.value q) ∧
      ∀ a s', scaleKept wallEnv s a → step wallEnv s a = some s' → ∀ p, s.isLive p = true →
        s'.value p = s.value p ∨
        ((∃ t, Calls wallEnv (s.budget wallEnv a p) s.reads (s.task p) t ∧
            s'.value p = t.hvf.currSchedValue) ∧
          ∀ t, Calls wallEnv (s.budget wallEnv a p) s.reads (s.task p) t →
            OnScale t.hvf.currSchedValue) := by
  obtain ⟨s, hs, hv⟩ := Reached.of_check (b := ((97 : Long), (100 : Long))) wallEnv
    (scaleKept wallEnv) (fun s => (s.value (.task 0), s.value (.task 1)))
    (startFirst ++ [.fork 0, .fork 0, .wakeNew 0 (.task 1) 0, .wakeNew 0 (.task 2) 0,
      .setscheduler permissive (.task 0) (plainAttr 8) true true,
      .setscheduler permissive (.task 1) (plainAttr 8) true true, .tick 0,
      .schedule 0 .smPreempt ⟨false, false⟩ (pickFair (.task 2))])
    (by decide +kernel)
  injection hv with h₀ h₁
  exact ⟨s, hs, ⟨h₀, h₁⟩, values_stay_on_scale wallEnv s hs⟩

/-- The parameters are accepted and the initial value is 100, but the penalty
squares an overrun of 2^29 and wraps around. -/
theorem accepted_params_leave_scale :
    paramsAccepted (sampleEnv.clock 0) 2000 3000 (-536870912) = true ∧
    ∃ s, Reached sampleEnv (fun _ _ => True) s ∧
      ((s.task (.task 0)).schedClass = .hvf ∧
        (s.task (.task 0)).params = ⟨2000, 3000, -536870912⟩) ∧
      (s.task (.task 0)).hvf.initSchedValue = 100 ∧ ¬ OnScale (s.value (.task 0)) := by
  refine ⟨by decide, ?_⟩
  refine Reached.exists_of_eval sampleEnv
    (startFirst ++ [.setParams 0 2000 3000 (-536870912),
      .setscheduler permissive (.task 0) (plainAttr 8) true true]) ?_
  decide +kernel

end HvfSched
