import HvfSched.Links.Sound
import HvfSched.Tasks.OneTask

/-!
# The tasks that run in the class

A task of the class runs if it is `rq->curr` of its own CPU. As long as the
bookkeeping is sound that is the only CPU it can be running on, so that what a
step does to `rq->curr` of all CPUs decides whether the task runs afterwards.
-/

namespace HvfSched

open Lib Sys

variable {s s' : Sys} {c : Cpu} {p : TaskId}

/-- `p` is running, in the class. -/
def runsHvf (s : Sys) (p : TaskId) : Bool := (s.task p).schedClass == .hvf && s.isCurrent p

theorem runsHvf_iff : runsHvf s p = true ↔ (s.task p).schedClass = .hvf ∧ s.isCurrent p = true := by
  unfold runsHvf
  rw [Bool.and_eq_true, beq_iff_eq]

theorem runsHvf_of_ne (h : (s.task p).schedClass ≠ .hvf) : runsHvf s p = false := by
  unfold runsHvf
  rw [beq_false_of_ne h]
  rfl

/-- A task that is running anywhere is running on its own CPU. -/
theorem isCurrent_iff_curr (h : s.links.Sound) (hp : ∀ c, p ≠ .idle c) :
    s.isCurrent p = true ↔ ∃ d, (s.rq d).curr = p := by
  rw [isCurrent_iff]
  constructor
  · intro hcurr
    exact ⟨_, hcurr⟩
  · rintro ⟨d, hd⟩
    rcases h.curr d with hi | ⟨-, hcpu, -⟩
    · exact absurd (hd.symm.trans hi) (hp d)
    · have hcpu : (s.task (s.rq d).curr).cpu = d := hcpu
      rw [hd] at hcpu
      rw [hcpu]
      exact hd

/-- Idle tasks are never of the class. -/
theorem ne_idle_of_hvf (h : s.links.Sound) (hcls : (s.task p).schedClass = .hvf) :
    ∀ c, p ≠ .idle c := by
  rintro c rfl
  have hidle : (s.task (.idle c)).schedClass = .idle := (h.idle c).1
  rw [hidle] at hcls
  cases hcls

theorem runsHvf_of_hvf (h : (s.task p).schedClass = .hvf) : runsHvf s p = s.isCurrent p := by
  unfold runsHvf
  rw [h]
  rfl

theorem runsHvf_iff_curr (h : s.links.Sound) (hcls : (s.task p).schedClass = .hvf) :
    runsHvf s p = true ↔ ∃ d, (s.rq d).curr = p := by
  rw [runsHvf_iff, isCurrent_iff_curr h (ne_idle_of_hvf h hcls)]
  exact ⟨fun hr => hr.2, fun hd => ⟨hcls, hd⟩⟩

/-- A task runs on one CPU only. -/
theorem curr_unique (h : s.links.Sound) {d : Cpu} (hp : ∀ c, p ≠ .idle c)
    (hc : (s.rq c).curr = p) (hd : (s.rq d).curr = p) : d = c := by
  have hcpu : ∀ e, (s.rq e).curr = p → (s.task p).cpu = e := by
    intro e he
    rcases h.curr e with hi | ⟨-, hcpu, -⟩
    · exact absurd (he.symm.trans hi) (hp e)
    · have hcpu : (s.task (s.rq e).curr).cpu = e := hcpu
      rw [he] at hcpu
      exact hcpu
  exact (hcpu d hd).symm.trans (hcpu c hc)

/-- A step that leaves the running tasks alone. -/
theorem isCurrent_same (h : s.links.Sound) (h' : s'.links.Sound) (hp : ∀ c, p ≠ .idle c)
    (hcpus : SameCpus s s' p) : s'.isCurrent p = s.isCurrent p := by
  have hiff : s'.isCurrent p = true ↔ s.isCurrent p = true := by
    rw [isCurrent_iff_curr h hp, isCurrent_iff_curr h' hp]
    exact exists_congr hcpus
  exact Bool.eq_iff_iff.mpr hiff

theorem runsHvf_same (h : s.links.Sound) (h' : s'.links.Sound)
    (hcls : (s'.task p).schedClass = (s.task p).schedClass) (hcpus : SameCpus s s' p) :
    runsHvf s' p = runsHvf s p := by
  by_cases hhvf : (s.task p).schedClass = .hvf
  · rw [runsHvf_of_hvf hhvf, runsHvf_of_hvf (hcls.trans hhvf)]
    exact isCurrent_same h h' (ne_idle_of_hvf h hhvf) hcpus
  · rw [runsHvf_of_ne hhvf, runsHvf_of_ne (fun hc => hhvf (hcls.symm.trans hc))]

/-- A task that is switched out was running and is not any more. -/
theorem runsHvf_put (h : s.links.Sound) (h' : s'.links.Sound) (hp : (s.rq c).curr = p)
    (hcls : (s.task p).schedClass = .hvf) (hcls' : (s'.task p).schedClass = .hvf)
    (hcpus : ∀ d, (s'.rq d).curr = p ↔ d ≠ c ∧ (s.rq d).curr = p) :
    runsHvf s p = true ∧ runsHvf s' p = false := by
  refine ⟨(runsHvf_iff_curr h hcls).mpr ⟨c, hp⟩, ?_⟩
  rw [Bool.eq_false_iff]
  intro hr
  obtain ⟨d, hd⟩ := (runsHvf_iff_curr h' hcls').mp hr
  obtain ⟨hdc, hd⟩ := (hcpus d).mp hd
  exact hdc (curr_unique h (ne_idle_of_hvf h hcls) hp hd)

/-- A task that is switched in was not running before: it would run on two
CPUs afterwards. -/
theorem runsHvf_dispatch (h : s.links.Sound) (h' : s'.links.Sound) (hne : (s.rq c).curr ≠ p)
    (hcls : (s.task p).schedClass = .hvf) (hcls' : (s'.task p).schedClass = .hvf)
    (hcpus : ∀ d, (s'.rq d).curr = p ↔ d = c ∨ (s.rq d).curr = p) :
    runsHvf s p = false ∧ runsHvf s' p = true := by
  have hcurr' : (s'.rq c).curr = p := (hcpus c).mpr (Or.inl rfl)
  refine ⟨?_, (runsHvf_iff_curr h' hcls').mpr ⟨c, hcurr'⟩⟩
  rw [Bool.eq_false_iff]
  intro hr
  obtain ⟨d, hd⟩ := (runsHvf_iff_curr h hcls).mp hr
  have hdc := curr_unique h' (ne_idle_of_hvf h' hcls') hcurr' ((hcpus d).mpr (Or.inr hd))
  rw [hdc] at hd
  exact hne hd

end HvfSched
