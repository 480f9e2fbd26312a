import HvfSched.Lib.StableQueue
import HvfSched.Runs.Seating

/-!
# First come, first served among equals

The trees of the machine are served by value, and among equal values in the
order in which the tasks took their seats. `Stamps` is kept by an observer: a
task takes a seat when it becomes linked (it is woken, put back by
`put_prev_task`, or enters the class), and anew when its attributes change
while it is an HVF task on the runqueue, since it is then dequeued and
enqueued.

What a step does to the seats is said in `Runs.Seating`; here it is put
together with the stamps. The invariant is that every tree is ranked: sorted by
value, and within one value by stamp, the latest first.
-/

namespace HvfSched

open Lib Sys

variable {E : Env} {s₀ s s' s₁ : Sys} {a : Act} {c d : Cpu} {p q : TaskId}

/-! ## The stamps -/

/-- `q` takes a seat in the step. -/
def takesSeat (s : Sys) (a : Act) (s' : Sys) (q : TaskId) : Bool :=
  (s'.task q).hvf.onRq && (!(s.task q).hvf.onRq || requeues s a q)

/-- The number of steps, and for every task the step in which it last took a
seat. -/
structure Stamps where
  now : Nat
  since : TaskId → Nat

def noteSeats (s : Sys) (a : Act) (s' : Sys) (g : Stamps) : Stamps where
  now := g.now + 1
  since q := if takesSeat s a s' q then g.now + 1 else g.since q

/-- Runs from `boot` with the stamps. -/
def SeatedRun (E : Env) (ok : Sys → Act → Prop) : Sys × Stamps → Prop :=
  Observed (fun s => s = boot) (step E) ok noteSeats ⟨0, fun _ => 0⟩

theorem SeatedRun.of_check {β : Type} (E : Env) (ok : Sys → Act → Prop)
    [∀ s a, Decidable (ok s a)] (f : Sys × Stamps → β) (l : List Act) {b : β}
    (h : (runChecked (observed (step E) noteSeats) (fun x a => ok x.1 a) l
      (boot, ⟨0, fun _ => 0⟩)).map f = some b) : ∃ x, SeatedRun E ok x ∧ f x = b :=
  Observed.of_check f rfl h

/-- Every tree is served by value, then by stamp. -/
structure InTurn (s : Sys) (g : Stamps) : Prop where
  past : ∀ q, g.since q ≤ g.now
  ranked : ∀ d, Ranked s.key g.since (s.queue d)

/-! ## One task moves -/

/-- The ranks after the move of `p`, for stamps that do not change for the
others. If `p` is linked before and after, nothing has moved; if it is linked
now, its stamp is the latest. -/
theorem ranked_move {since since' : TaskId → Nat} (ht : Trees s) (ht' : Trees s')
    (hr : ∀ d, Ranked s.key since (s.queue d)) (hsh : Shift p s s')
    (hothers : ∀ q, q ≠ p → (s.task q).hvf.onRq = true → since' q = since q)
    (hstay : (s.task p).hvf.onRq = true → (s'.task p).hvf.onRq = true →
      SameSeats s s' ∧ since' p = since p)
    (hnew : (s.task p).hvf.onRq = false → (s'.task p).hvf.onRq = true →
      ∀ q, q ≠ p → (s.task q).hvf.onRq = true → since q < since' p) (d : Cpu) :
    Ranked s'.key since' (s'.queue d) := by
  have hlinked : ∀ q ∈ s.queue d, (s.task q).hvf.onRq = true := fun q hq => ((ht.mem d q).mp hq).1
  have herase := (hsh.seat d).erase_eq (ht.nodup d)
  -- the others are ranked as before
  have hrest : ∀ l : List TaskId, l.Sublist (s.queue d) → p ∉ l → Ranked s'.key since' l := by
    intro l hl hp
    have hl' : Ranked s.key since l := (hr d).sublist hl
    refine hl'.congr ?_ ?_
    · intro q hq
      exact hsh.others q fun e => hp (e ▸ hq)
    · intro q hq
      exact hothers q (fun e => hp (e ▸ hq)) (hlinked q (hl.subset hq))
  cases hp' : (s'.task p).hvf.onRq with
  | false =>
    have hnot := not_mem_of_unlinked ht' hp' d
    rw [← List.erase_of_not_mem hnot, herase]
    exact hrest _ List.erase_sublist (ht.nodup d).not_mem_erase
  | true =>
    cases hp : (s.task p).hvf.onRq with
    | true =>
      obtain ⟨hsame, hsince⟩ := hstay hp hp'
      rw [hsame.queue]
      refine (hr d).congr (fun q _ => congrArg Int64.toInt (hsame.value q)) ?_
      intro q hq
      by_cases hqp : q = p
      · rw [hqp]
        exact hsince
      · exact hothers q hqp (hlinked q hq)
    | false =>
      have hnot := not_mem_of_unlinked ht hp d
      have hbase := hrest _ (List.Sublist.refl _) hnot
      by_cases hmem : p ∈ s'.queue d
      · rw [(hsh.seat d).arrived_of_mem hnot hmem]
        refine hbase.insert ?_
        intro q hq
        have hqp : q ≠ p := fun e => hnot (e ▸ hq)
        rw [hothers q hqp (hlinked q hq)]
        exact hnew hp hp' q hqp (hlinked q hq)
      · rw [List.erase_of_not_mem hmem, List.erase_of_not_mem hnot] at herase
        rw [herase]
        exact hbase

/-! ## Stamps in a step -/

section Note

variable {g : Stamps}

/-- A task that is linked and not requeued keeps its stamp. -/
theorem since_of_linked (hp : (s.task p).hvf.onRq = true) (hre : requeues s a p = false) :
    (noteSeats s a s' g).since p = g.since p := by
  have hno : takesSeat s a s' p = false := by
    rw [takesSeat, hp, hre]
    exact Bool.and_false _
  show (if takesSeat s a s' p then g.now + 1 else g.since p) = g.since p
  rw [hno]
  rfl

/-- A task that takes a seat has the latest stamp. -/
theorem since_of_seat (h : InTurn s g) (hp' : (s'.task p).hvf.onRq = true)
    (hp : (s.task p).hvf.onRq = false ∨ requeues s a p = true) (q : TaskId) :
    g.since q < (noteSeats s a s' g).since p := by
  have hyes : takesSeat s a s' p = true := by
    rw [takesSeat, hp']
    rcases hp with hp | hp
    · rw [hp]
      rfl
    · rw [hp]
      exact Bool.or_true _
  show g.since q < if takesSeat s a s' p then g.now + 1 else g.since p
  rw [hyes]
  exact Nat.lt_succ_of_le (h.past q)

theorem noteSeats_past (h : InTurn s g) (q : TaskId) :
    (noteSeats s a s' g).since q ≤ (noteSeats s a s' g).now := by
  show (if takesSeat s a s' q then g.now + 1 else g.since q) ≤ g.now + 1
  split
  next => exact Nat.le_refl _
  next => exact Nat.le_succ_of_le (h.past q)

/-- A step that moves one task and requeues nobody. -/
theorem inTurn_move (ht : Trees s) (ht' : Trees s') (h : InTurn s g)
    (hre : ∀ q, requeues s a q = false) (hsh : Shift p s s')
    (hstay : (s.task p).hvf.onRq = true → (s'.task p).hvf.onRq = true → SameSeats s s') :
    InTurn s' (noteSeats s a s' g) := by
  refine ⟨noteSeats_past h, ranked_move ht ht' h.ranked hsh ?_ ?_ ?_⟩
  · intro q _ hq
    exact since_of_linked hq (hre q)
  · intro hp hp'
    exact ⟨hstay hp hp', since_of_linked hp (hre p)⟩
  · intro hp hp' q _ _
    exact since_of_seat h hp' (Or.inl hp) q

/-- A step that moves nobody. -/
theorem inTurn_same (ht : Trees s) (ht' : Trees s') (h : InTurn s g)
    (hre : ∀ q, requeues s a q = false) (hsame : SameSeats s s') :
    InTurn s' (noteSeats s a s' g) :=
  inTurn_move (p := .idle 0) ht ht' h hre (.of_same hsame) fun _ _ => hsame

end Note

/-! ## Runs -/

theorem inTurn_halves {prev next : TaskId} {sₚ : Sys} {g : Stamps} (ht : Trees s) (ht' : Trees s')
    (h : InTurn s g) (hre : ∀ q, requeues s a q = false) (hh : Halves prev next s sₚ s') :
    InTurn s' (noteSeats s a s' g) := by
  refine ⟨noteSeats_past h, ?_⟩
  have hmid : ∀ d, Ranked sₚ.key (noteSeats s a s' g).since (sₚ.queue d) := by
    refine ranked_move ht hh.trees h.ranked hh.put ?_ ?_ ?_
    · intro q _ hq
      exact since_of_linked hq (hre q)
    · intro hp hp'
      exact ⟨hh.stay hp hp', since_of_linked hp (hre prev)⟩
    · intro hp hp' q _ _
      refine since_of_seat h ?_ (Or.inl hp) q
      by_cases hn : next = prev
      · rw [hh.same hn hp'] at hp
        cases hp
      · exact (hh.set.linked_iff hh.trees ht' (Ne.symm hn)).mpr hp'
  refine ranked_move hh.trees ht' hmid hh.set (fun _ _ _ => rfl) ?_ ?_
  · intro _ hp'
    exact ⟨hh.off hp', rfl⟩
  · intro hp hp'
    rw [(hh.off hp').linked hh.trees ht' hp'] at hp
    cases hp

theorem step_inTurn {g : Stamps} (hb : Base s) (ho : Sorted s) (hs : Scaled s) (h : InTurn s g)
    (hok : keysKept E s a) (hstep : step E s a = some s') : InTurn s' (noteSeats s a s' g) := by
  have ht' := (step_base hb hok.1.1 hstep).trees
  cases step_seats hb ho hs hok hstep with
  | still hre hsame => exact inTurn_same hb.trees ht' h hre hsame
  | switch c how next sₚ hre hleave hh => exact inTurn_halves hb.trees ht' h hre hh
  | move p hre _ hsh hstay => exact inTurn_move hb.trees ht' h hre hsh hstay
  | requeue p s₁ htarget hself ht₁ hout hun hin =>
    -- the task leaves its seat, and takes a new one if it comes back
    have hne : ∀ q, q ≠ p → requeues s a q = false := fun q hq => requeues_ne hself hq
    refine ⟨noteSeats_past h, ?_⟩
    have hmid : ∀ d, Ranked s₁.key (noteSeats s a s' g).since (s₁.queue d) := by
      refine ranked_move hb.trees ht₁ h.ranked hout ?_ ?_ ?_
      · intro q hqp hq
        exact since_of_linked hq (hne q hqp)
      · intro _ hp'
        cases hun.symm.trans hp'
      · intro _ hp'
        cases hun.symm.trans hp'
    refine ranked_move ht₁ ht' hmid hin (fun _ _ _ => rfl) ?_ ?_
    · intro hp
      cases hun.symm.trans hp
    · intro _ hp' q hqp hq
      have hq₀ := (hout.linked_iff hb.trees ht₁ hqp).mp hq
      rw [since_of_linked hq₀ (hne q hqp)]
      exact since_of_seat h hp' (Or.inr hself) q

theorem seatedRun_inTurn {x : Sys × Stamps} (h : SeatedRun E (keysKept E) x) :
    (Base x.1 ∧ Scaled x.1 ∧ Sorted x.1) ∧ InTurn x.1 x.2 := by
  refine Reach.invariant (fun x : Sys × Stamps => (Base x.1 ∧ Scaled x.1 ∧ Sorted x.1) ∧
    InTurn x.1 x.2) ?_ ?_ h
  · intro x hx
    obtain ⟨hboot, hstart⟩ := hx
    rw [hboot, hstart]
    exact ⟨⟨boot_base, boot_scaled, boot_sorted⟩, fun _ => Nat.le_refl 0, fun _ => List.Pairwise.nil⟩
  · intro x a y hx hok hstep
    obtain ⟨⟨hb, hs, ho⟩, hturn⟩ := hx
    obtain ⟨hstep, hnote⟩ := observed_eq_some hstep
    rw [hnote]
    exact ⟨⟨step_base hb hok.1.1 hstep, step_scaled hs hok.1.2 hstep,
      step_sorted hb ho hs hok hstep⟩, step_inTurn hb ho hs hturn hok hstep⟩

/-- In every run in which no value of a linked entity is written: if anybody
waits on a CPU, `pick_task_hvf` answers a task such that every other one there
has a smaller value, or the same value and has waited for less time. -/
theorem equals_served_in_order_of_arrival (E : Env) (s : Sys) (g : Stamps)
    (h : SeatedRun E (keysKept E) (s, g)) (c : Cpu) (hne : s.queue c ≠ []) :
    ∃ m ∈ s.queue c, pickTaskHvf s c = .ok m ∧ ∀ q ∈ s.queue c, q ≠ m →
      s.value q < s.value m ∨ (s.value q = s.value m ∧ g.since m < g.since q) := by
  obtain ⟨⟨-, -, ho⟩, hturn⟩ := seatedRun_inTurn h
  obtain ⟨m, hpick, hmax⟩ := (ho c).pickTaskHvf hne
  rw [(ho c).max] at hmax
  obtain ⟨front, hq⟩ := List.getLast?_eq_some_iff.mp hmax
  have hranked : Ranked s.key g.since (s.queue c) := hturn.ranked c
  rw [hq] at hranked ⊢
  refine ⟨m, List.mem_append_right _ (List.mem_singleton.mpr rfl), hpick, ?_⟩
  intro q hmem hqm
  have hfront : q ∈ front := by
    rcases List.mem_append.mp hmem with hf | hm
    · exact hf
    · exact absurd (List.mem_singleton.mp hm) hqm
  rcases (List.pairwise_append.mp hranked).2.2 q hfront m (List.mem_singleton.mpr rfl) with
    hlt | ⟨heq, hsince⟩
  · exact Or.inl (Int64.lt_iff_toInt_lt.mpr hlt)
  · exact Or.inr ⟨Int64.toInt_inj.mp heq, hsince⟩

/-- Three tasks enter the class one after the other with the same value, and
the second one is renewed before the first is served: it now comes last. -/
theorem equals_served_in_order_of_arrival_requeued :
    ∃ s g, SeatedRun wallEnv (keysKept wallEnv) (s, g) ∧
      s.queue 0 = [.task 2, .task 3, .task 1] ∧
      (s.value (.task 1) = s.value (.task 2) ∧ s.value (.task 2) = s.value (.task 3)) ∧
      ∃ m ∈ s.queue 0, pickTaskHvf s 0 = .ok m ∧ ∀ q ∈ s.queue 0, q ≠ m →
        s.value q < s.value m ∨ (s.value q = s.value m ∧ g.since m < g.since q) := by
  obtain ⟨⟨s, g⟩, hrun, hf⟩ := SeatedRun.of_check
    (b := ([TaskId.task 2, .task 3, .task 1], true, true)) wallEnv (keysKept wallEnv)
    (fun x => (x.1.queue 0, decide (x.1.value (.task 1) = x.1.value (.task 2)),
      decide (x.1.value (.task 2) = x.1.value (.task 3))))
    (startFirst ++ [.fork 0, .wakeNew 0 (.task 1) 0, .fork 0, .wakeNew 0 (.task 2) 0,
      .fork 0, .wakeNew 0 (.task 3) 0,
      .setscheduler permissive (.task 1) (plainAttr 8) true true,
      .setscheduler permissive (.task 2) (plainAttr 8) true true,
      .setscheduler permissive (.task 3) (plainAttr 8) true true, .moveTask (.task 2)])
    (by decide +kernel)
  simp only [Prod.mk.injEq, decide_eq_true_eq] at hf
  obtain ⟨hq, h₁₂, h₂₃⟩ := hf
  refine ⟨s, g, hrun, hq, ⟨h₁₂, h₂₃⟩, ?_⟩
  refine equals_served_in_order_of_arrival wallEnv s g hrun 0 ?_
  rw [hq]
  exact List.cons_ne_nil _ _

end HvfSched
