/-!
# Runs of a partial step function

A system is a start predicate and a partial step function on states and
actions. `Reach init step ok s` says that `s` ends a run that starts in an
`init` state and whose every step meets the side condition `ok` in the state
it is taken from; with `ok` always true these are all the runs.

An invariant is proved once per system through `Reach.invariant`: it holds at
the start and one permitted step preserves it. A step built from fallible
calls is taken apart with `bind_ok`.

An observer writes down what it sees of a run: `observed step note` is the
system together with the notes, which follow every step and hinder none
(`Reach.observe`).
-/

namespace HvfSched.Lib

/-- A sequence of two fallible calls succeeds when both do. -/
theorem bind_ok {ε α β : Type} {x : Except ε α} {f : α → Except ε β} {b : β} :
    (x >>= f) = .ok b ↔ ∃ a, x = .ok a ∧ f a = .ok b := by
  cases x with
  | error e =>
    constructor
    · intro h
      cases h
    · rintro ⟨a, h, _⟩
      cases h
  | ok a =>
    constructor
    · intro h
      exact ⟨a, rfl, h⟩
    · rintro ⟨a', h, hb⟩
      injection h with h
      subst h
      exact hb

theorem map_ok {ε α β : Type} {x : Except ε α} {f : α → β} {b : β} :
    x.map f = .ok b ↔ ∃ a, x = .ok a ∧ f a = b := by
  cases x with
  | error e =>
    constructor
    · intro h
      cases h
    · rintro ⟨a, h, _⟩
      cases h
  | ok a =>
    constructor
    · intro h
      injection h with h
      exact ⟨a, rfl, h⟩
    · rintro ⟨a', h, hb⟩
      injection h with h
      subst h
      exact congrArg Except.ok hb

theorem map_error {ε α β : Type} {x : Except ε α} {f : α → β} {e : ε} :
    x.map f = .error e ↔ x = .error e := by
  cases x with
  | error e' =>
    constructor
    · intro h
      injection h with h
      rw [h]
    · intro h
      injection h with h
      rw [h]
      rfl
  | ok a =>
    constructor
    · intro h
      cases h
    · intro h
      cases h

/-- Reading off the result of a call that was evaluated. -/
theorem toOption_map_eq_some {ε α β : Type} {x : Except ε α} {f : α → β} {b : β}
    (h : x.toOption.map f = some b) : ∃ a, x = .ok a ∧ f a = b := by
  cases x with
  | error e => cases h
  | ok a =>
    injection h with h
    exact ⟨a, rfl, h⟩

variable {σ α : Type} {init : σ → Prop} {step : σ → α → Option σ}

/-- The states reached by runs whose steps all meet `ok`. -/
inductive Reach (init : σ → Prop) (step : σ → α → Option σ) (ok : σ → α → Prop) : σ → Prop
  | start {s : σ} (h : init s) : Reach init step ok s
  | next {s s' : σ} {a : α} (hs : Reach init step ok s) (hok : ok s a)
      (hstep : step s a = some s') : Reach init step ok s'

/-- The invariant rule. -/
theorem Reach.invariant {ok : σ → α → Prop} (Inv : σ → Prop)
    (hinit : ∀ s, init s → Inv s)
    (hnext : ∀ s a s', Inv s → ok s a → step s a = some s' → Inv s')
    {s : σ} (h : Reach init step ok s) : Inv s := by
  induction h with
  | start hs => exact hinit _ hs
  | next _ hok hstep ih => exact hnext _ _ _ ih hok hstep

/-- A run under a stronger side condition is a run under a weaker one. -/
theorem Reach.mono {ok ok' : σ → α → Prop} (himp : ∀ s a, ok s a → ok' s a) {s : σ}
    (h : Reach init step ok s) : Reach init step ok' s := by
  induction h with
  | start hs => exact .start hs
  | next _ hok hstep ih => exact .next ih (himp _ _ hok) hstep

/-- A list of actions executed one after the other. -/
def runList (step : σ → α → Option σ) : List α → σ → Option σ
  | [], s => some s
  | a :: l, s =>
    match step s a with
    | none => none
    | some s' => runList step l s'

/-- What a list of actions leads to is reached without side conditions. -/
theorem Reach.of_runList {s s' : σ} (hs : Reach init step (fun _ _ => True) s) :
    ∀ {l : List α}, runList step l s = some s' → Reach init step (fun _ _ => True) s' := by
  intro l
  induction l generalizing s with
  | nil =>
    intro h
    injection h with h
    exact h ▸ hs
  | cons a l ih =>
    intro h
    rw [runList] at h
    split at h
    next => cases h
    next s₁ hstep => exact ih (.next hs trivial hstep) h

/-- The same execution, stopped at the first action that does not meet `ok`. -/
def runChecked (step : σ → α → Option σ) (ok : σ → α → Prop) [∀ s a, Decidable (ok s a)] :
    List α → σ → Option σ
  | [], s => some s
  | a :: l, s =>
    if ok s a then
      match step s a with
      | none => none
      | some s' => runChecked step ok l s'
    else none

theorem Reach.of_runChecked {ok : σ → α → Prop} [∀ s a, Decidable (ok s a)] {s s' : σ}
    (hs : Reach init step ok s) :
    ∀ {l : List α}, runChecked step ok l s = some s' → Reach init step ok s' := by
  intro l
  induction l generalizing s with
  | nil =>
    intro h
    injection h with h
    exact h ▸ hs
  | cons a l ih =>
    intro h
    rw [runChecked] at h
    split at h
    next hok =>
      split at h
      next => cases h
      next s₁ hstep => exact ih (.next hs hok hstep) h
    next => cases h

/-- A run that can be evaluated: what `f` shows of its last state is shown by
a reached state. -/
theorem Reach.of_eval {β : Type} (f : σ → β) {b : β} {s : σ} {l : List α} (hs : init s)
    (h : (runList step l s).map f = some b) :
    ∃ s', Reach init step (fun _ _ => True) s' ∧ f s' = b := by
  obtain ⟨s', hrun, hf⟩ := Option.map_eq_some_iff.mp h
  exact ⟨s', Reach.of_runList (.start hs) hrun, hf⟩

theorem Reach.of_check {β : Type} {ok : σ → α → Prop} [∀ s a, Decidable (ok s a)] (f : σ → β)
    {b : β} {s : σ} {l : List α} (hs : init s) (h : (runChecked step ok l s).map f = some b) :
    ∃ s', Reach init step ok s' ∧ f s' = b := by
  obtain ⟨s', hrun, hf⟩ := Option.map_eq_some_iff.mp h
  exact ⟨s', Reach.of_runChecked (.start hs) hrun, hf⟩

/-! ## Observers -/

section Observer

variable {γ : Type} {note : σ → α → σ → γ → γ} {start : γ}

/-- The system with the notes of an observer, who sees the state before the
step, the action and the state after it. -/
def observed (step : σ → α → Option σ) (note : σ → α → σ → γ → γ) (x : σ × γ) (a : α) :
    Option (σ × γ) :=
  (step x.1 a).map fun s' => (s', note x.1 a s' x.2)

theorem observed_eq_some {x y : σ × γ} {a : α} (h : observed step note x a = some y) :
    step x.1 a = some y.1 ∧ y.2 = note x.1 a y.1 x.2 := by
  obtain ⟨s', hs, rfl⟩ := Option.map_eq_some_iff.mp h
  exact ⟨hs, rfl⟩

/-- The runs of the system with the notes. -/
def Observed (init : σ → Prop) (step : σ → α → Option σ) (ok : σ → α → Prop)
    (note : σ → α → σ → γ → γ) (start : γ) : σ × γ → Prop :=
  Reach (fun x => init x.1 ∧ x.2 = start) (observed step note) (fun x a => ok x.1 a)

/-- Every run can be observed. -/
theorem Reach.observe {ok : σ → α → Prop} {s : σ} (h : Reach init step ok s)
    (note : σ → α → σ → γ → γ) (start : γ) : ∃ g, Observed init step ok note start (s, g) := by
  induction h with
  | start hs => exact ⟨start, Reach.start ⟨hs, rfl⟩⟩
  | @next s s' a _ hok hstep ih =>
    obtain ⟨g, hg⟩ := ih
    refine ⟨note s a s' g, Reach.next hg hok ?_⟩
    rw [observed, hstep]
    rfl

/-- An observed run that can be evaluated. -/
theorem Observed.of_check {β : Type} {ok : σ → α → Prop} [∀ s a, Decidable (ok s a)]
    (f : σ × γ → β) {b : β} {s : σ} {l : List α} (hs : init s)
    (h : (runChecked (observed step note) (fun x a => ok x.1 a) l (s, start)).map f = some b) :
    ∃ x, Observed init step ok note start x ∧ f x = b :=
  Reach.of_check f ⟨hs, rfl⟩ h

end Observer

end HvfSched.Lib
