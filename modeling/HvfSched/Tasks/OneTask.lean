import HvfSched.Tasks.Steps

/-!
# A step, seen from one task

`RecordStep` says what a step does to all records. An invariant about one task
only asks what happened to that task, and for most steps the answer is
nothing. `TaskStep` is that answer: one constructor for every way in which a
step can reach the record of `p`, and `same` for the rest. A class change is
one of four: within the class, out of it, into it, or between two other
classes; the last is `other`, together with the context switches of tasks of
other classes.
-/

namespace HvfSched

open Lib Sys

variable {E : Env} {s s' : Sys} {a : Act} {c : Cpu} {p q : TaskId}

/-- The CPUs on which `p` runs are the same. -/
def SameCpus (s s' : Sys) (p : TaskId) : Prop := ∀ d, (s'.rq d).curr = p ↔ (s.rq d).curr = p

theorem Still.sameCpus (h : Still s s') (p : TaskId) : SameCpus s s' p := by
  intro d
  rw [h.curr d]

/-- The put at the start of a class change, if the task is running. -/
def Clocked.putIf (E : Env) (current running : Bool) (x : Clocked) : Clocked :=
  if current then x.put E running else x

/-- The action changes the class of `p` from, to or within HVF, or activates
`p` as a new task of the class. -/
def reachesClass (s : Sys) (a : Act) (p : TaskId) : Prop :=
  (∃ cls, classTarget s a = some (p, cls) ∧ ((s.task p).schedClass = .hvf ∨ cls = .hvf)) ∨
    (a.isNew = true ∧ (s.task p).schedClass = .hvf ∧ ∃ d, activates s a = some (p, d))

inductive TaskStep (E : Env) (s : Sys) (a : Act) (s' : Sys) (p : TaskId) : Prop
  | same (hidle : ¬ reachesClass s a p) (hrec : (s'.task p).record = (s.task p).record)
      (hreads : s.reads ≤ s'.reads) (hcls : (s'.task p).schedClass = (s.task p).schedClass)
      (hcpus : SameCpus s s' p)
  | other (hidle : ¬ reachesClass s a p) (hrec : (s'.task p).record = (s.task p).record)
      (hreads : s.reads ≤ s'.reads) (hcls : (s.task p).schedClass ≠ .hvf)
      (hcls' : (s'.task p).schedClass ≠ .hvf)
  | tick (c : Cpu) (ha : a = .tick c) (hp : (s.rq c).curr = p)
      (hcls : (s.task p).schedClass = .hvf) (hrec : s'.clocked p = (s.clocked p).tick E (s.value p))
      (hstill : Still s s')
  | params (c : Cpu) (d1 d2 ct : Long) (ha : a = .setParams c d1 d2 ct) (hp : (s.rq c).curr = p)
      (hacc : paramsAccepted (s.now E) d1 d2 ct = true)
      (hrec : (s'.task p).record
        = { (s.task p).record with params := ⟨d1, d2, ct⟩, parsSet := true })
      (hreads : s.reads ≤ s'.reads) (hstill : Still s s')
  | put (c : Cpu) (how : Links.Leave) (hleave : leaves s a = some (c, how))
      (hp : (s.rq c).curr = p) (hcls : (s.task p).schedClass = .hvf)
      (hrec : (s'.task p).record
        = ((s.clocked p).put E (how.running (s.task p).isRunning)).record)
      (hreads : s.reads < s'.reads) (hcls' : (s'.task p).schedClass = .hvf)
      (hcpus : ∀ d, (s'.rq d).curr = p ↔ d ≠ c ∧ (s.rq d).curr = p)
  | dispatch (c : Cpu) (how : Links.Leave) (n : Nat) (hleave : leaves s a = some (c, how))
      (hne : (s.rq c).curr ≠ p) (hcls : (s.task p).schedClass = .hvf)
      (hrec : s'.clocked p = (Clocked.mk n (s.task p).record).dispatch E) (hreads : s.reads ≤ n)
      (hcls' : (s'.task p).schedClass = .hvf)
      (hcpus : ∀ d, (s'.rq d).curr = p ↔ d = c ∨ (s.rq d).curr = p)
  | enter (dest : Cpu) (hact : activates s a = some (p, dest)) (hnew : a.isNew = true)
      (hcls : (s.task p).schedClass = .hvf) (hrec : s'.clocked p = (s.clocked p).enter E)
      (hstill : Still s s')
  | stay (htarget : classTarget s a = some (p, .hvf)) (hcls : (s.task p).schedClass = .hvf)
      (hrec : s'.clocked p = if (s.task p).isQueued && a.initialises
        then ((s.clocked p).putIf E (s.isCurrent p) (s.task p).isRunning).enter E
        else (s.clocked p).putIf E (s.isCurrent p) (s.task p).isRunning)
      (hcls' : (s'.task p).schedClass = .hvf) (hcpus : SameCpus s s' p)
  | leave (cls : SchedClass) (htarget : classTarget s a = some (p, cls)) (hne : cls ≠ .hvf)
      (hcls : (s.task p).schedClass = .hvf)
      (hrec : s'.clocked p = ((s.clocked p).putIf E (s.isCurrent p) (s.task p).isRunning).clear)
      (hcls' : (s'.task p).schedClass = cls)
  | join (htarget : classTarget s a = some (p, .hvf)) (hcls : (s.task p).schedClass ≠ .hvf)
      (hrec : s'.clocked p = if (s.task p).isQueued && a.initialises
        then (s.clocked p).enter E else (s.clocked p).defaults E)
      (hcls' : (s'.task p).schedClass = .hvf) (hcpus : SameCpus s s' p)
  | born (c : Cpu) (t : TaskStruct) (hp : p = .task s.nextPid) (hfork : forks a = some c)
      (ht : schedFork (s.task (s.rq c).curr) = some t) (htask : s'.task p = finishChild c t)
      (hs : s' = addTask (finishChild c t) s)

/-- A piece that acts on another task leaves this one alone. -/
theorem On.record_ne {f : Clocked → Clocked} (h : On q f s s') (hp : p ≠ q) :
    (s'.task p).record = (s.task p).record ∧ (s'.task p).schedClass = (s.task p).schedClass :=
  ⟨record_of_data (h.others p hp), schedClass_of_data (h.others p hp)⟩

theorem On.record_self {f : Clocked → Clocked} (h : On p f s s') :
    (s'.task p).record = (f (s.clocked p)).record :=
  congrArg Clocked.record h.self

theorem TaskStep.of_still (hidle : ¬ reachesClass s a p)
    (hrec : (s'.task p).record = (s.task p).record) (hreads : s.reads ≤ s'.reads)
    (hstill : Still s s') : TaskStep E s a s' p :=
  .same hidle hrec hreads (hstill.schedClass p) (hstill.sameCpus p)

/-- An action that neither changes a class nor activates a new task. -/
theorem not_reachesClass (htarget : classTarget s a = none) (hnew : a.isNew = false)
    (p : TaskId) : ¬ reachesClass s a p := by
  rintro (⟨cls, hc, -⟩ | ⟨hn, -⟩)
  · rw [htarget] at hc
    cases hc
  · rw [hnew] at hn
    cases hn

/-- The running task is switched out. -/
theorem switch_prev {how : Links.Leave} {next : TaskId} {s₁ : Sys}
    (hleave : leaves s a = some (c, how)) (hp : (s.rq c).curr = p) (hne : next ≠ p)
    (hput : On p (fun x => if (s.task p).schedClass = .hvf
      then x.put E (how.running (s.task p).isRunning) else x) s s₁)
    (hset : On next (fun x => if (s.task next).schedClass = .hvf then x.dispatch E else x) s₁ s')
    (hcls : (s'.task p).schedClass = (s.task p).schedClass) (hself : (s'.rq c).curr = next)
    (hothers : ∀ d, d ≠ c → (s'.rq d).curr = (s.rq d).curr) (hreads : s.reads ≤ s'.reads) :
    TaskStep E s a s' p := by
  have hrec := (hset.record_ne (Ne.symm hne)).1.trans hput.record_self
  by_cases hhvf : (s.task p).schedClass = .hvf
  · rw [if_pos hhvf] at hrec
    refine .put c how hleave hp hhvf hrec ?_ (hcls.trans hhvf) ?_
    · -- the clock is read by the put, and possibly once more
      have h₁ : s₁.reads = s.reads + 1 := by
        have hr := congrArg Clocked.reads hput.self
        rw [if_pos hhvf] at hr
        exact hr
      have h₂ := congrArg Clocked.reads hset.self
      split at h₂
      next =>
        have h₂ : s'.reads = s₁.reads + 1 := h₂
        omega
      next =>
        have h₂ : s'.reads = s₁.reads := h₂
        omega
    · intro d
      by_cases hd : d = c
      · subst hd
        rw [hself]
        exact ⟨fun h => absurd h hne, fun h => absurd rfl h.1⟩
      · rw [hothers d hd]
        exact ⟨fun h => ⟨hd, h⟩, fun h => h.2⟩
  · rw [if_neg hhvf] at hrec
    obtain ⟨htarget, hnew⟩ := classTarget_of_leaves hleave
    exact .other (not_reachesClass htarget hnew p) hrec hreads hhvf
      (fun h => hhvf (hcls.symm.trans h))

/-- The picked task takes the CPU. -/
theorem switch_next {how : Links.Leave} {prev : TaskId} {s₁ : Sys} {f : Clocked → Clocked}
    (hleave : leaves s a = some (c, how)) (hp : (s.rq c).curr = prev) (hne : p ≠ prev)
    (hput : On prev f s s₁) (hreads : s.reads ≤ s₁.reads)
    (hset : On p (fun x => if (s.task p).schedClass = .hvf then x.dispatch E else x) s₁ s')
    (hcls : (s'.task p).schedClass = (s.task p).schedClass) (hself : (s'.rq c).curr = p)
    (hothers : ∀ d, d ≠ c → (s'.rq d).curr = (s.rq d).curr) (hreads' : s.reads ≤ s'.reads) :
    TaskStep E s a s' p := by
  have hself' := hset.self
  have hrec₁ := (hput.record_ne hne).1
  by_cases hhvf : (s.task p).schedClass = .hvf
  · rw [if_pos hhvf, clocked, clocked, hrec₁] at hself'
    refine .dispatch c how s₁.reads hleave ?_ hhvf hself' hreads (hcls.trans hhvf) ?_
    · rw [hp]
      exact Ne.symm hne
    · intro d
      by_cases hd : d = c
      · subst hd
        exact ⟨fun _ => Or.inl rfl, fun _ => hself⟩
      · rw [hothers d hd]
        exact ⟨Or.inr, fun h => h.resolve_left hd⟩
  · rw [if_neg hhvf] at hself'
    obtain ⟨htarget, hnew⟩ := classTarget_of_leaves hleave
    refine .other (not_reachesClass htarget hnew p) ?_ hreads' hhvf
      (fun h => hhvf (hcls.symm.trans h))
    exact (congrArg Clocked.record hself').trans hrec₁

/-- A child starts with the record of its parent, without parameters. -/
theorem fork_taskStep {t : TaskStruct} (hfork : forks a = some c)
    (ht : schedFork (s.task (s.rq c).curr) = some t) (hs : s' = addTask (finishChild c t) s)
    (p : TaskId) : TaskStep E s a s' p := by
  have htask : s'.task p = if p = .task s.nextPid then finishChild c t else s.task p := by
    rw [hs]
    exact setTask_task ..
  have hrq : s'.rq = s.rq := by
    rw [hs]
    rfl
  by_cases hp : p = .task s.nextPid
  · rw [if_pos hp] at htask
    exact .born c t hp hfork ht htask hs
  · rw [if_neg hp] at htask
    have hidle : ¬ reachesClass s a p := by
      cases a with
      | fork c' => exact not_reachesClass rfl rfl p
      | _ => cases hfork
    refine .same hidle ?_ ?_ ?_ ?_
    · rw [htask]
    · rw [hs]
      exact Nat.le_refl _
    · rw [htask]
    · intro d
      rw [hrq]

/-- A task that has parameters gets no others. -/
theorem Clocked.defaults_enter (E : Env) (x : Clocked) : (x.defaults E).enter E = x.enter E := by
  have hset : (x.defaults E).record.parsSet = true := by
    unfold Clocked.defaults
    split
    next h => exact h
    next => rfl
  have htwice : (x.defaults E).defaults E = x.defaults E := if_pos hset
  rw [Clocked.enter, htwice]
  rfl

/-- The stages of a class change, by the class before and the class after. -/
theorem change_taskStep {cls : SchedClass} (htarget : classTarget s a = some (p, cls))
    (hrec : s'.clocked p = s.changeRecord E p cls a.initialises (s.clocked p))
    (hcls : (s'.task p).schedClass = cls) (hcurr : ∀ d, (s'.rq d).curr = (s.rq d).curr)
    (hreads : s.reads ≤ s'.reads) : TaskStep E s a s' p := by
  have hcpus : SameCpus s s' p := by
    intro d
    rw [hcurr d]
  unfold changeRecord Clocked.change at hrec
  by_cases hold : (s.task p).schedClass = .hvf
  · by_cases hnew : cls = .hvf
    · subst hnew
      simp only [hold, beq_self_eq_true, bne_self_eq_false, Bool.and_true, Bool.and_false,
        Bool.false_eq_true, if_false] at hrec
      exact .stay htarget hold hrec hcls hcpus
    · have hbeq : (cls == SchedClass.hvf) = false := beq_false_of_ne hnew
      have hbne : (cls != SchedClass.hvf) = true := bne_iff_ne.mpr hnew
      simp only [hold, hbeq, hbne, beq_self_eq_true, Bool.and_true, Bool.and_false,
        Bool.false_and, Bool.false_eq_true, if_false, if_true] at hrec
      exact .leave cls htarget hnew hold hrec hcls
  · have hbeq₀ : ((s.task p).schedClass == SchedClass.hvf) = false := beq_false_of_ne hold
    have hbne₀ : ((s.task p).schedClass != SchedClass.hvf) = true := bne_iff_ne.mpr hold
    by_cases hnew : cls = .hvf
    · subst hnew
      simp only [hbeq₀, hbne₀, beq_self_eq_true, Bool.and_true, Bool.and_false, Bool.false_and,
        Bool.false_eq_true, if_false, if_true, Clocked.defaults_enter] at hrec
      exact .join htarget hold hrec hcls hcpus
    · have hbeq : (cls == SchedClass.hvf) = false := beq_false_of_ne hnew
      simp only [hbeq₀, hbeq, Bool.and_false, Bool.false_and, Bool.false_eq_true,
        if_false] at hrec
      refine .other ?_ (congrArg Clocked.record hrec) hreads hold ?_
      · rintro (⟨cls', hc, hin⟩ | ⟨-, hin, -⟩)
        · rw [htarget] at hc
          injection hc with hc
          injection hc with _ hc
          exact hin.elim hold (fun h => hnew (hc.trans h))
        · exact hold hin
      · rw [hcls]
        exact hnew

/-- Every step reaches a task in one of the ways. -/
theorem step_task (h : step E s a = some s') (p : TaskId) : TaskStep E s a s' p := by
  have hreads := (step_record h).reads_le
  cases step_record h with
  | same htarget hnew hrec _ hstill =>
    exact .of_still (not_reachesClass htarget hnew p) (hrec p) hreads hstill
  | tick c ha hcls hon hstill =>
    by_cases hp : (s.rq c).curr = p
    · subst hp
      exact .tick c ha rfl hcls hon.self hstill
    · subst ha
      exact .of_still (not_reachesClass rfl rfl p) (hon.record_ne (Ne.symm hp)).1 hreads hstill
  | params c d1 d2 ct ha hacc hon hstill =>
    by_cases hp : (s.rq c).curr = p
    · subst hp
      exact .params c d1 d2 ct ha rfl hacc hon.record_self hreads hstill
    · subst ha
      exact .of_still (not_reachesClass rfl rfl p) (hon.record_ne (Ne.symm hp)).1 hreads hstill
  | switch c how next s₁ hleave hne hput hset hcls hself hothers =>
    by_cases hprev : (s.rq c).curr = p
    · rw [hprev] at hput hne
      exact switch_prev hleave hprev hne hput hset (hcls p) hself hothers hreads
    · by_cases hnext : next = p
      · subst hnext
        refine switch_next hleave rfl hne hput ?_ hset (hcls next) hself hothers hreads
        rw [hput.reads]
        split
        next => exact Nat.le_succ _
        next => exact Nat.le_refl _
      · -- neither the old task nor the new one
        obtain ⟨htarget, hnew⟩ := classTarget_of_leaves hleave
        refine .same (not_reachesClass htarget hnew p) ?_ hreads (hcls p) ?_
        · exact (hset.record_ne (Ne.symm hnext)).1.trans (hput.record_ne (Ne.symm hprev)).1
        · intro d
          by_cases hd : d = c
          · subst hd
            rw [hself]
            exact ⟨fun h => absurd h hnext, fun h => absurd h hprev⟩
          · rw [hothers d hd]
  | activate q dest hact hon hstill =>
    have htarget : classTarget s a = none := by
      cases a with
      | wake => rfl
      | wakeNew => rfl
      | _ => cases hact
    by_cases hnew : p = q ∧ (s.task p).schedClass = .hvf ∧ a.isNew = true
    · obtain ⟨rfl, hnew⟩ := hnew
      have hself := hon.self
      rw [if_pos hnew] at hself
      exact .enter dest hact hnew.2 hnew.1 hself hstill
    · have hidle : ¬ reachesClass s a p := by
        rintro (⟨cls, hc, -⟩ | ⟨hn, hc, d, hd⟩)
        · rw [htarget] at hc
          cases hc
        · rw [hact] at hd
          injection hd with hd
          injection hd with hq _
          exact hnew ⟨hq.symm, hc, hn⟩
      refine .of_still hidle ?_ hreads hstill
      by_cases hp : p = q
      · subst hp
        have hrec := hon.record_self
        rw [if_neg (fun hc => hnew ⟨rfl, hc⟩)] at hrec
        exact hrec
      · exact (hon.record_ne hp).1
  | change q cls htarget hon hself hcurr =>
    by_cases hp : p = q
    · subst hp
      exact change_taskStep htarget hon.self hself hcurr hreads
    · refine .same ?_ (hon.record_ne hp).1 hreads (hon.record_ne hp).2 ?_
      · rintro (⟨cls', hc, -⟩ | ⟨hn, -, d, hd⟩)
        · rw [htarget] at hc
          injection hc with hc
          injection hc with hq _
          exact hp hq.symm
        · -- a class change activates nobody
          cases a with
          | wakeNew => cases htarget
          | _ => cases hn
      · intro d
        rw [hcurr d]
  | fork c t hfork ht hs => exact fork_taskStep hfork ht hs p

/-- A task comes into the class by a class change only. -/
theorem TaskStep.joins (h : TaskStep E s a s' p) (hcls : (s.task p).schedClass ≠ .hvf)
    (hcls' : (s'.task p).schedClass = .hvf) :
    classTarget s a = some (p, .hvf) ∧
      s'.clocked p = if (s.task p).isQueued && a.initialises
        then (s.clocked p).enter E else (s.clocked p).defaults E := by
  cases h with
  | join htarget _ hrec _ _ => exact ⟨htarget, hrec⟩
  | same _ _ _ hsame _ => exact absurd (hsame.symm.trans hcls') hcls
  | other _ _ _ _ hout => exact absurd hcls' hout
  | params _ _ _ _ _ _ _ _ _ hstill => exact absurd ((hstill.schedClass p).symm.trans hcls') hcls
  | tick _ _ _ hin => exact absurd hin hcls
  | put _ _ _ _ hin => exact absurd hin hcls
  | dispatch _ _ _ _ _ hin => exact absurd hin hcls
  | enter _ _ _ hin => exact absurd hin hcls
  | stay _ hin => exact absurd hin hcls
  | leave _ _ _ hin => exact absurd hin hcls
  | born c t _ _ ht htask =>
    rw [htask] at hcls'
    exact absurd hcls' (schedFork_forked c ht).schedClass

end HvfSched
