import HvfSched.Runs.Charge

/-!
# Response times

When a task of the class has died, `register_entity_info` reports the time from
`first_time` to `cpu_first_answer` as its response time. The two fields are not
written together. `init_sched_hvf_entity` takes the first time and sets the
number of answers back to zero; `cpu_first_answer` keeps what it has until
`set_next_task_hvf` counts an answer and finds that it is the first one.

`set_next_task_hvf` counts nothing when `first` is clear, and that is how the
core sets a task that was running while its class was changed. If such a task
ends before it has been switched out and in again, the answer in the report is
one from before the entry: of an earlier stay in the class, of the parent, or no
time at all (`exit_before_answer`).

An observer notes whether the task has taken the CPU in the class since it was
initialised. If it has, its first answer lies between the first time and now;
if not, the answer is not later than the entry, and the report is right only if
the two are the same millisecond (`response_time_sane_iff`).
-/

namespace HvfSched

open Lib Sys

variable {E : Env} {s s' : Sys} {a : Act} {c : Cpu} {p : TaskId}

/-! ## The fields of the report -/

/-- The first time, the number of answers and the first answer. -/
def Record.answering (r : Record) : Long × Int32 × Long := (r.first, r.answers, r.firstAnswer)

namespace Clocked

variable (x : Clocked)

theorem answering_defaults : (x.defaults E).record.answering = x.record.answering := by
  have h := congrArg Record.answering (x.timing_defaults E)
  exact h

theorem answering_clear : x.clear.record.answering = x.record.answering := by
  have h := congrArg Record.answering x.timing_clear
  exact h

theorem answering_putIf (current running : Bool) :
    (x.putIf E current running).record.answering = x.record.answering := by
  cases current with
  | true => rfl
  | false => rfl

/-- Initialising leaves the first answer as it is. -/
theorem answering_enter :
    (x.enter E).record.answering
      = (stampMs (E.clock (x.defaults E).reads), 0, x.record.firstAnswer) := by
  have hkeep : (x.defaults E).record.firstAnswer = x.record.firstAnswer :=
    congrArg (fun y => y.2.2) x.answering_defaults
  rw [← hkeep]
  rfl

theorem reads_putIf (current running : Bool) : x.reads ≤ (x.putIf E current running).reads := by
  cases current with
  | true => exact Nat.le_succ _
  | false => exact Nat.le_refl _

end Clocked

/-! ## Answers -/

/-- In this step `p` takes the CPU as a task of the class, so that
`set_next_task_hvf` is called for it with `first` set. -/
def answersTask (s : Sys) (a : Act) (s' : Sys) (p : TaskId) : Bool :=
  (leaves s a).any fun x =>
    (s.rq x.1).curr != p && (s'.rq x.1).curr == p && (s.task p).schedClass == .hvf

theorem answersTask_iff :
    answersTask s a s' p = true ↔ ∃ c how, leaves s a = some (c, how) ∧ (s.rq c).curr ≠ p ∧
      (s'.rq c).curr = p ∧ (s.task p).schedClass = .hvf := by
  simp [answersTask, Option.any_eq_true, and_assoc]

/-- A task that runs where it ran takes no CPU. -/
theorem not_answers_of_same (h : SameCpus s s' p) : answersTask s a s' p = false := by
  rw [Bool.eq_false_iff]
  intro hans
  obtain ⟨c, how, -, hne, hcurr, -⟩ := answersTask_iff.mp hans
  exact hne ((h c).mp hcurr)

theorem not_answers_of_ne (h : (s.task p).schedClass ≠ .hvf) : answersTask s a s' p = false := by
  rw [Bool.eq_false_iff]
  intro hans
  obtain ⟨c, how, -, -, -, hin⟩ := answersTask_iff.mp hans
  exact h hin

/-- The task that is switched out takes no CPU. -/
theorem not_answers_of_put {how : Links.Leave} (hleave : leaves s a = some (c, how))
    (hp : (s.rq c).curr = p) : answersTask s a s' p = false := by
  rw [answersTask, hleave]
  simp [hp]

/-- Class changes do not switch. -/
theorem not_answers_of_target {x : TaskId × SchedClass} (h : classTarget s a = some x) :
    answersTask s a s' p = false := by
  cases a with
  | schedule => cases h
  | doTaskDead => cases h
  | _ => rfl

/-- What a step does to the fields of the report, for one task. -/
inductive AnswerStep (E : Env) (s : Sys) (a : Act) (s' : Sys) (p : TaskId) : Prop
  | keep (hnot : answersTask s a s' p = false) (hreads : s.reads ≤ s'.reads)
      (hsame : (s'.task p).record.answering = (s.task p).record.answering)
  | answer (n : Nat) (hans : answersTask s a s' p = true) (hlo : s.reads ≤ n)
      (hhi : s'.reads = n + 1)
      (hnew : (s'.task p).record.answering
        = ((Clocked.mk n (s.task p).record).dispatch E).record.answering)
  | init (n : Nat) (hinit : initialisesTask s a p = true) (hlo : s.reads ≤ n)
      (hhi : s'.reads = n + 1)
      (hnew : (s'.task p).record.answering
        = (stampMs (E.clock n), 0, (s.task p).record.firstAnswer))
  | born (parent : TaskId) (hp : p = .task s.nextPid) (hreads : s'.reads = s.reads)
      (hsame : (s'.task p).record.answering = (s.task parent).record.answering)

/-- A task is initialised, possibly after it was put. -/
theorem AnswerStep.of_enter {x : Clocked} (hinit : initialisesTask s a p = true)
    (hrec : s'.clocked p = x.enter E) (hreads : s.reads ≤ x.reads)
    (hx : x.record.answering = (s.task p).record.answering) : AnswerStep E s a s' p := by
  refine .init (x.defaults E).reads hinit ?_ (congrArg Clocked.reads hrec) ?_
  · exact Nat.le_trans hreads x.reads_defaults
  · have hnew := congrArg (fun y : Clocked => y.record.answering) hrec
    rw [x.answering_enter] at hnew
    have hkeep : x.record.firstAnswer = (s.task p).record.firstAnswer :=
      congrArg (fun y => y.2.2) hx
    rw [← hkeep]
    exact hnew

theorem step_answer (hstep : step E s a = some s') (p : TaskId) : AnswerStep E s a s' p := by
  have hreads := (step_record hstep).reads_le
  cases step_task hstep p with
  | same hidle hrec _ hcls hcpus =>
    exact .keep (not_answers_of_same hcpus) hreads (congrArg Record.answering hrec)
  | other hidle hrec _ hcls hcls' =>
    exact .keep (not_answers_of_ne hcls) hreads (congrArg Record.answering hrec)
  | tick c ha hp hcls hrec hstill =>
    subst ha
    refine .keep rfl hreads ?_
    exact congrArg (fun y : Clocked => y.record.answering) hrec
  | params c d1 d2 ct ha hp hacc hrec _ hstill =>
    subst ha
    refine .keep rfl hreads ?_
    rw [hrec]
    rfl
  | put c how hleave hp hcls hrec _ hcls' hcpus =>
    refine .keep (not_answers_of_put hleave hp) hreads ?_
    rw [hrec]
    rfl
  | dispatch c how n hleave hne hcls hrec hlo hcls' hcpus =>
    refine .answer n ?_ hlo (congrArg Clocked.reads hrec) ?_
    · exact answersTask_iff.mpr ⟨c, how, hleave, hne, (hcpus c).mpr (Or.inl rfl), hcls⟩
    · exact congrArg (fun y : Clocked => y.record.answering) hrec
  | enter dest hact hnew hcls hrec hstill =>
    refine .of_enter ?_ hrec (Nat.le_refl _) rfl
    unfold initialisesTask
    rw [hact, hnew, hcls]
    simp
  | stay htarget hcls hrec hcls' hcpus =>
    by_cases hinit : ((s.task p).isQueued && a.initialises) = true
    · rw [if_pos hinit] at hrec
      exact .of_enter (initialises_of_target htarget hinit) hrec ((s.clocked p).reads_putIf _ _)
        ((s.clocked p).answering_putIf _ _)
    · rw [if_neg hinit] at hrec
      refine .keep (not_answers_of_target htarget) hreads ?_
      have hsame := congrArg (fun y : Clocked => y.record.answering) hrec
      rw [Clocked.answering_putIf] at hsame
      exact hsame
  | leave cls htarget hne hcls hrec hcls' =>
    refine .keep (not_answers_of_target htarget) hreads ?_
    have hsame := congrArg (fun y : Clocked => y.record.answering) hrec
    rw [Clocked.answering_clear, Clocked.answering_putIf] at hsame
    exact hsame
  | join htarget hcls hrec hcls' hcpus =>
    by_cases hinit : ((s.task p).isQueued && a.initialises) = true
    · rw [if_pos hinit] at hrec
      exact .of_enter (initialises_of_target htarget hinit) hrec (Nat.le_refl _) rfl
    · rw [if_neg hinit] at hrec
      refine .keep (not_answers_of_target htarget) hreads ?_
      have hsame := congrArg (fun y : Clocked => y.record.answering) hrec
      rw [Clocked.answering_defaults] at hsame
      exact hsame
  | born c t hp hfork ht htask hs =>
    refine .born (s.rq c).curr hp ?_ ?_
    · rw [hs]
      rfl
    · have hhvf : (s'.task p).hvf = (s.task (s.rq c).curr).hvf := by
        rw [htask]
        show t.hvf = _
        exact schedFork_hvf ht
      show ((s'.task p).hvf.firstTime, (s'.task p).hvf.cpuAnswers, (s'.task p).hvf.cpuFirstAnswer)
        = _
      rw [hhvf]
      rfl

/-! ## Every answer is a reading of the clock, or none -/

/-- The first answer of every task lies in the past. -/
def AnswersPast (E : Env) (s : Sys) : Prop :=
  ∀ p, 0 ≤ (s.task p).hvf.cpuFirstAnswer.toInt ∧
    (s.task p).hvf.cpuFirstAnswer.toInt ≤ stampAt E s.reads

theorem boot_answersPast (hclock : ClockRises E) : AnswersPast E boot := by
  intro p
  have hzero : (boot.task p).hvf.cpuFirstAnswer = 0 := by
    cases p with
    | idle c => rfl
    | task n => rfl
  rw [hzero]
  exact ⟨Int.le_refl 0, hclock.nonneg 0⟩

theorem AnswersPast.step (hclock : ClockRises E) (h : AnswersPast E s)
    (hstep : HvfSched.step E s a = some s') : AnswersPast E s' := by
  intro p
  have hreads : stampAt E s.reads ≤ stampAt E s'.reads :=
    hclock.mono _ _ (step_record hstep).reads_le
  -- an answer of the state before, of `p` or of its parent
  have hold : ∀ {q : TaskId}, (s'.task p).hvf.cpuFirstAnswer = (s.task q).hvf.cpuFirstAnswer →
      0 ≤ (s'.task p).hvf.cpuFirstAnswer.toInt ∧
        (s'.task p).hvf.cpuFirstAnswer.toInt ≤ stampAt E s'.reads := by
    intro q hsame
    rw [hsame]
    exact ⟨(h q).1, Int.le_trans (h q).2 hreads⟩
  cases step_answer hstep p with
  | keep _ _ hsame => exact hold (congrArg (fun y => y.2.2) hsame)
  | init n _ _ _ hnew => exact hold (q := p) (congrArg (fun y => y.2.2) hnew)
  | born parent _ _ hsame => exact hold (congrArg (fun y => y.2.2) hsame)
  | answer n _ hlo hhi hnew =>
    have hnew : (s'.task p).hvf.cpuFirstAnswer
        = if (s.task p).hvf.cpuAnswers + 1 = 1 then stampMs (E.clock n)
          else (s.task p).hvf.cpuFirstAnswer := congrArg (fun y => y.2.2) hnew
    split at hnew
    next =>
      rw [hnew, hhi]
      exact ⟨hclock.nonneg n, hclock.mono _ _ (Nat.le_succ n)⟩
    next => exact hold hnew

theorem reached_answersPast {ok : Sys → Act → Prop} (hclock : ClockRises E) (h : Reached E ok s) :
    AnswersPast E s := by
  refine Reach.invariant (AnswersPast E) ?_ ?_ h
  · intro s hs
    rw [hs]
    exact boot_answersPast hclock
  · intro s a s' hs _ hstep
    exact hs.step hclock hstep

/-! ## From the entry to the report -/

/-- Has `p` taken the CPU in the class by now? -/
def noteAnswer (p : TaskId) (s : Sys) (a : Act) (s' : Sys) (answered : Bool) : Bool :=
  answered || answersTask s a s' p

/-- The runs from `s₁` on in which `p` is not initialised again. -/
def SinceEntry (E : Env) (p : TaskId) (s₁ : Sys) : Sys × Bool → Prop :=
  Observed (fun s => s = s₁) (step E) (fun s a => initialisesTask s a p = false) (noteAnswer p) false

/-- The entity of a task that was initialised at `first` and had the first
answer `old` then. -/
structure AwaitsReport (E : Env) (p : TaskId) (first old : Long) (s : Sys) (answered : Bool) :
    Prop where
  live : s.isLive p = true
  firstTime : (s.task p).hvf.firstTime = first
  past : first.toInt ≤ stampAt E s.reads
  silent : answered = false →
    (s.task p).hvf.cpuAnswers = 0 ∧ (s.task p).hvf.cpuFirstAnswer = old
  answered : answered = true → first.toInt ≤ (s.task p).hvf.cpuFirstAnswer.toInt ∧
    (s.task p).hvf.cpuFirstAnswer.toInt ≤ stampAt E s.reads

namespace AwaitsReport

variable {first old : Long} {answered : Bool}

theorem step (hclock : ClockRises E) (h : AwaitsReport E p first old s answered)
    (hinit : initialisesTask s a p = false) (hstep : HvfSched.step E s a = some s') :
    AwaitsReport E p first old s' (noteAnswer p s a s' answered) := by
  have hlive := step_isLive hstep h.live
  have hreads := hclock.mono _ _ (step_record hstep).reads_le
  have hpast := Int.le_trans h.past hreads
  unfold noteAnswer
  cases step_answer hstep p with
  | keep hnot _ hsame =>
    have hfirst : (s'.task p).hvf.firstTime = (s.task p).hvf.firstTime :=
      congrArg (fun y => y.1) hsame
    have hcount : (s'.task p).hvf.cpuAnswers = (s.task p).hvf.cpuAnswers :=
      congrArg (fun y => y.2.1) hsame
    have hans : (s'.task p).hvf.cpuFirstAnswer = (s.task p).hvf.cpuFirstAnswer :=
      congrArg (fun y => y.2.2) hsame
    rw [hnot, Bool.or_false]
    refine ⟨hlive, hfirst.trans h.firstTime, hpast, ?_, ?_⟩
    · rw [hcount, hans]
      exact h.silent
    · intro hyes
      rw [hans]
      exact ⟨(h.answered hyes).1, Int.le_trans (h.answered hyes).2 hreads⟩
  | answer n hyes hlo hhi hnew =>
    have hfirst : (s'.task p).hvf.firstTime = (s.task p).hvf.firstTime :=
      congrArg (fun y => y.1) hnew
    have hans : (s'.task p).hvf.cpuFirstAnswer
        = if (s.task p).hvf.cpuAnswers + 1 = 1 then stampMs (E.clock n)
          else (s.task p).hvf.cpuFirstAnswer := congrArg (fun y => y.2.2) hnew
    have hfirstRead := Int.le_trans h.past (hclock.mono _ _ hlo)
    have hlast : stampAt E n ≤ stampAt E s'.reads := by
      rw [hhi]
      exact hclock.mono _ _ (Nat.le_succ n)
    rw [hyes, Bool.or_true]
    refine ⟨hlive, hfirst.trans h.firstTime, hpast, (by intro hno; cases hno), ?_⟩
    intro _
    by_cases hone : (s.task p).hvf.cpuAnswers + 1 = 1
    · -- the first answer, or the counter has come round
      rw [hans, if_pos hone]
      exact ⟨hfirstRead, hlast⟩
    · have hbefore : answered = true := by
        rw [← Bool.not_eq_false]
        intro hno
        apply hone
        rw [(h.silent hno).1]
        rfl
      rw [hans, if_neg hone]
      exact ⟨(h.answered hbefore).1, Int.le_trans (h.answered hbefore).2 hreads⟩
  | init n hyes _ _ _ =>
    rw [hinit] at hyes
    cases hyes
  | born parent hp _ _ =>
    -- a task that lives is not created again
    exact absurd hp (ne_next_of_live h.live)

theorem run {s₁ : Sys} (hclock : ClockRises E) (hstart : AwaitsReport E p first old s₁ false)
    {x : Sys × Bool} (h : SinceEntry E p s₁ x) : AwaitsReport E p first old x.1 x.2 := by
  refine Reach.invariant (fun x => AwaitsReport E p first old x.1 x.2) ?_ ?_ h
  · rintro ⟨s, b⟩ ⟨hs, hb⟩
    dsimp only at hs hb ⊢
    rw [hs, hb]
    exact hstart
  · rintro ⟨s, b⟩ a ⟨s', b'⟩ hx hok hstep
    obtain ⟨hs, hb⟩ := observed_eq_some hstep
    dsimp only at hs hb hx ⊢
    rw [hb]
    exact hx.step hclock hok hs

/-- The reported times, in numbers: nothing wraps around. -/
theorem report_toInt (hclock : ClockRises E) (h : AwaitsReport E p first old s answered)
    (hfirst : 0 ≤ first.toInt) (hans : 0 ≤ (s.task p).hvf.cpuFirstAnswer.toInt) (pid : Nat) :
    (registerEntityInfo (s.now E) (s.task p).hvf pid).responseTime.toInt
        = (s.task p).hvf.cpuFirstAnswer.toInt - first.toInt ∧
      (registerEntityInfo (s.now E) (s.task p).hvf pid).turnaroundTime.toInt
        = stampAt E s.reads - first.toInt := by
  have hmax := (fits_toInt first).2
  have hmax₁ := (fits_toInt (s.task p).hvf.cpuFirstAnswer).2
  have hmax₂ := (fits_toInt (stampMs (E.clock s.reads))).2
  have hnow := hclock.nonneg s.reads
  constructor
  · show ((s.task p).hvf.cpuFirstAnswer - (s.task p).hvf.firstTime).toInt = _
    rw [h.firstTime]
    exact toInt_sub_of_fits ⟨by omega, by omega⟩
  · show (stampMs (E.clock s.reads) - (s.task p).hvf.firstTime).toInt = _
    rw [h.firstTime]
    unfold stampAt at hnow
    exact toInt_sub_of_fits ⟨by omega, by omega⟩

/-- The report is sane if the task has answered, or if the old answer is as late
as the entry. -/
theorem sane_iff (hclock : ClockRises E) (h : AwaitsReport E p first old s answered)
    (hold : 0 ≤ old.toInt ∧ old.toInt ≤ first.toInt) (pid : Nat) :
    (0 ≤ (registerEntityInfo (s.now E) (s.task p).hvf pid).responseTime ∧
      (registerEntityInfo (s.now E) (s.task p).hvf pid).responseTime
        ≤ (registerEntityInfo (s.now E) (s.task p).hvf pid).turnaroundTime) ↔
      answered = true ∨ old = first := by
  have hfirst : 0 ≤ first.toInt := Int.le_trans hold.1 hold.2
  have hpast := h.past
  have hzero : (0 : Long).toInt = 0 := rfl
  cases answered with
  | true =>
    obtain ⟨hlo, hhi⟩ := h.answered rfl
    obtain ⟨hresp, hturn⟩ := h.report_toInt hclock hfirst (Int.le_trans hfirst hlo) pid
    rw [Int64.le_iff_toInt_le, Int64.le_iff_toInt_le, hresp, hturn, hzero]
    exact ⟨fun _ => Or.inl rfl, fun _ => ⟨by omega, by omega⟩⟩
  | false =>
    have hans := (h.silent rfl).2
    obtain ⟨hresp, hturn⟩ := h.report_toInt hclock hfirst (by rw [hans]; exact hold.1) pid
    rw [Int64.le_iff_toInt_le, Int64.le_iff_toInt_le, hresp, hturn, hzero, hans, ← Int64.toInt_inj]
    -- the old answer is not after the entry, so the response time is not positive
    constructor
    · rintro ⟨hpos, -⟩
      right
      omega
    · rintro (hno | hsame)
      · cases hno
      · exact ⟨by omega, by omega⟩

end AwaitsReport

/-- What `task_dead_hvf` reports when CPU `c` buries task `n`. -/
def deathReport (E : Env) (s : Sys) (c : Cpu) (n : Nat) : Option EntityInfo :=
  if (s.rq c).deadPrev = some (.task n) ∧ (s.task (.task n)).schedClass = .hvf then
    some (registerEntityInfo (s.now E) (s.task (.task n)).hvf n)
  else none

/-- The call that brings a queued task into the class takes its first time, and
leaves the answer it has. -/
theorem setscheduler_awaitsReport (hclock : ClockRises E) {ck : Checks} {attr : SchedAttr}
    {user pi : Bool} (hpast : AnswersPast E s)
    (hstep : step E s (.setscheduler ck p attr user pi) = some s')
    (hcls : (s.task p).schedClass ≠ .hvf) (hcls' : (s'.task p).schedClass = .hvf)
    (hqueued : (s.task p).isQueued = true) :
    AwaitsReport E p (s'.task p).hvf.firstTime (s.task p).hvf.cpuFirstAnswer s' false ∧
      (s.task p).hvf.cpuFirstAnswer.toInt ≤ (s'.task p).hvf.firstTime.toInt := by
  obtain ⟨htarget, hrec⟩ := (step_task hstep p).joins hcls hcls'
  rw [hqueued, initialises_of_join htarget hcls, Bool.and_self, if_pos rfl] at hrec
  have hlive : s.isLive p = true := by
    have hen := (step_ok hstep).1
    simp only [enabled, Bool.and_eq_true] at hen
    exact hen.1.1
  have hnew := congrArg (fun y : Clocked => y.record.answering) hrec
  rw [Clocked.answering_enter] at hnew
  have hfirst : (s'.task p).hvf.firstTime = stampMs (E.clock ((s.clocked p).defaults E).reads) :=
    congrArg (fun y => y.1) hnew
  have hreads : s'.reads = ((s.clocked p).defaults E).reads + 1 := congrArg Clocked.reads hrec
  constructor
  · refine ⟨step_isLive hstep hlive, rfl, ?_, ?_, ?_⟩
    · rw [hfirst, hreads]
      exact hclock.mono _ _ (Nat.le_succ _)
    · intro _
      exact ⟨congrArg (fun y => y.2.1) hnew, congrArg (fun y => y.2.2) hnew⟩
    · intro hyes
      cases hyes
  · rw [hfirst]
    exact Int.le_trans (hpast p).2 (hclock.mono _ _ (s.clocked p).reads_defaults)

/-- A task enters the class queued (as a running task is, too) and later dies in
it, without being initialised again. Its reported response time lies between
zero and the turnaround time exactly if it has taken the CPU in the class since
the entry, or the answer it had before is of the millisecond of the entry. -/
theorem response_time_sane_iff (E : Env) (hclock : ClockRises E) (s s₁ s₂ : Sys) (n : Nat)
    (ck : Checks) (attr : SchedAttr) (user pi answered : Bool) (c : Cpu) (r : EntityInfo)
    (hs : Reached E (fun _ _ => True) s)
    (hentry : step E s (.setscheduler ck (.task n) attr user pi) = some s₁)
    (hcls : (s.task (.task n)).schedClass ≠ .hvf) (hcls₁ : (s₁.task (.task n)).schedClass = .hvf)
    (hqueued : (s.task (.task n)).isQueued = true)
    (hrun : SinceEntry E (.task n) s₁ (s₂, answered)) (hdead : deathReport E s₂ c n = some r) :
    0 ≤ r.responseTime ∧ r.responseTime ≤ r.turnaroundTime ↔
      answered = true ∨
        (s.task (.task n)).hvf.cpuFirstAnswer = (s₁.task (.task n)).hvf.firstTime := by
  have hpast := reached_answersPast hclock hs
  obtain ⟨hstart, hold⟩ := setscheduler_awaitsReport hclock hpast hentry hcls hcls₁ hqueued
  have hend := hstart.run hclock hrun
  unfold deathReport at hdead
  split at hdead
  next =>
    rw [← Option.some.inj hdead]
    exact hend.sane_iff hclock ⟨(hpast (.task n)).1, hold⟩ n
  next => cases hdead

/-- The entry of task `n`, and a run from there. -/
def enterAndRun (E : Env) (n : Nat) (l : List Act) (s : Sys) : Option (Sys × Sys × Bool) :=
  (step E s (.setscheduler permissive (.task n) (plainAttr 8) true true)).bind fun s₁ =>
    (runChecked (observed (step E) (noteAnswer (.task n)))
      (fun x a => initialisesTask x.1 a (.task n) = false) l (s₁, false)).map fun x => (s₁, x)

theorem enterAndRun_eq_some {n : Nat} {l : List Act} {s₁ s₂ : Sys} {answered : Bool}
    (h : enterAndRun E n l s = some (s₁, s₂, answered)) :
    step E s (.setscheduler permissive (.task n) (plainAttr 8) true true) = some s₁ ∧
      SinceEntry E (.task n) s₁ (s₂, answered) := by
  obtain ⟨s₁', hstep, hrest⟩ := Option.bind_eq_some_iff.mp h
  obtain ⟨x, hrun, heq⟩ := Option.map_eq_some_iff.mp hrest
  injection heq with h₁ h₂
  subst h₁ h₂
  exact ⟨hstep, Reach.of_runChecked (.start ⟨rfl, rfl⟩) hrun⟩

/-- A task that waits when it enters the class, is switched in and ends. -/
theorem response_time_sane_after_dispatch :
    ∃ s s₁ s₂ r, Reached steadyEnv (fun _ _ => True) s ∧
      step steadyEnv s (.setscheduler permissive (.task 1) (plainAttr 8) true true) = some s₁ ∧
      SinceEntry steadyEnv (.task 1) s₁ (s₂, true) ∧ deathReport steadyEnv s₂ 0 1 = some r ∧
      0 ≤ r.responseTime ∧ r.responseTime ≤ r.turnaroundTime := by
  obtain ⟨s, hs, hf⟩ := Reached.of_eval (b := some (true, true))
    steadyEnv (fun s => (enterAndRun steadyEnv 1 (sleepOn 0 ++ [.doTaskDead 0 pickNone]) s).map
      fun x => (decide (((s.task (.task 1)).schedClass = .fair ∧ (s.task (.task 1)).isQueued = true) ∧
          (x.1.task (.task 1)).schedClass = .hvf ∧ (deathReport steadyEnv x.2.1 0 1).isSome = true),
        x.2.2))
    (startFirst ++ [.fork 0, .wakeNew 0 (.task 1) 0]) (by decide +kernel)
  obtain ⟨⟨s₁, s₂, answered⟩, hrun, hx⟩ := Option.map_eq_some_iff.mp hf
  injection hx with hfacts hans
  dsimp only at hans
  subst hans
  obtain ⟨⟨hcls, hqueued⟩, hcls₁, hsome⟩ := of_decide_eq_true hfacts
  obtain ⟨r, hr⟩ := Option.isSome_iff_exists.mp hsome
  obtain ⟨hstep, hsince⟩ := enterAndRun_eq_some hrun
  refine ⟨s, s₁, s₂, r, hs, hstep, hsince, hr, ?_⟩
  refine (response_time_sane_iff steadyEnv steadyEnv_rises s s₁ s₂ 1 permissive (plainAttr 8) true
    true true 0 r hs hstep ?_ hcls₁ hqueued hsince hr).mpr (Or.inl rfl)
  rw [hcls]
  decide

/-- The running task brings itself into the class and ends: the report has it
answered before the clock was first read. -/
theorem exit_before_answer :
    ClockRises steadyEnv ∧ ∃ s s₁ s₂ r, (Reached steadyEnv (fun _ _ => True) s ∧
        (s.rq 0).curr = .task 0 ∧ (s.task (.task 0)).isQueued = true ∧
        (s.task (.task 0)).schedClass = .fair) ∧
      (step steadyEnv s (.setscheduler permissive (.task 0) (plainAttr 8) true true) = some s₁ ∧
        (s₁.task (.task 0)).schedClass = .hvf) ∧
      SinceEntry steadyEnv (.task 0) s₁ (s₂, false) ∧ deathReport steadyEnv s₂ 0 0 = some r ∧
      r.responseTime = -1000001 ∧ r.turnaroundTime = 2 := by
  refine ⟨steadyEnv_rises, ?_⟩
  obtain ⟨s, hs, hf⟩ := Reached.of_eval
    (b := some (true, false, some ((-1000001 : Long), (2 : Long))))
    steadyEnv (fun s => (enterAndRun steadyEnv 0 [.doTaskDead 0 pickNone] s).map fun x =>
      (decide (((s.rq 0).curr = .task 0 ∧ (s.task (.task 0)).isQueued = true ∧
          (s.task (.task 0)).schedClass = .fair) ∧ (x.1.task (.task 0)).schedClass = .hvf),
        x.2.2, (deathReport steadyEnv x.2.1 0 0).map fun r => (r.responseTime, r.turnaroundTime)))
    startFirst (by decide +kernel)
  obtain ⟨⟨s₁, s₂, answered⟩, hrun, hx⟩ := Option.map_eq_some_iff.mp hf
  injection hx with hfacts hx
  injection hx with hans hreport
  dsimp only at hans
  subst hans
  obtain ⟨hbefore, hcls₁⟩ := of_decide_eq_true hfacts
  obtain ⟨r, hr, htimes⟩ := Option.map_eq_some_iff.mp hreport
  injection htimes with hresp hturn
  obtain ⟨hstep, hsince⟩ := enterAndRun_eq_some hrun
  exact ⟨s, s₁, s₂, r, ⟨hs, hbefore⟩, ⟨hstep, hcls₁⟩, hsince, hr, hresp, hturn⟩

end HvfSched
