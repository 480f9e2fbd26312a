import HvfSched.Queue.Overrun
import HvfSched.Runs.Arrivals
import HvfSched.Runs.FastPath
import HvfSched.Runs.Moves
import HvfSched.Tasks.Running

/-!
# A CPU that is left alone

How long a task waits depends on what happens to its CPU in the meantime. Here
is the ground for such questions: a CPU where nobody arrives, and whose tasks
are neither changed nor buried from outside (`undisturbed`). Whatever the rest
of the machine does, its tree, the values there, the order of arrival and the
running task stay as they are until the CPU itself reschedules
(`step_kept`).

A reschedule then is a turn (`Turn`): the task at the top of the tree takes the
CPU, and the task that ran goes back under its new value, if it can go on.
The pick is made before the running task is put, so it never sees it.
-/

namespace HvfSched

open Lib Sys

variable {E : Env} {s s' s₀ s₁ : Sys} {a : Act} {c d : Cpu} {p q next : TaskId}
  {how : Links.Leave}

/-! ## Nothing from outside -/

/-- Nobody comes to `c`, and no task there is changed or dequeued when it is
buried. -/
def undisturbed (c : Cpu) (s : Sys) (a : Act) : Prop :=
  (∀ x ∈ activates s a, x.2 ≠ c) ∧ (∀ x ∈ classTarget s a, (s.task x.1).cpu ≠ c) ∧
    ∀ x ∈ buries s a, x.2 ∉ s.queue c

instance (c : Cpu) (s : Sys) (a : Act) : Decidable (undisturbed c s a) :=
  inferInstanceAs (Decidable (_ ∧ _ ∧ _))

/-- The tree of `c` keeps its members, and `c` its running task. -/
structure Links.Kept (c : Cpu) (l l' : Links) : Prop where
  curr : (l'.rq c).curr = (l.rq c).curr
  linked : ∀ q, (l'.task q).linked = true ∧ (l'.task q).cpu = c ↔
    (l.task q).linked = true ∧ (l.task q).cpu = c

namespace Links.Kept

variable {l l' : Links}

/-- Only `p` is touched, and it is not in the tree of `c` before or after. -/
theorem of_task_ne (hcurr : (l'.rq c).curr = (l.rq c).curr)
    (htask : ∀ q, q ≠ p → l'.task q = l.task q)
    (h : ¬ ((l.task p).linked = true ∧ (l.task p).cpu = c))
    (h' : ¬ ((l'.task p).linked = true ∧ (l'.task p).cpu = c)) : Kept c l l' where
  curr := hcurr
  linked q := by
    by_cases hq : q = p
    · rw [hq]
      exact iff_of_false h' h
    · rw [htask q hq]

/-- Another CPU reschedules. -/
theorem schedule (hl : l.Sound) (hl' : (l.schedule d how next).Sound) (hd : d ≠ c) :
    Kept c l (l.schedule d how next) where
  curr := by rw [schedule_rq_ne (Ne.symm hd)]
  linked q := by
    -- what runs on another CPU is its idle task, or assigned to it
    have hout : q = .idle d ∨ (l.task q).cpu = d →
        (((l.schedule d how next).task q).linked = true ∧
            ((l.schedule d how next).task q).cpu = c ↔
          (l.task q).linked = true ∧ (l.task q).cpu = c) := by
      intro hq
      have hno : ∀ {l₁ : Links}, l₁.Sound → (l₁.task q).cpu = (l.task q).cpu →
          ¬ ((l₁.task q).linked = true ∧ (l₁.task q).cpu = c) := by
        rintro l₁ h₁ hsame ⟨hlinked, hcpu⟩
        rcases hq with hi | hcpu'
        · rw [hi, (h₁.idle d).2.2] at hlinked
          cases hlinked
        · exact hd (hcpu'.symm.trans (hsame.symm.trans hcpu))
      exact iff_of_false (hno hl' (schedule_bits q).1) (hno hl rfl)
    by_cases hq : q = (l.rq d).curr
    · apply hout
      rw [hq]
      exact (hl.curr d).imp_right fun h => h.2.1
    · by_cases hq' : q = next
      · apply hout
        have hrun := (hl'.curr d).imp_right fun h => h.2.1
        rw [schedule_curr_self, (schedule_bits next).1] at hrun
        rw [hq']
        exact hrun
      · rw [schedule_task_ne hq hq']

theorem setState (v : Mask) : Kept c l (l.setState p v) where
  curr := rfl
  linked q := by rw [(setState_bits l p v q).1, (setState_bits l p v q).2]

end Links.Kept

/-- A step that does not reschedule `c`. -/
theorem Move.kept {l' : Links} (h : Move s a l') (hb : Base s) (hl' : l'.Sound)
    (hflags : flagsKept s a) (hu : undisturbed c s a) (hno : ∀ x ∈ leaves s a, x.1 ≠ c) :
    Links.Kept c s.links l' := by
  obtain ⟨hacts, hchanges, hburies⟩ := hu
  cases h with
  | quiet => exact ⟨rfl, fun _ => Iff.rfl⟩
  | state p v _ => exact .setState v
  | schedule d how next l₀ hleave hstart _ _ =>
    have hd := hno (d, how) hleave
    have hk := Links.Kept.schedule (hstart.sound hb.sound) hl' hd
    refine ⟨?_, ?_⟩
    · rw [hk.curr, hstart.rq]
    · intro q
      rw [hk.linked q, (hstart.task q).1]
  | wake p dest v hact _ _ _ =>
    have hdest := hacts (p, dest) hact
    refine .of_task_ne Links.wake_curr (fun q hq => Links.wake_task_ne hq) ?_ ?_
    · rintro ⟨hlinked, hcpu⟩
      have hmove := hflags.2 (p, dest) hact
      have hfree : (s.task p).hvf.onRq = false := hmove fun e => hdest (e.symm.trans hcpu)
      cases hfree.symm.trans hlinked
    · rintro ⟨-, hcpu⟩
      rw [Links.wake_self] at hcpu
      exact hdest hcpu
  | change p cls htarget _ =>
    have hcpu := hchanges (p, cls) htarget
    refine .of_task_ne Links.change_curr (fun q hq => Links.change_task_ne hq) ?_ ?_
    · exact fun h => hcpu h.2
    · intro h
      rw [Links.change_self] at h
      exact hcpu h.2
  | bury d p hbury =>
    have hout : ¬ ((s.links.task p).linked = true ∧ (s.links.task p).cpu = c) := by
      intro h
      exact hburies (d, p) hbury ((hb.trees.mem c p).mpr h)
    refine .of_task_ne Links.bury_curr (fun q hq => Links.bury_task_ne hq) hout ?_
    intro h
    rw [Links.bury_self] at h
    refine hout ⟨?_, h.2⟩
    have hlinked : (if (s.links.task p).schedClass = .hvf then false
      else (s.links.task p).linked) = true := h.1
    split at hlinked
    next => cases hlinked
    next => exact hlinked
  | fork d t hfork ht =>
    have hfree : (s.task (s.rq d).curr).hvf.onRq = false := hflags.1 d hfork
    refine .of_task_ne rfl (fun q hq => Links.fork_task_ne hq) ?_ ?_
    · rintro ⟨hlinked, -⟩
      rw [(hb.sound.fresh s.links.nextPid (Nat.le_refl _)).1] at hlinked
      cases hlinked
    · rintro ⟨hlinked, -⟩
      rw [Links.fork_self, ht.linked] at hlinked
      cases hfree.symm.trans hlinked

/-! ### Values -/

theorem valueSubject_cases (h : valueSubject s a = some q) :
    (∃ d how, leaves s a = some (d, how) ∧ (s.rq d).curr = q ∧ (s.task q).schedClass = .hvf) ∨
    (∃ dest, activates s a = some (q, dest) ∧ (s.task q).schedClass = .hvf) ∨
    ∃ cls, classTarget s a = some (q, cls) := by
  unfold valueSubject at h
  cases hleave : leaves s a with
  | some x =>
    obtain ⟨d, how⟩ := x
    rw [hleave] at h
    obtain ⟨hcls, h⟩ := Option.ite_none_right_eq_some.mp h
    injection h with h
    rw [h] at hcls
    exact Or.inl ⟨d, how, rfl, h, hcls⟩
  | none =>
    cases hact : activates s a with
    | some x =>
      obtain ⟨p, dest⟩ := x
      rw [hleave, hact] at h
      obtain ⟨hcls, h⟩ := Option.ite_none_right_eq_some.mp h
      injection h with h
      rw [h] at hcls ⊢
      exact Or.inr (Or.inl ⟨dest, rfl, hcls⟩)
    | none =>
      cases htarget : classTarget s a with
      | some x =>
        obtain ⟨p, cls⟩ := x
        rw [hleave, hact, htarget] at h
        obtain ⟨-, h⟩ := Option.ite_none_right_eq_some.mp h
        injection h with h
        rw [h]
        exact Or.inr (Or.inr ⟨cls, rfl⟩)
      | none =>
        rw [hleave, hact, htarget] at h
        cases h

/-- A task that is activated is on no CPU. -/
theorem activates_off {dest : Cpu} (hstep : step E s a = some s')
    (hact : activates s a = some (p, dest)) : (s.task p).onCpu = false := by
  have hen := (step_ok hstep).1
  cases a with
  | wake thisCpu p' mask dest' =>
    obtain ⟨hgo, hact⟩ := Option.ite_none_right_eq_some.mp hact
    injection hact with hact
    injection hact with hp _
    subst hp
    simp only [enabled, Bool.and_eq_true, Bool.or_eq_true, beq_iff_eq] at hen
    exact hen.2.resolve_left hgo.2.2
  | wakeNew thisCpu p' dest' =>
    injection hact with hact
    injection hact with hp _
    subst hp
    simp only [enabled, Bool.and_eq_true, beq_iff_eq] at hen
    exact hen.2
  | _ => cases hact

theorem classTarget_live {cls : SchedClass} (hstep : step E s a = some s')
    (h : classTarget s a = some (p, cls)) : s.isLive p = true := by
  have hen := (step_ok hstep).1
  cases a with
  | setscheduler ck p' attr user pi =>
    obtain ⟨_, -, heq⟩ := Option.map_eq_some_iff.mp h
    injection heq with hp _
    simp only [enabled, Bool.and_eq_true] at hen
    exact hp ▸ hen.1.1
  | setprio p' piTask =>
    obtain ⟨_, -, heq⟩ := Option.map_eq_some_iff.mp h
    injection heq with hp _
    exact hp ▸ hen
  | moveTask p' =>
    injection h with heq
    injection heq with hp _
    exact hp ▸ hen
  | _ => cases h

/-- The running task, and whoever waits, keeps its value. -/
theorem value_kept (hstep : step E s a = some s') (hb : Base s) (hacts : activatesUnlinked s a)
    (hu : undisturbed c s a) (hno : ∀ x ∈ leaves s a, x.1 ≠ c)
    (hq : (s.rq c).curr = q ∨ q ∈ s.queue c) : s'.value q = s.value q := by
  -- an idle task, or a task assigned to `c`
  have hat : q = .idle c ∨ (s.isLive q = true ∧ (s.task q).cpu = c) := by
    rcases hq with hq | hq
    · rw [← hq]
      exact (hb.sound.curr c).imp_right fun h => ⟨(isLive_links s _).symm.trans h.1, h.2.1⟩
    · obtain ⟨hflag, hcpu⟩ := (hb.trees.mem c q).mp hq
      exact Or.inr ⟨(isLive_links s q).symm.trans (hb.sound.live_of_linked hflag), hcpu⟩
  have hhvf : (s.task q).schedClass = .hvf → (s.task q).cpu = c := by
    intro hcls
    rcases hat with hi | hat
    · exact absurd hi (ne_idle_of_hvf hb.sound hcls c)
    · exact hat.2
  rcases step_calls hstep q with (hv | ⟨hsub, -⟩) | ⟨hnew, -⟩
  · exact hv
  · exfalso
    rcases valueSubject_cases hsub with ⟨d, how, hleave, hcurr, hcls⟩ | ⟨dest, hact, hcls⟩ | ⟨cls, htarget⟩
    · exact hno (d, how) hleave ((hb.running_hvf hcurr hcls).2.symm.trans (hhvf hcls))
    · rcases hq with hq | hq
      · rcases hb.sound.curr c with hi | ⟨-, -, hon⟩
        · exact absurd (hq.symm.trans hi) (ne_idle_of_hvf hb.sound hcls c)
        · have hon : (s.task (s.rq c).curr).onCpu = true := hon
          rw [hq, activates_off hstep hact] at hon
          cases hon
      · have hflag := ((hb.trees.mem c q).mp hq).1
        cases (hacts (q, dest) hact hcls).symm.trans hflag
    · rcases hat with hi | hat
      · have hlive := classTarget_live hstep htarget
        rw [hi] at hlive
        cases hlive
      · exact hu.2.1 (q, cls) htarget hat.2
  · rcases hat with hi | hat
    · rw [hnew] at hi
      cases hi
    · exact absurd hnew (ne_next_of_live hat.1)

/-- Nothing of `c` is touched, but for the bookkeeping of the clock. -/
structure Kept (c : Cpu) (s s' : Sys) : Prop where
  curr : (s'.rq c).curr = (s.rq c).curr
  mem : ∀ q, q ∈ s'.queue c ↔ q ∈ s.queue c
  values : ∀ q, (s.rq c).curr = q ∨ q ∈ s.queue c → s'.value q = s.value q

theorem step_kept (hb : Base s) (hok : keysKept E s a) (hu : undisturbed c s a)
    (hno : ∀ x ∈ leaves s a, x.1 ≠ c) (hstep : step E s a = some s') : Kept c s s' := by
  have hb' := step_base hb hok.1.1 hstep
  have hl := (step_move hb hstep).kept hb hb'.sound hok.1.1 hu hno
  refine ⟨hl.curr, ?_, fun q hq => value_kept hstep hb hok.2.2.1 hu hno hq⟩
  intro q
  rw [hb'.trees.mem, hb.trees.mem]
  exact hl.linked q

/-! ## A turn -/

/-- No task of a class above HVF is runnable on `c`. -/
def noneAbove (s : Sys) (c : Cpu) : Prop :=
  ∀ n < s.nextPid, ¬ (schedClassAbove (s.task (.task n)).schedClass .hvf = true ∧
    (s.task (.task n)).onRq = .queued ∧ (s.task (.task n)).cpu = c)

instance (s : Sys) (c : Cpu) : Decidable (noneAbove s c) :=
  inferInstanceAs (Decidable (∀ n < s.nextPid, _))

/-- The running task of `c` is an HVF task that can go on. -/
def GoesOn (s : Sys) (c : Cpu) (how : Links.Leave) : Prop :=
  (s.task (s.rq c).curr).schedClass = .hvf ∧
    how.running (s.task (s.rq c).curr).isRunning = true

instance (s : Sys) (c : Cpu) (how : Links.Leave) : Decidable (GoesOn s c how) :=
  inferInstanceAs (Decidable (_ ∧ _))

/-- `next`, the top of the tree, takes the CPU. -/
structure Turn (E : Env) (s s' : Sys) (c : Cpu) (how : Links.Leave) (next : TaskId) : Prop where
  top : ∃ front, s.queue c = front ++ [next]
  ne : next ≠ (s.rq c).curr
  curr : (s'.rq c).curr = next
  mem : ∀ q, q ∈ s'.queue c ↔ q ≠ next ∧ (q ∈ s.queue c ∨ (q = (s.rq c).curr ∧ GoesOn s c how))
  values : ∀ q, q ≠ (s.rq c).curr → s'.value q = s.value q
  requeued : GoesOn s c how → (s.task (s.rq c).curr).hvf.sliceExpired = true →
    (s'.value (s.rq c).curr).toInt = requeued (s.value (s.rq c).curr).toInt
      (s.chargedTime E (s.rq c).curr).toInt (s.task (s.rq c).curr).computationTime.toInt

/-- A task that is not linked leaves the tree as it is when it blocks. -/
theorem leavePrev_queue {mode : SchedMode} {sig : Signals} (ht : Trees s) (ht₁ : Trees s₁)
    (hprev : leavePrev E c mode sig s = .ok s₁) (hun : (s.task (s.rq c).curr).hvf.onRq = false) :
    s₁.queue d = s.queue d := by
  have hun₁ : (s₁.task (s.rq c).curr).hvf.onRq = false := by
    refine Bool.eq_false_iff.mpr fun hf => ?_
    cases hun.symm.trans ((SameSeats.leavePrev hprev hf).linked ht ht₁ hf)
  have herase := ((Shift.leavePrev ht hprev).seat d).erase_eq (ht.nodup d)
  rw [List.erase_of_not_mem (not_mem_of_unlinked ht hun d),
    List.erase_of_not_mem (not_mem_of_unlinked ht₁ hun₁ d)] at herase
  exact herase

/-- With a task waiting and none above, the pick goes to the tree. -/
theorem pick_top {b : Bool} {picks : Picks} (hb : Base s₁) (hm : s₁.links.Members)
    (hf : FairCounted s₁) (ho : Sorted s₁) (hok : s.picksOk c b picks = true)
    (hnone : noneAbove s c) (hne : s₁.queue c ≠ [])
    (hpick : pickNext s₁ c (s.rq c).curr picks = .ok next) (hpicked : Picked s s₁ c how next) :
    ∃ front, s₁.queue c = front ++ [next] := by
  cases hpicked with
  | idle h =>
    rw [h] at hpick
    exact absurd (queue_nil_of_idle_pick hb hm hf hok hpick) hne
  | above hlive hcls hqueued hcpu _ =>
    cases next with
    | idle d => cases hlive
    | task n => exact absurd ⟨hcls, hqueued, hcpu⟩ (hnone n (of_decide_eq_true hlive))
  | tree hmax =>
    rw [(ho c).max] at hmax
    exact List.getLast?_eq_some_iff.mp hmax

/-- A share of a value on the scale fits if the share of a hundred does. -/
theorem fits_of_scale {x v : Int} (hfit : Fits (x * 100)) (hx : 0 ≤ x) (hlo : 0 ≤ v)
    (hhi : v ≤ 100) : Fits (x * v) := by
  have htop := hfit.2
  have hpos : 0 ≤ x * v := Int.mul_nonneg hx hlo
  have hle : x * v ≤ x * 100 := Int.mul_le_mul_of_nonneg_left hhi hx
  exact ⟨by omega, by omega⟩

/-- The times a put computes with are in the budget of the step. -/
theorem scaleKept.charged_ok (hk : scaleKept E s a) (hleave : leaves s a = some (c, how))
    (hon : GoesOn s c how) (haway : switchesTo E s a ≠ some (s.rq c).curr)
    (hexp : (s.task (s.rq c).curr).hvf.sliceExpired = true)
    (hflag : (s.task (s.rq c).curr).hvf.onRq = false) :
    ReduceOk (s.chargedTime E (s.rq c).curr) ∧
      OverrunOk (s.chargedTime E (s.rq c).curr) (s.task (s.rq c).curr).computationTime := by
  have hB := hk _ (valueSubject_leaves hleave hon.1)
  have hput : (switchesTo E s a != some (s.rq c).curr) = true := bne_iff_ne.mpr haway
  have hw : (work E s a).puts = true ∧ (work E s a).decays = true ∧ (work E s a).links = true := by
    unfold work
    rw [hleave]
    refine ⟨hput, ?_, ?_⟩
    · show (_ && _) = true
      rw [hput, hon.2]
      rfl
    · show (!_) = true
      rw [hflag]
      rfl
  have hused : (s.task (s.rq c).curr).usedBy E s.reads (work E s a)
      = s.chargedTime E (s.rq c).curr := by
    rw [TaskStruct.usedBy, if_pos hw.1]
    rfl
  rw [← hused]
  have hrate := hB.reduces _ (mem_reduces hw.2.1 hexp)
  have hover := hB.overruns _ (mem_overruns_put hw.2.1 hw.2.2)
  exact ⟨hrate, hover⟩

/-- The put of a running task does not wrap if its times are in range. -/
theorem PutExpired.of_charged (hrate : ReduceOk (s.chargedTime E p))
    (hover : OverrunOk (s.chargedTime E p) (s.task p).computationTime) (hs : OnScale (s.value p))
    (hsame : SameAccounts s s₁) (hrun : (s₁.task p).isRunning = true)
    (hexp : (s.task p).hvf.sliceExpired = true) :
    PutExpired E s₁ p ∧ s₁.chargedTime E p = s.chargedTime E p := by
  have hacc := hsame.account p
  have hcharged : s₁.chargedTime E p = s.chargedTime E p := by
    have hused : (s₁.task p).hvf.timeUsed = (s.task p).hvf.timeUsed := congrArg Account.used hacc
    have hlatest : (s₁.task p).hvf.latestTime = (s.task p).hvf.latestTime :=
      congrArg Account.latest hacc
    show (s₁.task p).hvf.timeUsed + (stampMs (E.clock s₁.reads) - (s₁.task p).hvf.latestTime) = _
    rw [hused, hlatest, hsame.reads]
    rfl
  have hct : (s₁.task p).computationTime = (s.task p).computationTime :=
    congrArg (fun x => x.params.computationTime) hacc
  obtain ⟨hpos, hrate⟩ := hrate
  refine ⟨⟨hrun, ?_, ?_, ?_, ?_, ?_⟩, hcharged⟩
  · exact (congrArg Account.expired hacc).trans hexp
  · rw [hsame.value]
    exact hs
  · rw [hcharged]
    exact Int64.le_iff_toInt_le.mpr hpos
  · rw [hcharged, hsame.value]
    exact fits_of_scale hrate hpos hs.1 hs.2
  · intro _ hlt
    rw [hcharged, hct] at hlt
    rw [hcharged, hct, hsame.value]
    have hlt := Int64.lt_iff_toInt_lt.mp hlt
    have hsq := hover hlt
    have hsq₀ : 0 ≤ ((s.chargedTime E p).toInt - (s.task p).computationTime.toInt)
        * ((s.chargedTime E p).toInt - (s.task p).computationTime.toInt) :=
      Int.mul_nonneg (by omega) (by omega)
    have htop := hsq.2
    exact ⟨⟨by omega, by omega⟩,
      fits_of_scale hsq hsq₀ (lessShare_nonneg _ _) (lessShare_le hs.1 hs.2 hpos)⟩

/-- Who is in the tree after the running task has been put. -/
theorem putPrevTask_mem (hb : Base s) (hcurr : (s.rq c).curr = p) (q : TaskId) :
    q ∈ (putPrevTask E c p s).queue c ↔
      q ∈ s.queue c ∨ (q = p ∧ (s.task p).schedClass = .hvf ∧ (s.task p).isRunning = true) := by
  by_cases hgo : (s.task p).schedClass = .hvf ∧ (s.task p).isRunning = true
  · have hcpu := (hb.running_hvf hcurr hgo.1).2
    have hmem := (putPrevTask_requeue (E := E) (c := c) hgo.1 hgo.2
      fun hflag => (hb.trees.mem c p).mpr ⟨hflag, hcpu⟩).1 q
    rw [hmem, Or.comm, and_iff_left hgo]
  · rw [Sys.queue, (putPrevTask_quiet hgo).1]
    exact ⟨Or.inl, fun h => h.resolve_right fun h => hgo h.2⟩

/-- What is known when the pick is made: the running task may have blocked, and
the tree is as it was. -/
structure Stopped (s s₁ : Sys) (c : Cpu) (how : Links.Leave) : Prop where
  base : Base s₁
  members : s₁.links.Members
  fair : FairCounted s₁
  sorted : Sorted s₁
  same : SameAccounts s s₁
  queue : s₁.queue c = s.queue c
  curr : (s₁.rq c).curr = (s.rq c).curr
  goesOn : (s₁.task (s.rq c).curr).schedClass = .hvf ∧
    (s₁.task (s.rq c).curr).isRunning = true ↔ GoesOn s c how

theorem Stopped.of_leavePrev {mode : SchedMode} {sig : Signals} (ht : Tallied s) (ho : Sorted s)
    (hun : (s.rq c).curr ∉ s.queue c)
    (hstart : (s₀ = s ∧ (s.task (s.rq c).curr).state ≠ taskDead) ∨
      (how = .block ∧ s.isLive (s.rq c).curr = true ∧
        s₀ = setTaskState (s.rq c).curr taskDead s))
    (hhow : how = leaveOf mode sig (s₀.task (s.rq c).curr))
    (hprev : leavePrev E c mode sig s₀ = .ok s₁) : Stopped s s₁ c how := by
  obtain ⟨⟨hrq, -⟩, -⟩ := start_same hstart
  have hup := upToPick hstart hhow hprev
  have ht₀ := ht.start hstart
  obtain ⟨hb₁, hm₁, hf₁⟩ := ht₀.leavePrev hprev
  refine ⟨hb₁, hm₁, hf₁, (ho.start hstart).leavePrev hprev, hup.same, ?_, hup.curr, ?_⟩
  · have hflag₀ : (s₀.task (s₀.rq c).curr).hvf.onRq = false := by
      refine Bool.eq_false_iff.mpr fun hf => hun ?_
      have hcls₀ := (ht₀.counted.members.linked _ hf).1
      have hmem := (ht₀.base.trees.mem c _).mpr ⟨hf, (ht₀.base.running_hvf rfl hcls₀).2⟩
      rw [hup.start, Sys.queue, hrq] at hmem
      exact hmem
    rw [leavePrev_queue ht₀.base.trees hb₁.trees hprev hflag₀, Sys.queue, hrq]
    rfl
  · have hrun₁ : (s₁.task (s.rq c).curr).isRunning
        = how.running (s.task (s.rq c).curr).isRunning := by
      rw [← hup.start] at hhow ⊢
      rw [leavePrev_isRunning hhow hprev]
      rcases hstart with ⟨h₀, -⟩ | ⟨hblock, -, -⟩
      · rw [h₀]
      · rw [hblock]
        rfl
    rw [hup.schedClass, hrun₁]
    exact Iff.rfl

/-- The running task goes back, and the picked one leaves the tree. -/
theorem Stopped.mem_after (h : Stopped s s₁ c how) {s₂ : Sys} (hnext : next ∈ s₁.queue c)
    (hne : next ≠ (s.rq c).curr)
    (hset : setNextTask E c next true (putPrevTask E c (s.rq c).curr s₁) = .ok s₂) (q : TaskId) :
    q ∈ s₂.queue c ↔ q ≠ next ∧ (q ∈ s.queue c ∨ (q = (s.rq c).curr ∧ GoesOn s c how)) := by
  have hmemₚ := putPrevTask_mem (E := E) h.base h.curr
  obtain ⟨hflag, -⟩ := (h.base.trees.mem c next).mp hnext
  have htaskₚ := putPrevTask_task_ne (E := E) (c := c) (s := s₁) hne
  have hnodup := (h.base.trees.putPrevTask (E := E)
    fun hcls => (h.base.running_hvf h.curr hcls).2).nodup c
  obtain ⟨s₃, hset₃, hmem₃⟩ := setNextTask_of_mem (E := E)
    (by rw [htaskₚ]; exact (h.members.linked next hflag).1) (by rw [htaskₚ]; exact hflag)
    ((hmemₚ next).mpr (Or.inl hnext)) hnodup
  injection hset₃.symm.trans hset with h₃
  rw [h₃] at hmem₃
  rw [hmem₃, hmemₚ, h.queue, h.goesOn]

/-- What is left of the value of a task that has used up its slice. -/
theorem Stopped.requeued (h : Stopped s s₁ c how) (hun : (s.rq c).curr ∉ s.queue c) (hs : Scaled s)
    (hon : GoesOn s c how) (hexp : (s.task (s.rq c).curr).hvf.sliceExpired = true)
    (hrate : ReduceOk (s.chargedTime E (s.rq c).curr))
    (hover : OverrunOk (s.chargedTime E (s.rq c).curr) (s.task (s.rq c).curr).computationTime) :
    ((putPrevTask E c (s.rq c).curr s₁).value (s.rq c).curr).toInt
      = requeued (s.value (s.rq c).curr).toInt (s.chargedTime E (s.rq c).curr).toInt
        (s.task (s.rq c).curr).computationTime.toInt := by
  obtain ⟨hcls, hrun⟩ := h.goesOn.mpr hon
  obtain ⟨hput, hcharged⟩ := PutExpired.of_charged hrate hover (hs _) h.same hrun hexp
  have hun₁ : (s₁.task (s.rq c).curr).hvf.onRq = false := by
    refine Bool.eq_false_iff.mpr fun hf => hun ?_
    rw [← h.queue]
    exact (h.base.trees.mem c _).mpr ⟨hf, (h.base.running_hvf h.curr hcls).2⟩
  have hct : (s₁.task (s.rq c).curr).computationTime = (s.task (s.rq c).curr).computationTime :=
    congrArg (fun x => x.params.computationTime) (h.same.account _)
  rw [putPrevTask, if_pos hcls, hput.value_of_unlinked hun₁ c, hcharged, h.same.value, hct]

theorem Resched.turn (h : Resched E s c how s') (ht : Tallied s) (ho : Sorted s) (hs : Scaled s)
    (hsafe : GoesOn s c how → (s'.rq c).curr ≠ (s.rq c).curr →
      (s.task (s.rq c).curr).hvf.sliceExpired = true →
      ReduceOk (s.chargedTime E (s.rq c).curr) ∧
        OverrunOk (s.chargedTime E (s.rq c).curr) (s.task (s.rq c).curr).computationTime)
    (hun : (s.rq c).curr ∉ s.queue c) (hnone : noneAbove s c) (hne : s.queue c ≠ []) :
    ∃ next, Turn E s s' c how next := by
  obtain ⟨s₀, s₁, s₂, next, mode, sig, picks, b, hstart, hhow, hprev, hok, hpick, hpicked, hset,
    hend⟩ := h
  have hat := Stopped.of_leavePrev ht ho hun hstart hhow hprev
  obtain ⟨front, hfront⟩ := pick_top hat.base hat.members hat.fair hat.sorted hok hnone
    (by rw [hat.queue]; exact hne) hpick hpicked
  have hnext : next ∈ s₁.queue c := by
    rw [hfront]
    exact List.mem_append_right _ (List.mem_singleton.mpr rfl)
  have hne' : next ≠ (s.rq c).curr := by
    intro e
    rw [hat.queue, e] at hnext
    exact hun hnext
  have hcurr : (s₀.rq c).curr = (s.rq c).curr := by rw [(start_same hstart).1.1]
  have hcurr' : (s'.rq c).curr = next := by
    have hc := congrArg (fun l => (l.rq c).curr) (reschedule_links hcurr hhow hprev hset hend)
    exact hc.trans Links.schedule_curr_self
  rcases putPrevSetNextTask_cases hset with ⟨hsameTask, -⟩ | ⟨-, hset⟩
  · exact absurd hsameTask hne'
  have hvalue : ∀ q, s'.value q = (putPrevTask E c (s.rq c).curr s₁).value q := by
    intro q
    rw [← setNextTask_value hset q, hend]
    exact congrArg (fun t => t.hvf.currSchedValue) ((SameData.switchTo c _ next s₂).data q)
  refine ⟨next, ⟨front, by rw [← hat.queue]; exact hfront⟩, hne', hcurr', ?_, ?_, ?_⟩
  · intro q
    rw [hend, switchTo_queue]
    exact hat.mem_after hnext hne' hset q
  · intro q hq
    rw [hvalue, Sys.value, putPrevTask_task_ne hq]
    exact hat.same.value q
  · intro hon hexp
    obtain ⟨hrate, hover⟩ := hsafe hon (by rw [hcurr']; exact hne') hexp
    rw [hvalue]
    exact hat.requeued hun hs hon hexp hrate hover

/-! ## Calm runs -/

/-- The conditions under which the trees stay sorted and the counters true. -/
def settled (E : Env) (s : Sys) (a : Act) : Prop := keysKept E s a ∧ changesClean s a

instance (E : Env) (s : Sys) (a : Act) : Decidable (settled E s a) :=
  inferInstanceAs (Decidable (_ ∧ _))

/-- `c` is left alone, no class above HVF has a task there, and a task that is
stopped while it could go on is in the condition `ends`. -/
def calm (E : Env) (c : Cpu) (ends : Sys → TaskId → Prop) (s : Sys) (a : Act) : Prop :=
  settled E s a ∧ undisturbed c s a ∧
    ∀ x ∈ leaves s a, x.1 = c → noneAbove s c ∧ (GoesOn s c x.2 → ends s (s.rq c).curr)

instance (E : Env) (c : Cpu) (ends : Sys → TaskId → Prop) [∀ s p, Decidable (ends s p)] (s : Sys)
    (a : Act) : Decidable (calm E c ends s a) :=
  inferInstanceAs (Decidable (_ ∧ _ ∧ ∀ x ∈ leaves s a, _ → _ ∧ _))

/-- `w` waits on `c`, whose running task is not in the tree. -/
structure Waits (c : Cpu) (w : TaskId) (s : Sys) : Prop where
  tallied : Tallied s
  sorted : Sorted s
  scaled : Scaled s
  curr : (s.rq c).curr ∉ s.queue c
  waits : w ∈ s.queue c

theorem Waits.of_reached {w : TaskId} (h : Reached E (settled E) s)
    (hcurr : (s.rq c).curr ∉ s.queue c) (hw : w ∈ s.queue c) : Waits c w s := by
  obtain ⟨-, hs, ho⟩ := reached_sorted (fun _ _ hk => hk.1) h
  exact ⟨reached_tallied (fun _ _ hk => hk.2) h, ho, hs, hcurr, hw⟩

/-- What a step of a calm run does to `c`. -/
inductive CalmStep (E : Env) (c : Cpu) (ends : Sys → TaskId → Prop) (s : Sys) (a : Act) (s' : Sys) :
    Prop
  | kept (hno : ∀ x ∈ leaves s a, x.1 ≠ c) (h : Kept c s s')
  | turn (how : Links.Leave) (next : TaskId) (hleave : leaves s a = some (c, how))
      (hends : GoesOn s c how → ends s (s.rq c).curr) (h : Turn E s s' c how next)

theorem Waits.step {ends : Sys → TaskId → Prop} {w : TaskId} (h : Waits c w s)
    (hok : calm E c ends s a) (hstep : step E s a = some s') : CalmStep E c ends s a s' := by
  obtain ⟨⟨hkeys, hclean⟩, hu, hleaves⟩ := hok
  by_cases hno : ∀ x ∈ leaves s a, x.1 ≠ c
  · exact .kept hno (step_kept h.tallied.base hkeys hu hno hstep)
  · obtain ⟨⟨d, how⟩, hleave, hd⟩ : ∃ x, leaves s a = some x ∧ x.1 = c := by
      by_contra hnone
      exact hno fun x hx hc => hnone ⟨x, hx, hc⟩
    have hd : d = c := hd
    subst hd
    obtain ⟨hnone, hends⟩ := hleaves (d, how) hleave rfl
    have hsafe : GoesOn s d how → (s'.rq d).curr ≠ (s.rq d).curr →
        (s.task (s.rq d).curr).hvf.sliceExpired = true →
        ReduceOk (s.chargedTime E (s.rq d).curr) ∧
          OverrunOk (s.chargedTime E (s.rq d).curr) (s.task (s.rq d).curr).computationTime := by
      intro hon haway hexp
      refine hkeys.1.2.charged_ok hleave hon ?_ hexp ?_
      · rw [step_switchesTo hstep hleave]
        exact fun h => haway (Option.some.inj h)
      · refine Bool.eq_false_iff.mpr fun hf => h.curr ?_
        have hb := h.tallied.base
        exact (hb.trees.mem d _).mpr ⟨hf, (hb.running_hvf rfl hon.1).2⟩
    obtain ⟨next, hturn⟩ := (step_resched hstep hleave).turn h.tallied h.sorted h.scaled hsafe h.curr
      hnone (List.ne_nil_of_mem h.waits)
    exact .turn how next hleave hends hturn

/-- What holds wherever the conditions are met. -/
theorem Waits.settled {ends : Sys → TaskId → Prop} {w : TaskId} (h : Waits c w s)
    (hok : calm E c ends s a) (hstep : HvfSched.step E s a = some s') :
    Tallied s' ∧ Sorted s' ∧ Scaled s' := by
  have hb := h.tallied.base
  exact ⟨⟨step_base hb hok.1.2.1 hstep, step_counted hb h.tallied.counted hok.1.2 hstep,
      step_fairCounted hb h.tallied.counted h.tallied.fair hstep⟩,
    step_sorted hb h.sorted h.scaled hok.1.1 hstep, step_scaled h.scaled hok.1.1.1.2 hstep⟩

/-- A task goes on waiting until it is its turn. -/
theorem Waits.served_or_waits {ends : Sys → TaskId → Prop} {w : TaskId} (h : Waits c w s)
    (hok : calm E c ends s a) (hstep : HvfSched.step E s a = some s') :
    (s'.rq c).curr = w ∨ Waits c w s' := by
  obtain ⟨ht', ho', hs'⟩ := h.settled hok hstep
  cases h.step hok hstep with
  | kept _ hk =>
    refine Or.inr ⟨ht', ho', hs', ?_, (hk.mem w).mpr h.waits⟩
    rw [hk.mem, hk.curr]
    exact h.curr
  | turn how next _ _ hturn =>
    by_cases hw : w = next
    · exact Or.inl (hturn.curr.trans hw.symm)
    · refine Or.inr ⟨ht', ho', hs', ?_, (hturn.mem w).mpr ⟨hw, Or.inl h.waits⟩⟩
      rw [hturn.mem, hturn.curr]
      exact fun hnext => hnext.1 rfl

end HvfSched
