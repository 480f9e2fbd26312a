import HvfSched.Queue.Seats
import HvfSched.Runs.Order
import HvfSched.Tasks.Steps

/-!
# What a step does to the seats

`SeatStep` is the inversion of a step for the trees, under the conditions that
keep them sorted (`keysKept`): nobody moves; one task moves; a reschedule moves
the task that is stopped and then the one that is started; or a task whose
attributes change is taken out and arrives anew.

For each kind of step there are two things to show. `Shift` says where the
task the step works on ends up (`Queue.Seats`). And a task that is linked
before and after, and is not requeued, has not been touched; were it taken out
and put back, it would lose its place to its equals without having left.
-/

namespace HvfSched

open Lib Sys

variable {E : Env} {s₀ s s' s₁ : Sys} {a : Act} {c d : Cpu} {p q : TaskId}

theorem not_mem_of_unlinked (ht : Trees s) (h : (s.task p).hvf.onRq = false) (d : Cpu) :
    p ∉ s.queue d := by
  intro hm
  rw [((ht.mem d p).mp hm).1] at h
  cases h

/-! ## A reschedule -/

/-- The two halves of a reschedule: the old task is moved, then the new one. -/
structure Halves (prev next : TaskId) (s sₚ s' : Sys) : Prop where
  trees : Trees sₚ
  put : Shift prev s sₚ
  set : Shift next sₚ s'
  stay : (s.task prev).hvf.onRq = true → (sₚ.task prev).hvf.onRq = true → SameSeats s sₚ
  /-- the new task is not linked by the switch -/
  off : (s'.task next).hvf.onRq = true → SameSeats sₚ s'
  /-- and if it is the old one, neither is that -/
  same : next = prev → (sₚ.task prev).hvf.onRq = true → (s.task prev).hvf.onRq = true

theorem SameSeats.linked (h : SameSeats s s') (ht : Trees s) (ht' : Trees s')
    (hp : (s'.task p).hvf.onRq = true) : (s.task p).hvf.onRq = true := by
  have hmem : p ∈ s'.queue (s'.task p).cpu := (ht'.mem _ p).mpr ⟨hp, rfl⟩
  rw [h.queue] at hmem
  exact ((ht.mem _ p).mp hmem).1

/-- One task moves, and the others are linked as they were. -/
theorem Shift.linked_iff (h : Shift p s s') (ht : Trees s) (ht' : Trees s') (hq : q ≠ p) :
    (s'.task q).hvf.onRq = true ↔ (s.task q).hvf.onRq = true := by
  have hmem : ∀ d, q ∈ s'.queue d ↔ q ∈ s.queue d := by
    intro d
    rw [← List.mem_erase_of_ne hq, (h.seat d).erase_eq (ht.nodup d), List.mem_erase_of_ne hq]
  constructor
  · intro hlinked
    exact ((ht.mem _ q).mp ((hmem _).mp ((ht'.mem _ q).mpr ⟨hlinked, rfl⟩))).1
  · intro hlinked
    exact ((ht'.mem _ q).mp ((hmem _).mpr ((ht.mem _ q).mpr ⟨hlinked, rfl⟩))).1

/-- A task that blocks does not come back into the tree before the switch. -/
theorem Links.put_leave_linked {l : Links} {how : Links.Leave}
    (hstate : how ≠ .stay → (l.task p).state ≠ taskRunning) (hlinked : (l.task p).linked = true)
    (hput : (((l.leave c p how).put c p).task p).linked = true) :
    ((l.leave c p how).task p).linked = true := by
  by_cases hgo : ((l.leave c p how).task p).schedClass = .hvf ∧
      ((l.leave c p how).task p).state = taskRunning
  · cases how with
    | stay => exact hlinked
    | signalled => exact (setState_bits l p taskRunning p).1.trans hlinked
    | block =>
      have hst : ((l.block c p).task p).state = (l.task p).state := Links.block_state p
      exact absurd (hst.symm.trans hgo.2) (hstate (by decide))
  · rw [Links.put_idle hgo] at hput
    exact hput

theorem SameSeats.start {how : Links.Leave}
    (hstart : (s₀ = s ∧ (s.task (s.rq c).curr).state ≠ taskDead) ∨
      (how = .block ∧ s.isLive (s.rq c).curr = true ∧
        s₀ = setTaskState (s.rq c).curr taskDead s)) : SameSeats s s₀ := by
  rcases hstart with ⟨h₀, -⟩ | ⟨-, -, h₀⟩
  · rw [h₀]
    exact .refl s
  · rw [h₀]
    exact .setTask rfl

section Halves

variable {how : Links.Leave} {mode : SchedMode} {sig : Signals}
  (hstart : (s₀ = s ∧ (s.task (s.rq c).curr).state ≠ taskDead) ∨
    (how = .block ∧ s.isLive (s.rq c).curr = true ∧ s₀ = setTaskState (s.rq c).curr taskDead s))
  (hhow : how = leaveOf mode sig (s₀.task (s.rq c).curr))
  (hprev : leavePrev E c mode sig s₀ = .ok s₁)

include hstart hhow hprev

/-- The put of the task that is stopped. -/
theorem put_shift (ht₁ : Trees s₁) (ho : Sorted s) (hs : Scaled s) (hsafe : scaleKept E s a)
    (hkept : leavesKept s a) (hleave : leaves s a = some (c, how))
    (haway : switchesTo E s a ≠ some (s.rq c).curr) :
    Shift (s.rq c).curr s₁ (putPrevTask E c (s.rq c).curr s₁) := by
  have hup := upToPick hstart hhow hprev
  by_cases hcls : (s.task (s.rq c).curr).schedClass = .hvf
  · have hputs := work_leaves hleave hstart hhow hprev haway
    exact Keyed.shift_putPrevTask (hsafe _ (valueSubject_leaves hleave hcls)) hs hup.same ht₁
      ((ho.start hstart).leavePrev hprev) hputs (leave_key hkept hleave hstart hhow hprev hcls)
  · rw [putPrevTask, if_neg (by rw [hup.schedClass]; exact hcls)]
    exact .refl _ s₁

/-- A task that is linked before the step and after the put was not touched by
either half. -/
theorem put_same (hkept : leavesKept s a) (hleave : leaves s a = some (c, how))
    (hp : (s.task (s.rq c).curr).hvf.onRq = true)
    (hp' : ((putPrevTask E c (s.rq c).curr s₁).task (s.rq c).curr).hvf.onRq = true) :
    (s₁.task (s.rq c).curr).hvf.onRq = true ∧
      SameSeats s₁ (putPrevTask E c (s.rq c).curr s₁) := by
  have hup := upToPick hstart hhow hprev
  have hflag₁ : (s₁.task (s.rq c).curr).hvf.onRq = true := by
    have hp₀ : (s₀.links.task (s.rq c).curr).linked = true := by
      rcases hstart with ⟨h₀, -⟩ | ⟨-, -, h₀⟩
      · rw [h₀]
        exact hp
      · rw [h₀, links_setTaskState]
        exact (setState_bits s.links _ taskDead _).1.trans hp
    have hput : (((s₀.links.leave c (s.rq c).curr how).put c (s.rq c).curr).task
        (s.rq c).curr).linked = true := by
      rw [← hup.links, ← links_putPrevTask E]
      exact hp'
    have hleft := Links.put_leave_linked
      (fun hne => leaveOf_ne_stay (by rw [hhow] at hne; exact hne)) hp₀ hput
    rw [← hup.links] at hleft
    exact hleft
  refine ⟨hflag₁, ?_⟩
  by_cases hcls : (s.task (s.rq c).curr).schedClass = .hvf
  · exact .putPrevTask hflag₁ fun hrun => leave_key hkept hleave hstart hhow hprev hcls hrun hflag₁
  · rw [putPrevTask, if_neg (by rw [hup.schedClass]; exact hcls)]
    exact .refl s₁

/-- A reschedule stops one task and starts another, or goes on with the same. -/
theorem reschedule_halves {next : TaskId} {s₂ : Sys} (hb : Base s) (ho : Sorted s) (hs : Scaled s)
    (hsafe : scaleKept E s a) (hkept : leavesKept s a) (hleave : leaves s a = some (c, how))
    (hto : next ≠ (s.rq c).curr → switchesTo E s a = some next)
    (hset : putPrevSetNextTask E c (s.rq c).curr next s₁ = .ok s₂)
    (hend : s' = switchTo c (s.rq c).curr next s₂) :
    ∃ sₚ, Halves (s.rq c).curr next s sₚ s' := by
  have hup := upToPick hstart hhow hprev
  have hsame₀ : SameSeats s s₀ := .start hstart
  have hhow₀ : how = leaveOf mode sig (s₀.task (s₀.rq c).curr) := by
    rw [hup.start]
    exact hhow
  have hmid := midSchedule (hb.start hstart) hhow₀ hprev
  have ht₁ := hmid.base.trees
  -- up to the pick
  have hput₁ : Shift (s.rq c).curr s s₁ := by
    refine Shift.trans (.of_same hsame₀) ?_ hb.trees
    rw [← hup.start]
    exact .leavePrev (hb.start hstart).trees hprev
  have hstay₁ : (s₁.task (s.rq c).curr).hvf.onRq = true → SameSeats s s₁ := by
    intro hflag
    rw [← hup.start] at hflag
    exact hsame₀.trans (.leavePrev hprev hflag)
  have hswitch : SameSeats s₂ s' := by
    rw [hend]
    exact .switchTo ..
  rcases putPrevSetNextTask_cases hset with ⟨hnext, h₂⟩ | ⟨hnext, hset⟩
  · rw [h₂] at hswitch
    exact ⟨s₁, ht₁, hput₁, .of_same hswitch, fun _ => hstay₁, fun _ => hswitch,
      fun _ hflag => (hstay₁ hflag).linked hb.trees ht₁ hflag⟩
  · have htₚ : Trees (putPrevTask E c (s.rq c).curr s₁) :=
      ht₁.putPrevTask fun hcls => (hmid.base.running_hvf hup.curr hcls).2
    refine ⟨putPrevTask E c (s.rq c).curr s₁, htₚ, ?_, ?_, ?_, ?_, fun h => absurd h hnext⟩
    · have hput := put_shift hstart hhow hprev ht₁ ho hs hsafe hkept hleave (switchesTo_ne hto hnext)
      exact hput₁.trans hput hb.trees
    · exact (Shift.setNextTask htₚ hset).trans (.of_same hswitch) htₚ
    · intro hp hp'
      obtain ⟨hflag₁, hsame⟩ := put_same hstart hhow hprev hkept hleave hp hp'
      exact (hstay₁ hflag₁).trans hsame
    · intro hflag
      refine SameSeats.trans (.setNextTask hset ?_) hswitch
      have hl := congrArg (fun l => (l.task next).linked) (links_switchTo c (s.rq c).curr next s₂)
      rw [← hend, Links.switchTo_linked] at hl
      exact hl.symm.trans hflag

end Halves

/-! ## An activation -/

theorem SameSeats.wakeupPreempt (thisCpu c : Cpu) (p : TaskId) (s : Sys) :
    SameSeats s (wakeupPreempt thisCpu c p s) where
  queue d := by
    unfold Sys.queue
    rw [wakeupPreempt_hvf]
  value := wakeupPreempt_value thisCpu c p s

/-- What an activation does to the trees is done by the enqueue. -/
theorem activate_enqueue {dest thisCpu : Cpu} {v flags : Mask}
    (h : activateTask E dest p flags (setTaskCpu p dest (setTaskState p v s)) = .ok s₁)
    (hend : (v = taskRunning ∧ s' = wakeupPreempt thisCpu dest p s₁) ∨
      s' = setTaskState p taskRunning (wakeupPreempt thisCpu dest p s₁))
    (hentry : isEntry flags = a.isNew ∧ isEntry (flags ||| enqueueMigrated) = a.isNew) :
    ∃ s₂ fl, isEntry fl = a.isNew ∧ SameSeats s (setTaskCpu p dest (setTaskState p v s)) ∧
      enqueueTask E dest p fl (setTaskCpu p dest (setTaskState p v s)) = .ok s₂ ∧
      SameSeats s₂ s' := by
  obtain ⟨s₂, h₂, h₃⟩ := activateTask_cases h
  have hstart : SameSeats s (setTaskCpu p dest (setTaskState p v s)) := by
    have hst : SameSeats s (setTaskState p v s) := .setTask rfl
    exact hst.trans (.setTask rfl)
  have h₁ : SameSeats s₂ s₁ := by
    rw [h₃]
    exact .setTask rfl
  refine ⟨s₂, _, activateFlags_isEntry hentry, hstart, h₂, ?_⟩
  have hw : SameSeats s₂ (HvfSched.wakeupPreempt thisCpu dest p s₁) := h₁.trans (.wakeupPreempt ..)
  rcases hend with ⟨-, h'⟩ | h'
  · rw [h']
    exact hw
  · rw [h']
    exact hw.trans (.setTask rfl)

theorem activate_shift {dest thisCpu : Cpu} {v flags : Mask} (ht : Trees s)
    (ho : Sorted s) (hs : Scaled s) (hsafe : scaleKept E s a) (hkept : activatesUnlinked s a)
    (hact : activates s a = some (p, dest))
    (hmove : (s.task p).cpu ≠ dest → (s.task p).hvf.onRq = false)
    (h : activateTask E dest p flags (setTaskCpu p dest (setTaskState p v s)) = .ok s₁)
    (hend : (v = taskRunning ∧ s' = wakeupPreempt thisCpu dest p s₁) ∨
      s' = setTaskState p taskRunning (wakeupPreempt thisCpu dest p s₁))
    (hentry : isEntry flags = a.isNew ∧ isEntry (flags ||| enqueueMigrated) = a.isNew) :
    Shift p s s' ∧ ((s.task p).hvf.onRq = true → SameSeats s s') := by
  obtain ⟨s₂, fl, hfl, hstart, he, hrest⟩ := activate_enqueue h hend hentry
  have hself : (setTaskCpu p dest (setTaskState p v s)).task p
      = { s.task p with state := v, cpu := dest } := by
    rw [setTaskCpu, setTask_self, setTaskState, setTask_self]
  by_cases hcls : (s.task p).schedClass = .hvf
  · have hunlinked := hkept (p, dest) hact hcls
    have hst : Sorted (setTaskState p v s) := ho.setTask rfl
    have hsame : SameAccounts s (setTaskCpu p dest (setTaskState p v s)) :=
      (SameAccounts.setTask s (by rfl)).trans (.setTask _ (by rfl))
    obtain ⟨hputs, henq, hinits⟩ := work_activates (E := E) hact
    have hk : Keyed E s p (work E s a) 0 (setTaskCpu p dest (setTaskState p v s)) :=
      ⟨.of_same hsame, ht.place hmove, hst.setTask rfl⟩
    have hen := hk.shift_enqueueTask (hsafe p (valueSubject_activates hact hcls)) hs
      (.of_same hsame hcls hputs) (Nat.zero_le 1) henq (hfl.trans hinits.symm)
      (fun _ => by rw [hself]; exact hunlinked) he
    refine ⟨(Shift.trans (.of_same hstart) hen ht).trans (.of_same hrest) ht, ?_⟩
    intro hflag
    rw [hunlinked] at hflag
    cases hflag
  · rw [enqueueTask, if_neg (by rw [hself]; exact hcls)] at he
    injection he with he
    have hsame : SameSeats s s' := by
      refine (hstart.trans ?_).trans hrest
      rw [← he]
      exact .setRq rfl
    exact ⟨.of_same hsame, fun _ => hsame⟩

/-! ## A change of attributes -/

theorem SameSeats.setTask_body {t : TaskStruct} (h : t.body = (s.task p).body) :
    SameSeats s (s.setTask p t) := by
  have hv := congrArg (fun u : TaskStruct => u.hvf.currSchedValue) h
  exact .setTask hv

/-- What follows the enqueue of a class change. -/
theorem SameSeats.changed {s₃ : Sys}
    (h : s' = s₃ ∨ ((s₃.task p).schedClass ≠ .hvf ∧ s' = switchedFromHvf p s₃) ∨
      ∃ c, s' = reschedCurr c s₃) : SameSeats s₃ s' := by
  rcases h with h | ⟨-, h⟩ | ⟨c, h⟩
  · rw [h]
    exact .refl s₃
  · rw [h]
    exact .setTask (clearHvfValues_value _)
  · rw [h]
    exact .setRq rfl

theorem SameSeats.enqueueTask_other {flags : Mask} (hcls : (s.task p).schedClass ≠ .hvf)
    (h : enqueueTask E c p flags s = .ok s') : SameSeats s s' := by
  rcases enqueueTask_cases h with ⟨hhvf, -⟩ | ⟨-, hs⟩
  · exact absurd hhvf hcls
  · rw [hs]
    exact .setRq rfl

theorem SameSeats.takeOff_other (hcls : (s.task p).schedClass ≠ .hvf)
    (h : takeOff E p s = .ok s') : SameSeats s s' := by
  obtain ⟨s₁, h₁, h₂⟩ := takeOff_cases h
  have hd : SameSeats s s₁ ∧ (s₁.task p).schedClass ≠ .hvf := by
    rcases h₁ with ⟨-, b, hr⟩ | ⟨-, h₁⟩
    · refine ⟨?_, fun hcls₁ => hcls ((dequeueTask_bits hr p).1.symm.trans hcls₁)⟩
      rcases dequeueTask_cases hr with ⟨hhvf, -⟩ | ⟨-, hs⟩
      · exact absurd hhvf hcls
      · have hs₁ : s₁ = _ := congrArg Prod.snd hs
        rw [hs₁]
        exact .setRq rfl
    · rw [h₁]
      exact ⟨.refl s, hcls⟩
  rw [h₂, HvfSched.putPrevTask, if_neg hd.2, ite_self]
  exact hd.1

/-- The dequeue of an HVF task by a class change always unlinks it. -/
theorem dequeueTask_unlinks {r : Bool × Sys} (hl : s.links.Sound)
    (hcls : (s.task p).schedClass = .hvf) (h : dequeueTask E (s.task p).cpu p s = .ok r) :
    (r.2.task p).hvf.onRq = false := by
  have hd : r.2.links = (s.links.dequeue (s.task p).cpu p).2 := congrArg Prod.snd (links_dequeueTask h)
  have hun := Links.dequeue_unlinks (l := s.links) (c := (s.task p).cpu) hcls
    fun hlinked => Or.inl fun hcurr => hl.hvfCurr _ p hcurr hlinked rfl
  have hflag : (r.2.links.task p).linked = false := by
    rw [hd]
    exact hun
  exact hflag

/-- The hooks of a change into a class other than HVF. -/
theorem SameSeats.hooks_other {cls : SchedClass} {queued running : Bool} {flags : Mask} {m : Sys}
    (hne : (m.task p).schedClass ≠ .hvf) (hmid : checkClassChanging E p cls m = .ok s₁)
    (hback : putBack E p queued running flags s₁ = .ok s') : SameSeats m s' := by
  have h₁ : s₁ = m := by
    rcases checkClassChanging_cases hmid with ⟨hcome, -⟩ | ⟨-, h₁⟩
    · exact absurd hcome.2 hne
    · exact h₁
  rw [h₁] at hback
  rcases putBack_cases hback with ⟨-, he⟩ | ⟨-, hs⟩
  · exact .enqueueTask_other hne he
  · rw [hs]
    exact .refl m

/-- The hooks find nothing to write for a task that has parameters and is not on
the runqueue. -/
theorem SameSeats.hooks_set {cls : SchedClass} {running : Bool} {flags : Mask} {m : Sys}
    (hset : (m.task p).parsSet = true) (hmid : checkClassChanging E p cls m = .ok s₁)
    (hback : putBack E p false running flags s₁ = .ok s') : SameSeats m s' := by
  have h₁ : s₁ = m := by
    rcases checkClassChanging_cases hmid with ⟨-, hg⟩ | ⟨-, hs⟩
    · rcases giveDefaults_cases hg with ⟨-, hs⟩ | ⟨hunset, -⟩
      · exact hs
      · rw [hset] at hunset
        cases hunset
    · exact hs
  rcases putBack_cases hback with ⟨hq, -⟩ | ⟨-, hs⟩
  · cases hq
  · rw [hs, h₁]
    exact .refl m

/-- The hooks of a change into HVF for a task that is not linked: it gets its
value, and arrives if it is on the runqueue. -/
theorem ClassChange.shift_enter {running : Bool} {flags : Mask} {m s₂ : Sys} (hs : Scaled s)
    (hsafe : scaleKept E s a) (htarget : classTarget s a = some (p, .hvf))
    (hold : (s.task p).schedClass ≠ .hvf) (hentry : isEntry flags = a.initialises)
    (hsame : SameSeats s m) (hacc : SameAccounts s m) (ht : Trees m) (ho : Sorted m)
    (hcls : (m.task p).schedClass = .hvf) (hflag : (m.task p).hvf.onRq = false)
    (hmid : checkClassChanging E p (s.task p).schedClass m = .ok s₁)
    (hback : putBack E p (s.task p).isQueued running flags s₁ = .ok s₂) : Shift p m s₂ := by
  obtain ⟨-, hwnew, hwenq, hinits⟩ := work_change (E := E) htarget
  obtain ⟨hputs, henters⟩ := hwnew hold
  obtain ⟨htr₁, hp₁⟩ := checkClassChanging_tracked hacc hold hcls hputs (henters rfl) hmid
  have hk₁ : Keyed E s p (work E s a) 1 s₁ :=
    ⟨htr₁, ht.checkClassChanging hmid, ho.checkClassChanging ht (fun _ => hflag) hmid⟩
  have hflag₁ : (s₁.task p).hvf.onRq = false := by
    have hl := congrArg (fun l => (l.task p).linked) (links_checkClassChanging hmid)
    exact hl.trans hflag
  have hhook : Shift p m s₁ := by
    refine .write ht hflag ?_ ?_
    · rcases checkClassChanging_cases hmid with ⟨-, hg⟩ | ⟨-, hs⟩
      · exact giveDefaults_rq hg
      · rw [hs]
    · intro q hq
      rw [htr₁.others q hq, hsame.value]
  refine hhook.trans ?_ ht
  rcases putBack_cases hback with ⟨hq, he⟩ | ⟨-, hs⟩
  · exact hk₁.shift_enqueueTask (hsafe p (valueSubject_change htarget (Or.inr rfl))) hs hp₁
      (Nat.le_refl 1) (hwenq hq rfl) (hentry.trans hinits.symm) (fun _ => hflag₁) he
  · rw [hs]
    exact .refl p s₁

/-- A task of another class. -/
theorem ClassChange.shift_other {cls : SchedClass} (ht : Trees s) (ho : Sorted s) (hs : Scaled s)
    (hsafe : scaleKept E s a) (hkept : changesKept s a) (htarget : classTarget s a = some (p, cls))
    (hold : (s.task p).schedClass ≠ .hvf) (h : ClassChange E p cls a.initialises s s') :
    Shift p s s' ∧ ((s.task p).hvf.onRq = true → SameSeats s s') := by
  obtain ⟨hbody₀, hcls₀, hoff, hbody, hcls, hmid, hback, hend, hentry, -⟩ := h
  next t₀ t s₁ s₂ s₃ running flags =>
  have holdₐ : ((s.setTask p t₀).task p).schedClass ≠ .hvf := by
    rw [setTask_self, hcls₀]
    exact hold
  have hsame : SameSeats s (s₁.setTask p t) := by
    have hₐ : SameSeats s (s.setTask p t₀) := .setTask_body hbody₀
    exact (hₐ.trans (.takeOff_other holdₐ hoff)).trans (.setTask_body hbody)
  have hclsₘ : ((s₁.setTask p t).task p).schedClass = cls := by
    rw [setTask_self]
    exact hcls
  have htail := SameSeats.changed hend
  have hquiet : SameSeats (s₁.setTask p t) s₃ →
      Shift p s s' ∧ ((s.task p).hvf.onRq = true → SameSeats s s') := by
    intro hhooks
    have hall := (hsame.trans hhooks).trans htail
    exact ⟨.of_same hall, fun _ => hall⟩
  by_cases hnew : cls = .hvf
  · subst hnew
    have hfree := (hkept (p, .hvf) htarget).2 hold rfl
    have hsₐ : SameAccounts s (s.setTask p t₀) := .setTask s (account_of_body hbody₀)
    have hsₘ : SameAccounts s₁ (s₁.setTask p t) := .setTask s₁ (account_of_body hbody)
    have hacc := (hsₐ.trans (.of_data (.takeOff holdₐ hoff))).trans hsₘ
    cases hp : (s.task p).hvf.onRq with
    | true =>
      have hno : ¬ ((s.task p).isQueued = true ∨ (s.task p).parsSet = false) := by
        intro h
        rw [hfree h] at hp
        cases hp
      have hset : ((s₁.setTask p t).task p).parsSet = true := by
        refine Eq.trans (congrArg Account.parsSet (hacc.account p)) ?_
        exact Bool.eq_true_of_not_eq_false fun hunset => hno (Or.inr hunset)
      have hq : (s.task p).isQueued = false := Bool.eq_false_iff.mpr fun hq => hno (Or.inl hq)
      rw [hq] at hback
      obtain ⟨hshift, hkeep⟩ := hquiet (.hooks_set hset hmid hback)
      exact ⟨hshift, fun _ => hkeep hp⟩
    | false =>
      have htₘ := ((ht.setTask_body hbody₀).takeOff hoff).setTask_body hbody
      have hoₘ := ((ho.setTask_body hbody₀).takeOff_other holdₐ hoff).setTask_body hbody
      have hflagₘ : ((s₁.setTask p t).task p).hvf.onRq = false := by
        refine Bool.eq_false_iff.mpr fun hf => ?_
        rw [hsame.linked ht htₘ hf] at hp
        cases hp
      have henter := ClassChange.shift_enter hs hsafe htarget hold hentry hsame hacc htₘ hoₘ hclsₘ
        hflagₘ hmid hback
      have hall := Shift.trans (.of_same hsame) henter ht
      exact ⟨hall.trans (.of_same htail) ht, fun hf => by cases hf⟩
  · exact hquiet (.hooks_other (by rw [hclsₘ]; exact hnew) hmid hback)

theorem Base.setTask_body {t : TaskStruct} (h : Base s) (ht : t.body = (s.task p).body)
    (hcls : t.schedClass = (s.task p).schedClass) : Base (s.setTask p t) := by
  refine ⟨h.trees.setTask_body ht, ?_⟩
  have hl : (s.setTask p t).links = s.links := by
    apply links_setTask_same
    rw [link_of_body ht, hcls]
    rfl
  rw [hl]
  exact h.sound

theorem isQueued_of_body {t t' : TaskStruct} (h : t'.body = t.body) : t'.isQueued = t.isQueued := by
  have hq := congrArg TaskStruct.isQueued h
  exact hq

/-- The put of an HVF task that is not linked. -/
theorem Keyed.shift_put_unlinked {running : Bool} {w : Work}
    (hB : ((s₀.task p).budget E s₀.reads w).Safe) (hs₀ : Scaled s₀) (hs : SameAccounts s₀ s)
    (ht : Trees s) (ho : Sorted s) (hw : running = true → w.Puts (s.task p))
    (hflag : (s.task p).hvf.onRq = false) :
    Shift p s (if running then HvfSched.putPrevTask E c p s else s) := by
  split
  next hrun =>
    refine Keyed.shift_putPrevTask hB hs₀ hs ht ho (hw hrun) ?_
    intro _ hf
    rw [hflag] at hf
    cases hf
  next => exact .refl p s

/-- A put links nobody who is not running. -/
theorem put_unlinked {running : Bool} (hflag : (s.task p).hvf.onRq = false)
    (hsleep : running = true → (s.task p).isRunning = false) :
    ((if running then putPrevTask E c p s else s).task p).hvf.onRq = false := by
  split
  next hrun =>
    have hidle : ¬ ((s.links.task p).schedClass = .hvf ∧ (s.links.task p).state = taskRunning) := by
      rintro ⟨-, hstate⟩
      have hr := (isRunning_iff (s.task p)).mpr hstate
      rw [hsleep hrun] at hr
      cases hr
    have hl := congrArg (fun l => (l.task p).linked) (links_putPrevTask E c p s)
    rw [Links.put_idle hidle] at hl
    exact hl.trans hflag
  next => exact hflag

/-- A write of attributes moves nobody. -/
theorem isCurrent_setTask_body {t : TaskStruct} (h : t.body = (s.task p).body) :
    (s.setTask p t).isCurrent p = s.isCurrent p := by
  have hcpu := congrArg TaskStruct.cpu h
  have hcpu : t.cpu = (s.task p).cpu := hcpu
  unfold Sys.isCurrent
  rw [setTask_self, setTask_rq, hcpu]

/-- An HVF task on the runqueue is taken out, and arrives anew if it comes
back. -/
theorem ClassChange.shift_queued {cls : SchedClass} (hb : Base s) (ho : Sorted s) (hs : Scaled s)
    (hsafe : scaleKept E s a) (hkept : changesKept s a) (htarget : classTarget s a = some (p, cls))
    (hold : (s.task p).schedClass = .hvf) (hq : (s.task p).isQueued = true)
    (h : ClassChange E p cls a.initialises s s') :
    ∃ s₁, Trees s₁ ∧ Shift p s s₁ ∧ (s₁.task p).hvf.onRq = false ∧ Shift p s₁ s' := by
  obtain ⟨hbody₀, hcls₀, hoff, hbody, hcls, hmid, hback, hend, hentry, -⟩ := h
  next t₀ t s₂ s₃ s₄ running flags =>
  have hbₐ : Base (s.setTask p t₀) := hb.setTask_body hbody₀ hcls₀
  have hclsₐ : ((s.setTask p t₀).task p).schedClass = .hvf := by
    rw [setTask_self]
    exact hcls₀.trans hold
  have hsₐ : SameAccounts s (s.setTask p t₀) := .setTask s (account_of_body hbody₀)
  have hB := hsafe p (valueSubject_change htarget (Or.inl hold))
  obtain ⟨hput, hrequeue⟩ := (hkept (p, cls) htarget).1 hold
  obtain ⟨hwold, -, hwenq, hinits⟩ := work_change (E := E) htarget
  have hoffₐ := (hwold hold).of_body hbody₀
  obtain ⟨s₁, h₁, h₂⟩ := takeOff_cases hoff
  have hqₐ : ((s.setTask p t₀).task p).isQueued = true := by
    rw [setTask_self, isQueued_of_body hbody₀]
    exact hq
  obtain ⟨b, hd⟩ : ∃ b, dequeueTask E ((s.setTask p t₀).task p).cpu p (s.setTask p t₀)
      = .ok (b, s₁) := by
    rcases h₁ with ⟨-, hd⟩ | ⟨hno, -⟩
    · exact hd
    · rw [hqₐ] at hno
      cases hno
  have hun : (s₁.task p).hvf.onRq = false := dequeueTask_unlinks hbₐ.sound hclsₐ hd
  have ht₁ : Trees s₁ := hbₐ.trees.dequeueTask hd
  have hs₁ : SameAccounts s s₁ := hsₐ.trans (.of_data (.dequeueTask hd))
  have ho₁ : Sorted s₁ := (ho.setTask_body hbody₀).dequeueTask hd
  refine ⟨s₁, ht₁, ?_, hun, ?_⟩
  · exact Shift.trans (.of_same (.setTask_body hbody₀)) (.dequeueTask hbₐ.trees hd) hb.trees
  have hput₂ : Shift p s₁ s₂ := by
    rw [h₂]
    exact Keyed.shift_put_unlinked hB hs hs₁ ht₁ ho₁
      (fun hcurr => hoffₐ.puts_of_dequeue hclsₐ hcurr h₁) hun
  have hk₂ := Keyed.takeOff hB hs hsₐ hbₐ.trees (ho.setTask_body hbody₀) hold hclsₐ hoffₐ
    (hput.setTask_body hbody₀) hoff
  have hsₘ : SameAccounts s₂ (s₂.setTask p t) := .setTask s₂ (account_of_body hbody)
  have hpₘ := (takeOff_tracked hsₐ hold hclsₐ hoffₐ hoff).2.same hsₘ
  have hkₘ : Keyed E s p (work E s a) 1 (s₂.setTask p t) :=
    ⟨hk₂.tracked.same hsₘ, hk₂.trees.setTask_body hbody, hk₂.sorted.setTask_body hbody⟩
  -- a task of the class does not come into it: no hook in between
  have hback₄ : Shift p (s₂.setTask p t) s₄ := by
    rw [checkClassChanging_old hold hmid] at hback
    rcases putBack_cases hback with ⟨-, he⟩ | ⟨-, hs⟩
    · by_cases hnew : cls = .hvf
      swap
      · exact .of_same (.enqueueTask_other (by rw [setTask_self, hcls]; exact hnew) he)
      refine hkₘ.shift_enqueueTask hB hs hpₘ (Nat.le_refl 1) (hwenq hq hnew)
        (hentry.trans hinits.symm) (fun _ => ?_) he
      obtain ⟨hrun, -⟩ := hrequeue hnew hq
      have hflag₂ : (s₂.task p).hvf.onRq = false := by
        rw [h₂]
        refine put_unlinked hun ?_
        intro hcurr
        rw [isCurrent_setTask_body hbody₀] at hcurr
        refine Bool.eq_false_iff.mpr fun hr => hrun ⟨hcurr, ?_⟩
        have hstate := (dequeueTask_bits hd p).2
        have hst := congrArg TaskStruct.state hbody₀
        rw [setTask_self] at hstate
        exact (isRunning_iff _).mpr ((hstate.trans hst).symm.trans ((isRunning_iff _).mp hr))
      have hb := congrArg (fun u : TaskStruct => u.hvf.onRq) hbody
      rw [setTask_self]
      exact hb.trans hflag₂
    · rw [hs]
      exact .refl p _
  have hall := (hput₂.trans (.of_same (.setTask_body hbody)) ht₁).trans hback₄ ht₁
  exact hall.trans (.of_same (.changed hend)) ht₁

/-- An HVF task that is off the runqueue may be put, if it is running. -/
theorem ClassChange.shift_unqueued {cls : SchedClass} (hb : Base s) (ho : Sorted s) (hs : Scaled s)
    (hsafe : scaleKept E s a) (hkept : changesKept s a) (htarget : classTarget s a = some (p, cls))
    (hold : (s.task p).schedClass = .hvf) (hq : (s.task p).isQueued = false)
    (h : ClassChange E p cls a.initialises s s') :
    Shift p s s' ∧ ((s.task p).hvf.onRq = true → SameSeats s s') := by
  obtain ⟨hbody₀, hcls₀, hoff, hbody, hcls, hmid, hback, hend, hentry, -⟩ := h
  next t₀ t s₂ s₃ s₄ running flags =>
  have hsame₀ : SameSeats s (s.setTask p t₀) := .setTask_body hbody₀
  have hsₐ : SameAccounts s (s.setTask p t₀) := .setTask s (account_of_body hbody₀)
  have hB := hsafe p (valueSubject_change htarget (Or.inl hold))
  have htₐ : Trees (s.setTask p t₀) := hb.trees.setTask_body hbody₀
  obtain ⟨hput, -⟩ := (hkept (p, cls) htarget).1 hold
  have hput := hput.setTask_body hbody₀
  have hoffₐ := ((work_change (E := E) htarget).1 hold).of_body hbody₀
  have hclsₐ : ((s.setTask p t₀).task p).schedClass = .hvf := by
    rw [setTask_self]
    exact hcls₀.trans hold
  have hqₐ : ((s.setTask p t₀).task p).isQueued = false := by
    rw [setTask_self, isQueued_of_body hbody₀]
    exact hq
  have h₂ : s₂ = if (s.setTask p t₀).isCurrent p
      then putPrevTask E ((s.setTask p t₀).task p).cpu p (s.setTask p t₀)
      else s.setTask p t₀ := by
    obtain ⟨s₁, h₁, h₂⟩ := takeOff_cases hoff
    rcases h₁ with ⟨hyes, -⟩ | ⟨-, h₁⟩
    · rw [hqₐ] at hyes
      cases hyes
    · rw [h₁] at h₂
      exact h₂
  -- nothing is enqueued
  have hrest : SameSeats s₂ s' := by
    have h₃ := checkClassChanging_old hold hmid
    have h₄ : s₄ = s₃ := by
      rcases putBack_cases hback with ⟨hyes, -⟩ | ⟨-, hs⟩
      · rw [hq] at hyes
        cases hyes
      · exact hs
    have htail := SameSeats.changed hend
    rw [h₄, h₃] at htail
    exact (SameSeats.setTask_body hbody).trans htail
  -- a linked task that is put has time left in its slice
  have hkey : (s.setTask p t₀).isCurrent p = true →
      ((s.setTask p t₀).task p).isRunning = true → ((s.setTask p t₀).task p).hvf.onRq = true →
      ((s.setTask p t₀).task p).hvf.sliceExpired = false := by
    intro hcurr hrun hflag
    by_contra hne
    rcases hput hcurr hrun (Bool.eq_true_of_not_eq_false hne) with hoff | ⟨hyes, -⟩
    · rw [hoff] at hflag
      cases hflag
    · rw [hqₐ] at hyes
      cases hyes
  refine ⟨?_, ?_⟩
  · have hput₂ : Shift p (s.setTask p t₀) s₂ := by
      rw [h₂]
      split
      next hcurr =>
        have hputs := hoffₐ.puts_of_dequeue (E := E) hclsₐ hcurr (Or.inr ⟨hqₐ, rfl⟩)
        exact Keyed.shift_putPrevTask hB hs hsₐ htₐ (ho.setTask_body hbody₀) hputs (hkey hcurr)
      next => exact .refl p _
    exact (Shift.trans (.of_same hsame₀) hput₂ hb.trees).trans (.of_same hrest) hb.trees
  · intro hflag
    have hflagₐ : ((s.setTask p t₀).task p).hvf.onRq = true := by
      have hb := congrArg (fun u : TaskStruct => u.hvf.onRq) hbody₀
      rw [setTask_self]
      exact hb.trans hflag
    refine (hsame₀.trans ?_).trans hrest
    rw [h₂]
    split
    next hcurr => exact .putPrevTask hflagₐ fun hrun => hkey hcurr hrun hflagₐ
    next => exact .refl _

/-! ## Every step -/

/-- The action changes the attributes of `q`, an HVF task on the runqueue. -/
def requeues (s : Sys) (a : Act) (q : TaskId) : Bool :=
  match classTarget s a with
  | some (p, _) => p == q && (s.task p).schedClass == .hvf && (s.task p).isQueued
  | none => false

theorem requeues_of_none (h : classTarget s a = none) (q : TaskId) : requeues s a q = false := by
  rw [requeues, h]

theorem requeues_eq {cls : SchedClass} (h : classTarget s a = some (p, cls)) (q : TaskId) :
    requeues s a q = (p == q && (s.task p).schedClass == .hvf && (s.task p).isQueued) := by
  rw [requeues, h]

theorem requeues_ne (h : requeues s a p = true) (hq : q ≠ p) : requeues s a q = false := by
  cases htarget : classTarget s a with
  | none => exact requeues_of_none htarget q
  | some x =>
    obtain ⟨r, cls⟩ := x
    rw [requeues_eq htarget] at h ⊢
    simp only [Bool.and_eq_true, beq_iff_eq] at h
    have hne : (r == q) = false := beq_eq_false_iff_ne.mpr (h.1.1 ▸ Ne.symm hq)
    rw [hne]
    rfl

/-- The task an action activates, changes, buries or creates. -/
inductive Moves (s : Sys) (a : Act) (p : TaskId) : Prop
  | activate (dest : Cpu) (h : activates s a = some (p, dest))
  | change (cls : SchedClass) (h : classTarget s a = some (p, cls))
  | bury (c : Cpu) (h : buries s a = some (c, p))
  | fork (c : Cpu) (h : forks a = some c) (hp : p = .task s.nextPid)

inductive SeatStep (s : Sys) (a : Act) (s' : Sys) : Prop
  | still (hre : ∀ q, requeues s a q = false) (h : SameSeats s s')
  | switch (c : Cpu) (how : Links.Leave) (next : TaskId) (sₚ : Sys)
      (hre : ∀ q, requeues s a q = false) (hleave : leaves s a = some (c, how))
      (h : Halves (s.rq c).curr next s sₚ s')
  | move (p : TaskId) (hre : ∀ q, requeues s a q = false) (hmoves : Moves s a p)
      (hsh : Shift p s s')
      (hstay : (s.task p).hvf.onRq = true → (s'.task p).hvf.onRq = true → SameSeats s s')
  | requeue (p : TaskId) (s₁ : Sys) (hmoves : Moves s a p) (hre : requeues s a p = true)
      (ht : Trees s₁) (hout : Shift p s s₁) (hun : (s₁.task p).hvf.onRq = false)
      (hin : Shift p s₁ s')

theorem SeatStep.of_change {cls : SchedClass} (hb : Base s) (ho : Sorted s) (hs : Scaled s)
    (hsafe : scaleKept E s a) (hkept : changesKept s a)
    (htarget : classTarget s a = some (p, cls)) (hc : ClassChange E p cls a.initialises s s') :
    SeatStep s a s' := by
  by_cases hre : (s.task p).schedClass = .hvf ∧ (s.task p).isQueued = true
  · have hself : requeues s a p = true := by
      rw [requeues_eq htarget, hre.1, hre.2]
      simp
    obtain ⟨s₁, ht₁, hout, hun, hin⟩ :=
      hc.shift_queued hb ho hs hsafe hkept htarget hre.1 hre.2
    exact .requeue p s₁ (.change cls htarget) hself ht₁ hout hun hin
  · have hnone : ∀ q, requeues s a q = false := by
      intro q
      rw [requeues_eq htarget, Bool.eq_false_iff]
      intro hyes
      simp only [Bool.and_eq_true, beq_iff_eq] at hyes
      exact hre ⟨hyes.1.2, hyes.2⟩
    have hmove : Shift p s s' ∧ ((s.task p).hvf.onRq = true → SameSeats s s') := by
      by_cases hold : (s.task p).schedClass = .hvf
      · have hq : (s.task p).isQueued = false := Bool.eq_false_iff.mpr fun hq => hre ⟨hold, hq⟩
        exact hc.shift_unqueued hb ho hs hsafe hkept htarget hold hq
      · exact hc.shift_other hb.trees ho hs hsafe hkept htarget hold
    exact .move p hnone (.change cls htarget) hmove.1 fun hp _ => hmove.2 hp

theorem step_seats (hb : Base s) (ho : Sorted s) (hs : Scaled s) (hok : keysKept E s a)
    (hstep : step E s a = some s') : SeatStep s a s' := by
  obtain ⟨⟨hflags, hsafe⟩, hleaves, hacts, hchanges⟩ := hok
  cases htarget : classTarget s a with
  | some x =>
    obtain ⟨p, cls⟩ := x
    exact .of_change hb ho hs hsafe hchanges htarget (step_change htarget hstep)
  | none =>
    have hre := requeues_of_none htarget
    cases step_case hstep with
    | quiet _ hrq hv =>
      refine .still hre ⟨?_, hv⟩
      intro d
      rw [Sys.queue, hrq, Sys.queue]
    | state _ _ _ _ _ _ hrq hv =>
      refine .still hre ⟨?_, hv⟩
      intro d
      rw [Sys.queue, hrq, Sys.queue]
    | reschedule c how next s₀ s₁ s₂ mode sig picks hleave hstart hhow hprev _ _ hset hs' =>
      have hto := switchesTo_of_step hstep hleave hs'
      obtain ⟨sₚ, hh⟩ :=
        reschedule_halves hstart hhow hprev hb ho hs hsafe hleaves hleave hto hset hs'
      exact .switch c how next sₚ hre hleave hh
    | activate p dest thisCpu v flags s₁ hact _ _ _ _ ha hend hentry =>
      obtain ⟨hsh, hstay⟩ := activate_shift hb.trees ho hs hsafe hacts hact
        (hflags.2 (p, dest) hact) ha hend hentry
      exact .move p hre (.activate dest hact) hsh fun hp _ => hstay hp
    | change p cls hsome _ _ => cases htarget.symm.trans hsome
    | bury c p hbury _ hf =>
      exact .move p hre (.bury c hbury) (.finishTaskSwitch hb.trees hf)
        fun _ hp' => .finishTaskSwitch hf hp'
    | fork c t hfork _ _ hs' =>
      -- the child's slot was empty: no tree holds it
      have hfresh : (s.task (.task s.nextPid)).hvf.onRq = false :=
        (hb.sound.fresh s.nextPid (Nat.le_refl _)).1
      have hsh : Shift (.task s.nextPid) s s' := by
        rw [hs']
        refine .write hb.trees hfresh rfl ?_
        intro q hq
        have hne : (addTask (finishChild c t) s).task q = s.task q := if_neg hq
        rw [Sys.value, hne, Sys.value]
      refine .move _ hre (.fork c hfork rfl) hsh ?_
      intro hp
      cases hfresh.symm.trans hp

end HvfSched
