import HvfSched.Model.System

/-!
# The bookkeeping of the class, without trees, values and clocks

Whether a task can get lost, be counted twice or stay behind in a tree does
not depend on values, on the shape of a tree or on the time of day. It
depends on a handful of bits: the state, `on_rq`, CPU and class of every
task and the `on_rq` flag of its entity; the running task, `hvf_rq->curr`
and `nr_running` of every CPU.

`Links` is the machine cut down to those bits, and the operations below are
what the hooks and the core do to them: each is total, and what the full
machine computes from values (which task is picked) is an argument here.
`Simulation.lean` shows that every step of the full machine is a step of this
one, so a statement about the bits is proved here and read off there.
-/

namespace HvfSched

/-- The bookkeeping bits of a task; `linked` is `hvf.on_rq`. -/
structure TaskLink where
  state : Mask
  onRq : OnRq
  onCpu : Bool
  cpu : Cpu
  schedClass : SchedClass
  linked : Bool
  deriving DecidableEq

/-- The bookkeeping bits of a runqueue; `hvfCurr` is `hvf_rq->curr`. -/
structure RqLink where
  curr : TaskId
  hvfCurr : Option TaskId
  nrRunning : Int
  deadPrev : Option TaskId
  deriving DecidableEq

structure Links where
  task : TaskId → TaskLink
  rq : Cpu → RqLink
  nextPid : Nat

def TaskStruct.link (t : TaskStruct) : TaskLink where
  state := t.state
  onRq := t.onRq
  onCpu := t.onCpu
  cpu := t.cpu
  schedClass := t.schedClass
  linked := t.hvf.onRq

def Rq.link (r : Rq) : RqLink where
  curr := r.curr
  hvfCurr := r.hvf.curr
  nrRunning := r.nrRunning
  deadPrev := r.deadPrev

/-- The bookkeeping of a state of the machine. -/
def Sys.links (s : Sys) : Links where
  task p := (s.task p).link
  rq c := (s.rq c).link
  nextPid := s.nextPid

namespace Links

def setTask (p : TaskId) (t : TaskLink) (l : Links) : Links :=
  { l with task := fun q => if q = p then t else l.task q }

def setRq (c : Cpu) (r : RqLink) (l : Links) : Links :=
  { l with rq := fun d => if d = c then r else l.rq d }

def setLinked (p : TaskId) (b : Bool) (l : Links) : Links :=
  l.setTask p { l.task p with linked := b }

def setState (p : TaskId) (v : Mask) (l : Links) : Links :=
  l.setTask p { l.task p with state := v }

def setOnRq (p : TaskId) (v : OnRq) (l : Links) : Links :=
  l.setTask p { l.task p with onRq := v }

def setOnCpu (p : TaskId) (v : Bool) (l : Links) : Links :=
  l.setTask p { l.task p with onCpu := v }

def setClass (p : TaskId) (cls : SchedClass) (l : Links) : Links :=
  l.setTask p { l.task p with schedClass := cls }

def setCpu (p : TaskId) (c : Cpu) (l : Links) : Links :=
  l.setTask p { l.task p with cpu := c }

def setHvfCurr (c : Cpu) (x : Option TaskId) (l : Links) : Links :=
  l.setRq c { l.rq c with hvfCurr := x }

def addNr (c : Cpu) (n : Int) (l : Links) : Links :=
  l.setRq c { l.rq c with nrRunning := (l.rq c).nrRunning + n }

/-- A task created by a fork (or the first one). -/
def isLive (l : Links) : TaskId → Bool
  | .idle _ => false
  | .task n => n < l.nextPid

/-! ## The hooks -/

/-- An HVF task is inserted, and counted, unless it is linked already or
taken for the running one. -/
def enqueue (c : Cpu) (p : TaskId) (l : Links) : Links :=
  if (l.task p).schedClass = .hvf then
    if (l.rq c).hvfCurr ≠ some p ∧ (l.task p).linked = false then (l.setLinked p true).addNr c 1
    else l
  else l.addNr c 1

/-- An HVF task is recognised by its link, or as `hvf_rq->curr` when its
state says it goes to sleep. -/
def dequeue (c : Cpu) (p : TaskId) (l : Links) : Bool × Links :=
  if (l.task p).schedClass = .hvf then
    if (l.rq c).hvfCurr ≠ some p ∧ (l.task p).linked = true then
      (true, (l.setLinked p false).addNr c (-1))
    else if (l.rq c).hvfCurr = some p ∧ (l.task p).state ≠ taskRunning then
      (true, ((l.setLinked p false).addNr c (-1)).setHvfCurr c none)
    else (false, l)
  else (true, l.addNr c (-1))

def put (c : Cpu) (p : TaskId) (l : Links) : Links :=
  if (l.task p).schedClass = .hvf ∧ (l.task p).state = taskRunning then
    (l.setLinked p true).setHvfCurr c none
  else l

def setNext (c : Cpu) (p : TaskId) (l : Links) : Links :=
  if (l.task p).schedClass = .hvf then (l.setLinked p false).setHvfCurr c (some p) else l

/-! ## The core -/

def activate (c : Cpu) (p : TaskId) (l : Links) : Links := (l.enqueue c p).setOnRq p .queued

def block (c : Cpu) (p : TaskId) (l : Links) : Links :=
  let r := l.dequeue c p
  if r.1 then r.2.setOnRq p .off else r.2

/-- What `__schedule` does with the running task before the pick. -/
inductive Leave
  | stay
  | signalled
  | block
  deriving DecidableEq

def leave (c : Cpu) (p : TaskId) : Leave → Links → Links
  | .stay, l => l
  | .signalled, l => l.setState p taskRunning
  | .block, l => l.block c p

def putSetNext (c : Cpu) (prev next : TaskId) (l : Links) : Links :=
  if next = prev then l else (l.put c prev).setNext c next

def switchTo (c : Cpu) (prev next : TaskId) (l : Links) : Links :=
  if next = prev then l
  else
    let l := (l.setOnCpu prev false).setOnCpu next true
    let dead := if (l.task prev).state = taskDead then some prev else none
    l.setRq c { l.rq c with curr := next, deadPrev := dead }

/-- `__schedule`, when the pick answers `next`. -/
def schedule (c : Cpu) (how : Leave) (next : TaskId) (l : Links) : Links :=
  let prev := (l.rq c).curr
  ((l.leave c prev how).putSetNext c prev next).switchTo c prev next

/-- The burial of a dead task. -/
def bury (c : Cpu) (p : TaskId) (l : Links) : Links :=
  let l := l.setRq c { l.rq c with deadPrev := none }
  if (l.task p).schedClass = .hvf then
    (l.setLinked p false).setHvfCurr (l.task p).cpu none
  else l

/-- A task that is off every runqueue is given a state and a CPU, activated,
and left in `TASK_RUNNING`. -/
def wake (p : TaskId) (dest : Cpu) (v : Mask) (l : Links) : Links :=
  (((l.setState p v).setCpu p dest).activate dest p).setState p taskRunning

/-- The dequeue and put of a task whose attributes change. -/
def takeOff (p : TaskId) (l : Links) : Links :=
  let t := l.task p
  let l' := if t.onRq = .queued then (l.dequeue t.cpu p).2 else l
  if (l.rq t.cpu).curr = p then l'.put t.cpu p else l'

/-- The change of a task to the class `cls`; `set_next_task` with `first`
false does nothing. -/
def change (p : TaskId) (cls : SchedClass) (l : Links) : Links :=
  let t := l.task p
  let l := (l.takeOff p).setClass p cls
  if t.onRq = .queued then l.enqueue t.cpu p else l

/-- A fork: the new task starts off every runqueue, with its parent's flag. -/
def fork (t : TaskLink) (l : Links) : Links :=
  { l.setTask (.task l.nextPid) t with nextPid := l.nextPid + 1 }

/-! ## Reading after a write -/

theorem setTask_task (p : TaskId) (t : TaskLink) (l : Links) (q : TaskId) :
    (l.setTask p t).task q = if q = p then t else l.task q := rfl

theorem setRq_rq (c : Cpu) (r : RqLink) (l : Links) (d : Cpu) :
    (l.setRq c r).rq d = if d = c then r else l.rq d := rfl

@[simp] theorem setTask_rq (p : TaskId) (t : TaskLink) (l : Links) :
    (l.setTask p t).rq = l.rq := rfl

@[simp] theorem setTask_nextPid (p : TaskId) (t : TaskLink) (l : Links) :
    (l.setTask p t).nextPid = l.nextPid := rfl

@[simp] theorem setRq_task (c : Cpu) (r : RqLink) (l : Links) : (l.setRq c r).task = l.task := rfl

@[simp] theorem setRq_nextPid (c : Cpu) (r : RqLink) (l : Links) :
    (l.setRq c r).nextPid = l.nextPid := rfl

@[simp] theorem setTask_same (p : TaskId) (l : Links) : l.setTask p (l.task p) = l := by
  have h : (fun q => if q = p then l.task p else l.task q) = l.task := by
    funext q
    split
    next hq => rw [hq]
    next => rfl
  rw [setTask, h]

@[simp] theorem setRq_same (c : Cpu) (l : Links) : l.setRq c (l.rq c) = l := by
  have h : (fun d => if d = c then l.rq c else l.rq d) = l.rq := by
    funext d
    split
    next hd => rw [hd]
    next => rfl
  rw [setRq, h]

@[simp] theorem setLinked_self (p : TaskId) (b : Bool) (l : Links) :
    ((l.setLinked p b).task p).linked = b := by
  rw [setLinked, setTask_task, if_pos rfl]

@[simp] theorem setLinked_rq (p : TaskId) (b : Bool) (l : Links) : (l.setLinked p b).rq = l.rq := rfl

@[simp] theorem addNr_task (c : Cpu) (n : Int) (l : Links) : (l.addNr c n).task = l.task := rfl

@[simp] theorem addNr_hvfCurr (c : Cpu) (n : Int) (l : Links) (d : Cpu) :
    ((l.addNr c n).rq d).hvfCurr = (l.rq d).hvfCurr := by
  rw [addNr, setRq_rq]
  split
  next hd => rw [hd]
  next => rfl

@[simp] theorem addNr_nrRunning (c : Cpu) (n : Int) (l : Links) :
    ((l.addNr c n).rq c).nrRunning = (l.rq c).nrRunning + n := by
  rw [addNr, setRq_rq, if_pos rfl]

@[simp] theorem setHvfCurr_task (c : Cpu) (x : Option TaskId) (l : Links) :
    (l.setHvfCurr c x).task = l.task := rfl

@[simp] theorem setHvfCurr_self (c : Cpu) (x : Option TaskId) (l : Links) :
    ((l.setHvfCurr c x).rq c).hvfCurr = x := by
  rw [setHvfCurr, setRq_rq, if_pos rfl]

@[simp] theorem setHvfCurr_nrRunning (c : Cpu) (x : Option TaskId) (l : Links) (d : Cpu) :
    ((l.setHvfCurr c x).rq d).nrRunning = (l.rq d).nrRunning := by
  rw [setHvfCurr, setRq_rq]
  split
  next hd => rw [hd]
  next => rfl

theorem idle_ne_of_live {l : Links} {p : TaskId} (h : l.isLive p = true) (d : Cpu) :
    TaskId.idle d ≠ p := by
  intro e
  rw [← e] at h
  cases h

/-- A pid that was not handed out yet is that of no task. -/
theorem fresh_ne_of_live {l : Links} {p : TaskId} (h : l.isLive p = true) {n : Nat}
    (hn : l.nextPid ≤ n) : TaskId.task n ≠ p := by
  intro e
  rw [← e] at h
  exact absurd (of_decide_eq_true h) (Nat.not_lt.mpr hn)

theorem isLive_congr {l l' : Links} (h : l'.nextPid = l.nextPid) (q : TaskId) :
    l'.isLive q = l.isLive q := by
  cases q with
  | idle d => rfl
  | task n =>
    show decide (n < _) = decide (n < _)
    rw [h]

/-! ## The branches of the hooks -/

variable {l : Links} {c : Cpu} {p : TaskId}

theorem enqueue_free (hcls : (l.task p).schedClass = .hvf) (hcurr : (l.rq c).hvfCurr ≠ some p)
    (hlinked : (l.task p).linked = false) : l.enqueue c p = (l.setLinked p true).addNr c 1 := by
  rw [enqueue, if_pos hcls, if_pos ⟨hcurr, hlinked⟩]

theorem enqueue_busy (hcls : (l.task p).schedClass = .hvf)
    (hbusy : ¬ ((l.rq c).hvfCurr ≠ some p ∧ (l.task p).linked = false)) : l.enqueue c p = l := by
  rw [enqueue, if_pos hcls, if_neg hbusy]

theorem enqueue_other (hcls : (l.task p).schedClass ≠ .hvf) : l.enqueue c p = l.addNr c 1 := by
  rw [enqueue, if_neg hcls]

theorem dequeue_linked (hcls : (l.task p).schedClass = .hvf) (hcurr : (l.rq c).hvfCurr ≠ some p)
    (hlinked : (l.task p).linked = true) :
    l.dequeue c p = (true, (l.setLinked p false).addNr c (-1)) := by
  rw [dequeue, if_pos hcls, if_pos ⟨hcurr, hlinked⟩]

theorem dequeue_curr (hcls : (l.task p).schedClass = .hvf) (hcurr : (l.rq c).hvfCurr = some p)
    (hstate : (l.task p).state ≠ taskRunning) :
    l.dequeue c p = (true, ((l.setLinked p false).addNr c (-1)).setHvfCurr c none) := by
  rw [dequeue, if_pos hcls, if_neg (fun h => h.1 hcurr), if_pos ⟨hcurr, hstate⟩]

theorem dequeue_missed (hcls : (l.task p).schedClass = .hvf)
    (hlinked : ¬ ((l.rq c).hvfCurr ≠ some p ∧ (l.task p).linked = true))
    (hcurr : ¬ ((l.rq c).hvfCurr = some p ∧ (l.task p).state ≠ taskRunning)) :
    l.dequeue c p = (false, l) := by
  rw [dequeue, if_pos hcls, if_neg hlinked, if_neg hcurr]

theorem dequeue_other (hcls : (l.task p).schedClass ≠ .hvf) :
    l.dequeue c p = (true, l.addNr c (-1)) := by
  rw [dequeue, if_neg hcls]

theorem put_running (hcls : (l.task p).schedClass = .hvf) (hstate : (l.task p).state = taskRunning) :
    l.put c p = (l.setLinked p true).setHvfCurr c none := by
  rw [put, if_pos ⟨hcls, hstate⟩]

theorem put_idle (h : ¬ ((l.task p).schedClass = .hvf ∧ (l.task p).state = taskRunning)) :
    l.put c p = l := by
  rw [put, if_neg h]

theorem setNext_hvf (hcls : (l.task p).schedClass = .hvf) :
    l.setNext c p = (l.setLinked p false).setHvfCurr c (some p) := by
  rw [setNext, if_pos hcls]

theorem setNext_other (hcls : (l.task p).schedClass ≠ .hvf) : l.setNext c p = l := by
  rw [setNext, if_neg hcls]

end Links

/-! ## Frames -/

/-- Everything the hooks leave alone in a task: all but the flag. -/
def TaskLink.rest (t : TaskLink) : TaskLink := { t with linked := false }

/-- Everything the hooks leave alone in a runqueue. -/
def RqLink.rest (r : RqLink) : RqLink := { r with hvfCurr := none, nrRunning := 0 }

namespace Links

/-- A hook called for `p` on `c` touches the flag of `p`, and `hvf_rq->curr`
and the count of `c`, and nothing else. -/
structure Frame (c : Cpu) (p : TaskId) (l l' : Links) : Prop where
  task_ne : ∀ q, q ≠ p → l'.task q = l.task q
  task_rest : (l'.task p).rest = (l.task p).rest
  rq_ne : ∀ d, d ≠ c → l'.rq d = l.rq d
  rq_rest : (l'.rq c).rest = (l.rq c).rest
  nextPid : l'.nextPid = l.nextPid

namespace Frame

variable {l l' l'' : Links} {c : Cpu} {p : TaskId}

theorem refl (l : Links) : Frame c p l l :=
  ⟨fun _ _ => rfl, rfl, fun _ _ => rfl, rfl, rfl⟩

theorem trans (h : Frame c p l l') (h' : Frame c p l' l'') : Frame c p l l'' where
  task_ne q hq := (h'.task_ne q hq).trans (h.task_ne q hq)
  task_rest := h'.task_rest.trans h.task_rest
  rq_ne d hd := (h'.rq_ne d hd).trans (h.rq_ne d hd)
  rq_rest := h'.rq_rest.trans h.rq_rest
  nextPid := h'.nextPid.trans h.nextPid

/-- The rest is kept for every task. -/
theorem rest (h : Frame c p l l') (q : TaskId) : (l'.task q).rest = (l.task q).rest := by
  by_cases hq : q = p
  · rw [hq]
    exact h.task_rest
  · rw [h.task_ne q hq]

theorem rqRest (h : Frame c p l l') (d : Cpu) : (l'.rq d).rest = (l.rq d).rest := by
  by_cases hd : d = c
  · rw [hd]
    exact h.rq_rest
  · rw [h.rq_ne d hd]

theorem state (h : Frame c p l l') (q : TaskId) : (l'.task q).state = (l.task q).state := by
  have hr := congrArg TaskLink.state (h.rest q)
  exact hr

theorem onRq (h : Frame c p l l') (q : TaskId) : (l'.task q).onRq = (l.task q).onRq := by
  have hr := congrArg TaskLink.onRq (h.rest q)
  exact hr

theorem onCpu (h : Frame c p l l') (q : TaskId) : (l'.task q).onCpu = (l.task q).onCpu := by
  have hr := congrArg TaskLink.onCpu (h.rest q)
  exact hr

theorem cpu (h : Frame c p l l') (q : TaskId) : (l'.task q).cpu = (l.task q).cpu := by
  have hr := congrArg TaskLink.cpu (h.rest q)
  exact hr

theorem schedClass (h : Frame c p l l') (q : TaskId) :
    (l'.task q).schedClass = (l.task q).schedClass := by
  have hr := congrArg TaskLink.schedClass (h.rest q)
  exact hr

theorem curr (h : Frame c p l l') (d : Cpu) : (l'.rq d).curr = (l.rq d).curr := by
  have hr := congrArg RqLink.curr (h.rqRest d)
  exact hr

theorem deadPrev (h : Frame c p l l') (d : Cpu) : (l'.rq d).deadPrev = (l.rq d).deadPrev := by
  have hr := congrArg RqLink.deadPrev (h.rqRest d)
  exact hr

theorem isLive (h : Frame c p l l') (q : TaskId) : l'.isLive q = l.isLive q :=
  isLive_congr h.nextPid q

end Frame

variable (c : Cpu) (p : TaskId) (l : Links)

theorem setLinked_frame (b : Bool) : Frame c p l (l.setLinked p b) where
  task_ne q hq := if_neg hq
  task_rest := by
    rw [setLinked, setTask_task, if_pos rfl]
    rfl
  rq_ne _ _ := rfl
  rq_rest := rfl
  nextPid := rfl

theorem addNr_frame (n : Int) : Frame c p l (l.addNr c n) where
  task_ne _ _ := rfl
  task_rest := rfl
  rq_ne d hd := if_neg hd
  rq_rest := by
    rw [addNr, setRq_rq, if_pos rfl]
    rfl
  nextPid := rfl

theorem setHvfCurr_frame (x : Option TaskId) : Frame c p l (l.setHvfCurr c x) where
  task_ne _ _ := rfl
  task_rest := rfl
  rq_ne d hd := if_neg hd
  rq_rest := by
    rw [setHvfCurr, setRq_rq, if_pos rfl]
    rfl
  nextPid := rfl

theorem enqueue_frame : Frame c p l (l.enqueue c p) := by
  unfold enqueue
  split
  next =>
    split
    next => exact (setLinked_frame c p l true).trans (addNr_frame c p _ 1)
    next => exact Frame.refl l
  next => exact addNr_frame c p l 1

theorem dequeue_frame : Frame c p l (l.dequeue c p).2 := by
  unfold dequeue
  split
  next =>
    split
    next => exact (setLinked_frame c p l false).trans (addNr_frame c p _ (-1))
    next =>
      split
      next =>
        exact ((setLinked_frame c p l false).trans (addNr_frame c p _ (-1))).trans
          (setHvfCurr_frame c p _ none)
      next => exact Frame.refl l
  next => exact addNr_frame c p l (-1)

theorem put_frame : Frame c p l (l.put c p) := by
  unfold put
  split
  next => exact (setLinked_frame c p l true).trans (setHvfCurr_frame c p _ none)
  next => exact Frame.refl l

theorem setNext_frame : Frame c p l (l.setNext c p) := by
  unfold setNext
  split
  next => exact (setLinked_frame c p l false).trans (setHvfCurr_frame c p _ (some p))
  next => exact Frame.refl l

theorem takeOff_frame : Frame (l.task p).cpu p l (l.takeOff p) := by
  have hdeq : Frame (l.task p).cpu p l
      (if (l.task p).onRq = .queued then (l.dequeue (l.task p).cpu p).2 else l) := by
    split
    next => exact dequeue_frame _ p l
    next => exact Frame.refl l
  unfold takeOff
  dsimp only
  split
  next => exact hdeq.trans (put_frame _ p _)
  next => exact hdeq

/-! ## Leaving the CPU -/

section Leave

variable {c : Cpu} {p q : TaskId} {l : Links} (how : Leave)

theorem leave_task_ne (hq : q ≠ p) : (l.leave c p how).task q = l.task q := by
  cases how with
  | stay => rfl
  | signalled => exact if_neg hq
  | block =>
    show (l.block c p).task q = _
    unfold block
    dsimp only
    split
    next => exact (if_neg hq).trans ((dequeue_frame c p l).task_ne q hq)
    next => exact (dequeue_frame c p l).task_ne q hq

/-- Leaving changes neither CPU nor class nor `on_cpu`. -/
theorem leave_bits (q : TaskId) :
    ((l.leave c p how).task q).cpu = (l.task q).cpu ∧
    ((l.leave c p how).task q).schedClass = (l.task q).schedClass ∧
    ((l.leave c p how).task q).onCpu = (l.task q).onCpu := by
  by_cases hq : q = p
  · subst hq
    cases how with
    | stay => exact ⟨rfl, rfl, rfl⟩
    | signalled =>
      show (((l.setState q taskRunning).task q).cpu = _) ∧ _
      simp [leave, setState, setTask_task]
    | block =>
      have hf := dequeue_frame c q l
      show (((l.block c q).task q).cpu = _) ∧ _
      simp only [leave, block]
      split
      next =>
        simp only [setOnRq, setTask_task, if_pos]
        exact ⟨hf.cpu q, hf.schedClass q, hf.onCpu q⟩
      next => exact ⟨hf.cpu q, hf.schedClass q, hf.onCpu q⟩
  · rw [leave_task_ne how hq]
    exact ⟨rfl, rfl, rfl⟩

theorem block_state (q : TaskId) : ((l.block c p).task q).state = (l.task q).state := by
  unfold block
  dsimp only
  split
  next =>
    rw [setOnRq, setTask_task]
    split
    next hq =>
      rw [hq]
      exact (dequeue_frame c p l).state p
    next => exact (dequeue_frame c p l).state q
  next => exact (dequeue_frame c p l).state q

theorem leave_curr (d : Cpu) : ((l.leave c p how).rq d).curr = (l.rq d).curr := by
  cases how with
  | stay => rfl
  | signalled => rfl
  | block =>
    show ((l.block c p).rq d).curr = _
    unfold block
    dsimp only
    split
    next => exact (dequeue_frame c p l).curr d
    next => exact (dequeue_frame c p l).curr d

theorem leave_rq_ne {d : Cpu} (hd : d ≠ c) : (l.leave c p how).rq d = l.rq d := by
  cases how with
  | stay => rfl
  | signalled => rfl
  | block =>
    show (l.block c p).rq d = _
    unfold block
    dsimp only
    split
    next => exact (dequeue_frame c p l).rq_ne d hd
    next => exact (dequeue_frame c p l).rq_ne d hd

theorem leave_nextPid : (l.leave c p how).nextPid = l.nextPid := by
  cases how with
  | stay => rfl
  | signalled => rfl
  | block =>
    show (l.block c p).nextPid = _
    unfold block
    dsimp only
    split
    next => exact (dequeue_frame c p l).nextPid
    next => exact (dequeue_frame c p l).nextPid

end Leave

/-! ## A context switch -/

section Switch

variable {c : Cpu} {l : Links} (prev next q : TaskId) (d : Cpu)

/-- A switch changes `on_cpu` of the two tasks and nothing else in a task. -/
theorem switchTo_task :
    (l.switchTo c prev next).task q
      = { l.task q with onCpu := ((l.switchTo c prev next).task q).onCpu } := by
  unfold switchTo
  split
  next => rfl
  next =>
    dsimp only [setRq_task, setOnCpu]
    rw [setTask_task]
    split
    next hq =>
      subst hq
      rw [setTask_task]
      split
      next hq =>
        rw [hq]
      next => rfl
    next =>
      rw [setTask_task]
      split
      next hq =>
        rw [hq]
      next => rfl

@[simp] theorem switchTo_linked :
    ((l.switchTo c prev next).task q).linked = (l.task q).linked := by
  rw [switchTo_task]

@[simp] theorem switchTo_cpu : ((l.switchTo c prev next).task q).cpu = (l.task q).cpu := by
  rw [switchTo_task]

@[simp] theorem switchTo_schedClass :
    ((l.switchTo c prev next).task q).schedClass = (l.task q).schedClass := by
  rw [switchTo_task]

@[simp] theorem switchTo_state : ((l.switchTo c prev next).task q).state = (l.task q).state := by
  rw [switchTo_task]

@[simp] theorem switchTo_onRq : ((l.switchTo c prev next).task q).onRq = (l.task q).onRq := by
  rw [switchTo_task]

@[simp] theorem switchTo_nextPid : (l.switchTo c prev next).nextPid = l.nextPid := by
  unfold switchTo
  split
  next => rfl
  next => rfl

@[simp] theorem switchTo_isLive : (l.switchTo c prev next).isLive q = l.isLive q :=
  isLive_congr (switchTo_nextPid prev next) q

@[simp] theorem switchTo_hvfCurr :
    ((l.switchTo c prev next).rq d).hvfCurr = (l.rq d).hvfCurr := by
  unfold switchTo
  split
  next => rfl
  next =>
    dsimp only
    rw [setRq_rq]
    split
    next hd =>
      rw [hd]
      rfl
    next => rfl

@[simp] theorem switchTo_nrRunning :
    ((l.switchTo c prev next).rq d).nrRunning = (l.rq d).nrRunning := by
  unfold switchTo
  split
  next => rfl
  next =>
    dsimp only
    rw [setRq_rq]
    split
    next hd =>
      rw [hd]
      rfl
    next => rfl

variable {prev next q d}

theorem switchTo_onCpu (hq : q ≠ prev) (hq' : q ≠ next) :
    ((l.switchTo c prev next).task q).onCpu = (l.task q).onCpu := by
  unfold switchTo
  split
  next => rfl
  next =>
    dsimp only [setRq_task, setOnCpu]
    rw [setTask_task, if_neg hq', setTask_task, if_neg hq]

theorem switchTo_onCpu_next (hne : next ≠ prev) :
    ((l.switchTo c prev next).task next).onCpu = true := by
  unfold switchTo
  rw [if_neg hne]
  dsimp only [setRq_task, setOnCpu]
  rw [setTask_task, if_pos rfl]

theorem switchTo_task_ne (hq : q ≠ prev) (hq' : q ≠ next) :
    (l.switchTo c prev next).task q = l.task q := by
  rw [switchTo_task, switchTo_onCpu hq hq']

theorem switchTo_rq_ne (hd : d ≠ c) : (l.switchTo c prev next).rq d = l.rq d := by
  unfold switchTo
  split
  next => rfl
  next =>
    dsimp only
    rw [setRq_rq, if_neg hd]
    rfl

theorem switchTo_curr_self (hprev : (l.rq c).curr = prev) :
    ((l.switchTo c prev next).rq c).curr = next := by
  unfold switchTo
  split
  next heq =>
    rw [hprev]
    exact heq.symm
  next =>
    dsimp only
    rw [setRq_rq, if_pos rfl]

/-! ## A reschedule, task by task -/

variable {how : Leave}

theorem putSetNext_task_ne (hq : q ≠ prev) (hq' : q ≠ next) :
    (l.putSetNext c prev next).task q = l.task q := by
  unfold putSetNext
  split
  next => rfl
  next => rw [(setNext_frame c next _).task_ne q hq', (put_frame c prev l).task_ne q hq]

/-- A reschedule leaves the tasks that are neither stopped nor started
alone. -/
theorem schedule_task_ne (hq : q ≠ (l.rq c).curr) (hq' : q ≠ next) :
    (l.schedule c how next).task q = l.task q := by
  unfold schedule
  dsimp only
  rw [switchTo_task_ne hq hq', putSetNext_task_ne hq hq', leave_task_ne how hq]

/-- The task that is stopped, up to `on_cpu`. -/
theorem schedule_prev (how : Leave) (hne : next ≠ (l.rq c).curr) :
    ((l.schedule c how next).task (l.rq c).curr).linked
      = (((l.leave c (l.rq c).curr how).put c (l.rq c).curr).task (l.rq c).curr).linked ∧
    ((l.schedule c how next).task (l.rq c).curr).onRq
      = ((l.leave c (l.rq c).curr how).task (l.rq c).curr).onRq ∧
    ((l.schedule c how next).task (l.rq c).curr).schedClass
      = (l.task (l.rq c).curr).schedClass := by
  unfold schedule
  dsimp only
  rw [switchTo_linked, switchTo_onRq, switchTo_schedClass, putSetNext, if_neg hne,
    (setNext_frame c next _).task_ne _ (Ne.symm hne)]
  refine ⟨rfl, ?_, ?_⟩
  · rw [(put_frame c _ _).onRq]
  · rw [(put_frame c _ _).schedClass, (leave_bits how _).2.1]

/-- A reschedule touches the runqueue of its own CPU only. -/
theorem schedule_rq_ne (hd : d ≠ c) : (l.schedule c how next).rq d = l.rq d := by
  unfold schedule
  dsimp only
  rw [switchTo_rq_ne hd]
  unfold putSetNext
  split
  next => exact leave_rq_ne how hd
  next => rw [(setNext_frame c next _).rq_ne d hd, (put_frame c _ _).rq_ne d hd, leave_rq_ne how hd]

theorem schedule_curr_self : ((l.schedule c how next).rq c).curr = next := by
  unfold schedule
  dsimp only
  refine switchTo_curr_self ?_
  unfold putSetNext
  split
  next => exact leave_curr how c
  next => rw [(setNext_frame c next _).curr, (put_frame c _ _).curr, leave_curr]

theorem schedule_nextPid : (l.schedule c how next).nextPid = l.nextPid := by
  unfold schedule
  dsimp only
  rw [switchTo_nextPid]
  unfold putSetNext
  split
  next => exact leave_nextPid how
  next => rw [(setNext_frame c next _).nextPid, (put_frame c _ _).nextPid, leave_nextPid]

/-- A reschedule changes no task's CPU or class. -/
theorem schedule_bits (q : TaskId) :
    ((l.schedule c how next).task q).cpu = (l.task q).cpu ∧
    ((l.schedule c how next).task q).schedClass = (l.task q).schedClass := by
  unfold schedule
  dsimp only
  rw [switchTo_cpu, switchTo_schedClass]
  unfold putSetNext
  split
  next => exact ⟨(leave_bits how q).1, (leave_bits how q).2.1⟩
  next =>
    rw [(setNext_frame c next _).cpu, (put_frame c _ _).cpu, (setNext_frame c next _).schedClass,
      (put_frame c _ _).schedClass]
    exact ⟨(leave_bits how q).1, (leave_bits how q).2.1⟩

/-- The task that is stopped keeps the state it was left with. -/
theorem schedule_state (q : TaskId) :
    ((l.schedule c how next).task q).state = ((l.leave c (l.rq c).curr how).task q).state := by
  unfold schedule
  dsimp only
  rw [switchTo_state]
  unfold putSetNext
  split
  next => rfl
  next => rw [(setNext_frame c next _).state, (put_frame c _ _).state]

/-- Leaving kills nobody. -/
theorem leave_state_ne {p : TaskId} (h : (l.task p).state ≠ taskDead) :
    ((l.leave c p how).task p).state ≠ taskDead := by
  cases how with
  | stay => exact h
  | signalled =>
    show (if p = p then { l.task p with state := taskRunning } else l.task p).state ≠ taskDead
    rw [if_pos rfl]
    show taskRunning ≠ taskDead
    decide
  | block =>
    show ((l.block c p).task p).state ≠ taskDead
    rw [block_state]
    exact h

end Switch

/-! ## An activation, a class change, a burial and a fork, task by task -/

section Others

variable {c : Cpu} {l : Links} {p q : TaskId} {dest : Cpu} {v : Mask} {cls : SchedClass} {d : Cpu}

/-- The flag after an enqueue. -/
theorem enqueue_linked_self :
    ((l.enqueue c p).task p).linked
      = if (l.task p).schedClass = .hvf ∧ (l.rq c).hvfCurr ≠ some p then true
        else (l.task p).linked := by
  by_cases hcls : (l.task p).schedClass = .hvf
  · by_cases hcurr : (l.rq c).hvfCurr ≠ some p
    · rw [if_pos ⟨hcls, hcurr⟩]
      cases hlinked : (l.task p).linked with
      | false => rw [enqueue_free hcls hcurr hlinked, addNr_task, setLinked_self]
      | true =>
        rw [enqueue_busy hcls (fun h => Bool.false_ne_true (h.2.symm.trans hlinked)), hlinked]
    · rw [if_neg (fun h => hcurr h.2), enqueue_busy hcls (fun h => hcurr h.1)]
  · rw [if_neg (fun h => hcls h.1), enqueue_other hcls, addNr_task]

/-- No enqueue changes `hvf_rq->curr`. -/
theorem enqueue_hvfCurr : ((l.enqueue c p).rq d).hvfCurr = (l.rq d).hvfCurr := by
  unfold enqueue
  split
  next =>
    split
    next => rw [addNr_hvfCurr, setLinked_rq]
    next => rfl
  next => rw [addNr_hvfCurr]

/-- A dequeue takes `hvf_rq->curr` back only from its own task. -/
theorem dequeue_hvfCurr_of_ne (hcurr : (l.rq c).hvfCurr ≠ some p) :
    ((l.dequeue c p).2.rq d).hvfCurr = (l.rq d).hvfCurr := by
  unfold dequeue
  split
  next =>
    split
    next => rw [addNr_hvfCurr, setLinked_rq]
    next =>
      rw [if_neg (fun h => hcurr h.1)]
  next => rw [addNr_hvfCurr]

theorem wake_task_ne (hq : q ≠ p) : (l.wake p dest v).task q = l.task q := by
  unfold wake activate setState setOnRq
  rw [setTask_task, if_neg hq, setTask_task, if_neg hq, (enqueue_frame dest p _).task_ne q hq,
    setCpu, setTask_task, if_neg hq, setTask_task, if_neg hq]

theorem wake_nextPid {dest : Cpu} {v : Mask} : (l.wake p dest v).nextPid = l.nextPid :=
  (enqueue_frame dest p _).nextPid

theorem wake_curr : ((l.wake p dest v).rq d).curr = (l.rq d).curr :=
  (enqueue_frame dest p _).curr d

/-- The task that is woken. -/
theorem wake_self :
    (l.wake p dest v).task p
      = { l.task p with
          state := taskRunning
          onRq := .queued
          cpu := dest
          linked := if (l.task p).schedClass = .hvf ∧ (l.rq dest).hvfCurr ≠ some p then true
            else (l.task p).linked } := by
  have hp : ((l.setState p v).setCpu p dest).task p = { l.task p with state := v, cpu := dest } := by
    rw [setCpu, setTask_task, if_pos rfl, setState, setTask_task, if_pos rfl]
  have hf := enqueue_frame dest p ((l.setState p v).setCpu p dest)
  have hlinked : ((((l.setState p v).setCpu p dest).enqueue dest p).task p).linked
      = if (l.task p).schedClass = .hvf ∧ (l.rq dest).hvfCurr ≠ some p then true
        else (l.task p).linked := by
    rw [enqueue_linked_self, hp]
    rfl
  have hcls := hf.schedClass p
  have hon := hf.onCpu p
  have hcpu := hf.cpu p
  rw [hp] at hcls hon hcpu
  have hself : (l.wake p dest v).task p
      = { (((l.setState p v).setCpu p dest).enqueue dest p).task p with
          state := taskRunning, onRq := .queued } := by
    rw [wake, setState, setTask_task, if_pos rfl, activate, setOnRq, setTask_task, if_pos rfl]
  rw [hself]
  dsimp only at hcls hon hcpu ⊢
  rw [hcls, hon, hcpu, hlinked]

theorem change_frame :
    Frame (l.task p).cpu p ((l.takeOff p).setClass p cls) (l.change p cls) := by
  unfold change
  dsimp only
  split
  next => exact enqueue_frame _ p _
  next => exact Frame.refl _

theorem change_task_ne (hq : q ≠ p) : (l.change p cls).task q = l.task q := by
  rw [change_frame.task_ne q hq, setClass, setTask_task, if_neg hq, (takeOff_frame p l).task_ne q hq]

theorem change_curr : ((l.change p cls).rq d).curr = (l.rq d).curr := by
  rw [change_frame.curr]
  exact (takeOff_frame p l).curr d

/-- The task whose class is changed, but for its flag. -/
theorem change_self :
    (l.change p cls).task p
      = { l.task p with schedClass := cls, linked := ((l.change p cls).task p).linked } := by
  have hmid : ((l.takeOff p).setClass p cls).task p = { (l.takeOff p).task p with schedClass := cls } :=
    if_pos rfl
  have hrest := (change_frame (l := l) (p := p)).task_rest.trans (congrArg TaskLink.rest hmid)
  have hoff := (takeOff_frame p l).task_rest
  have heq := congrArg (fun t : TaskLink => { t with schedClass := cls }) hoff
  have hall := hrest.trans heq
  have hout := congrArg (fun t : TaskLink => { t with linked := ((l.change p cls).task p).linked }) hall
  exact hout

theorem change_nextPid : (l.change p cls).nextPid = l.nextPid :=
  change_frame.nextPid.trans (takeOff_frame p l).nextPid

theorem change_rq_ne {d : Cpu} (hd : d ≠ (l.task p).cpu) : (l.change p cls).rq d = l.rq d :=
  (change_frame.rq_ne d hd).trans ((takeOff_frame p l).rq_ne d hd)

theorem bury_task_ne (hq : q ≠ p) : (l.bury c p).task q = l.task q := by
  unfold bury
  dsimp only
  split
  next => exact if_neg hq
  next => rfl

theorem bury_curr : ((l.bury c p).rq d).curr = (l.rq d).curr := by
  have h₁ : ((l.setRq c { l.rq c with deadPrev := none }).rq d).curr = (l.rq d).curr := by
    rw [setRq_rq]
    split
    next hd => rw [hd]
    next => rfl
  unfold bury
  dsimp only
  split
  next =>
    rw [← h₁]
    exact ((setLinked_frame _ p _ false).trans (setHvfCurr_frame _ p _ none)).curr d
  next => exact h₁

/-- A burial takes the link of an HVF task and nothing else. -/
theorem bury_self :
    (l.bury c p).task p
      = { l.task p with
          linked := if (l.task p).schedClass = .hvf then false else (l.task p).linked } := by
  by_cases hcls : (l.task p).schedClass = .hvf
  · have hb : l.bury c p = ((l.setRq c { l.rq c with deadPrev := none }).setLinked p false).setHvfCurr
        (l.task p).cpu none := if_pos hcls
    rw [if_pos hcls, hb, setHvfCurr_task, setLinked, setTask_task, if_pos rfl, setRq_task]
  · have hb : l.bury c p = l.setRq c { l.rq c with deadPrev := none } := if_neg hcls
    rw [if_neg hcls, hb, setRq_task]

theorem bury_rest (q : TaskId) : ((l.bury c p).task q).rest = (l.task q).rest := by
  by_cases hq : q = p
  · rw [hq, bury_self]
    rfl
  · rw [bury_task_ne hq]

theorem bury_nextPid : (l.bury c p).nextPid = l.nextPid := by
  unfold bury
  dsimp only
  split
  next => rfl
  next => rfl

theorem bury_rq (d : Cpu) :
    ((l.bury c p).rq d).nrRunning = (l.rq d).nrRunning ∧
    (((l.bury c p).rq d).hvfCurr = none ∨ ((l.bury c p).rq d).hvfCurr = (l.rq d).hvfCurr) := by
  have h₁ : ((l.setRq c { l.rq c with deadPrev := none }).rq d).nrRunning = (l.rq d).nrRunning ∧
      ((l.setRq c { l.rq c with deadPrev := none }).rq d).hvfCurr = (l.rq d).hvfCurr := by
    rw [setRq_rq]
    split
    next hd =>
      rw [hd]
      exact ⟨rfl, rfl⟩
    next => exact ⟨rfl, rfl⟩
  unfold bury
  dsimp only
  generalize l.setRq c { l.rq c with deadPrev := none } = l₁ at h₁
  split
  next =>
    rw [setHvfCurr_nrRunning, setLinked_rq]
    refine ⟨h₁.1, ?_⟩
    by_cases hd : d = (l₁.task p).cpu
    · rw [hd, setHvfCurr_self]
      exact Or.inl rfl
    · refine Or.inr ?_
      rw [setHvfCurr, setRq_rq, if_neg hd]
      exact h₁.2
  next => exact ⟨h₁.1, Or.inr h₁.2⟩

/-- Only the CPU of a dead HVF task loses `hvf_rq->curr`. -/
theorem bury_hvfCurr_of_ne (h : ¬ ((l.task p).schedClass = .hvf ∧ d = (l.task p).cpu)) :
    ((l.bury c p).rq d).hvfCurr = (l.rq d).hvfCurr := by
  have h₁ : ((l.setRq c { l.rq c with deadPrev := none }).rq d).hvfCurr = (l.rq d).hvfCurr := by
    rw [setRq_rq]
    split
    next hd => rw [hd]
    next => rfl
  unfold bury
  dsimp only
  split
  next hcls =>
    rw [setHvfCurr, setRq_rq]
    split
    next hd => exact absurd ⟨hcls, hd⟩ h
    next => exact h₁
  next => exact h₁

theorem fork_task_ne {t : TaskLink} (hq : q ≠ .task l.nextPid) : (l.fork t).task q = l.task q :=
  if_neg hq

theorem fork_self {t : TaskLink} : (l.fork t).task (.task l.nextPid) = t := if_pos rfl

end Others

end Links

end HvfSched
