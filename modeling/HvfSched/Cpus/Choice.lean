import HvfSched.Links.Steps
import HvfSched.Model.Select

/-!
# Which CPU a value leads to

`select_task_rq_hvf` fills an array with the allowed CPUs and their loads,
sorts it by load, and cuts the scale of values into as many chunks as there are
CPUs: the entry whose chunk holds the value is chosen. With a mask that
`nr_cpus_allowed` counts, the loop fills the array exactly
(`sortCpuLoadsInMask_ok`), so nothing is read that was not written, and the
answer is a CPU of the mask. The index that is chosen grows with the value
(`rightIndex_mono`), and so does the load, whatever the sort does with CPUs of
the same load.

The chunks are `100 / nr_cpus` wide. From 101 CPUs on that is zero: no chunk
ends above any value, the loop never returns, and every task is sent to the
most loaded CPU (`rightIndex_of_crowded`). Up to 100 CPUs every entry is the
choice of some value.
-/

namespace HvfSched

open Lib

/-! ## The array of loads -/

/-- The comparison function orders by load. -/
theorem compareCpuLoads_le_zero_iff (a b : CpuLoad) :
    compareCpuLoads a b ≤ 0 ↔ a.nrRunning.toNat ≤ b.nrRunning.toNat := by
  unfold compareCpuLoads
  simp only [gt_iff_lt, UInt32.lt_iff_toNat_lt, ← UInt32.toNat_inj]
  split
  next => omega
  next => split <;> omega

theorem swapCpuLoads_permutes : Permutes swapCpuLoads := exchange_permutes

/-- A sort to run the machine with. -/
def sampleSort : LoadSort :=
  SortLib.insertion compareCpuLoads (fun x => x.nrRunning.toNat) compareCpuLoads_le_zero_iff

/-- What the loop writes for a CPU. -/
def cpuLoad (nrRunning : Cpu → UInt32) (cpu : Cpu) : CpuLoad := ⟨cpu, nrRunning cpu⟩

/-- The loop with as many entries left as there are CPUs left. The induction is
on the CPUs; `done` is the part of the array that is written. -/
theorem fillLoads_ok (nrRunning : Cpu → UInt32) :
    ∀ (cpus : List Cpu) (done rest : LoadArray), rest.length = cpus.length →
      fillLoads nrRunning cpus done.length (done ++ rest)
        = .ok (done ++ cpus.map (fun cpu => some (cpuLoad nrRunning cpu))) := by
  intro cpus
  induction cpus with
  | nil =>
    intro done rest hlen
    rw [List.length_eq_zero_iff.mp hlen]
    rfl
  | cons cpu cpus ih =>
    intro done rest hlen
    cases rest with
    | nil => simp at hlen
    | cons r rest =>
      have hwrite : writeLoad (done ++ r :: rest) done.length (cpuLoad nrRunning cpu)
          = .ok ((done ++ [some (cpuLoad nrRunning cpu)]) ++ rest) := by
        unfold writeLoad
        rw [if_pos (by simp), List.set_append_right _ _ (Nat.le_refl _)]
        simp
      have hnext := ih (done ++ [some (cpuLoad nrRunning cpu)]) rest (by simpa using hlen)
      rw [List.length_append] at hnext
      refine bind_ok.mpr ⟨_, hwrite, ?_⟩
      rw [show done.length + 1 = done.length + [some (cpuLoad nrRunning cpu)].length from rfl, hnext,
        List.map_cons, List.append_assoc]
      rfl

theorem readLoads_ok (l : List CpuLoad) : readLoads (l.map some) l.length = .ok l := by
  have hall : ∀ l : List CpuLoad, (l.map some).mapM loadOf = .ok l := by
    intro l
    induction l with
    | nil => rfl
    | cons x l ih =>
      rw [List.map_cons, List.mapM_cons, ih]
      rfl
  unfold readLoads
  rw [if_pos (by simp), List.take_of_length_le (by simp)]
  exact hall l

theorem cpusOf_length {n : Nat} (mask : BitVec n) : (cpusOf mask).length = cpumaskWeight mask :=
  List.countP_eq_length_filter.symm

/-- With room for exactly the CPUs of the mask the array is filled and sorted. -/
theorem sortCpuLoadsInMask_ok {n : Nat} (S : LoadSort) (nrRunning : Cpu → UInt32)
    (mask : BitVec n) :
    sortCpuLoadsInMask S nrRunning mask (kmallocLoads (cpumaskWeight mask)) (cpumaskWeight mask)
      = .ok (S.sort ((cpusOf mask).map (cpuLoad nrRunning))) := by
  have hfill := fillLoads_ok nrRunning (cpusOf mask) [] (kmallocLoads (cpumaskWeight mask))
    (by rw [cpusOf_length]; exact List.length_replicate)
  have hread := readLoads_ok ((cpusOf mask).map (cpuLoad nrRunning))
  rw [List.map_map, List.length_map, cpusOf_length] at hread
  exact bind_ok.mpr ⟨_, hfill, bind_ok.mpr ⟨_, hread, rfl⟩⟩

/-! ## The threshold search -/

/-- The index `get_right_cpu` ends with, for a value that is not negative. -/
def rightIndex (v nrCpus : Nat) : Nat :=
  if 100 / nrCpus = 0 then nrCpus - 1 else min (v / (100 / nrCpus)) (nrCpus - 1)

/-- The first chunk that ends above `v`, if the chunks are not empty. -/
theorem find_chunk {v n size : Nat} (hsize : 0 < size) :
    (List.range n).find? (fun j => v < (j + 1) * size)
      = if v / size < n then some (v / size) else none := by
  have hchunk : ∀ j, v < (j + 1) * size ↔ v / size ≤ j := by
    intro j
    rw [← Nat.div_lt_iff_lt_mul hsize]
    omega
  split
  next hlt =>
    rw [List.find?_range_eq_some]
    refine ⟨?_, List.mem_range.mpr hlt, ?_⟩
    · simp [hchunk]
    · intro j hj
      simp [hchunk]
      omega
  next hge =>
    rw [List.find?_eq_none]
    intro j hj
    have hj := List.mem_range.mp hj
    simp [hchunk]
    omega

theorem getRightCpu_eq {nrCpus : Nat} (hnr : 0 < nrCpus) (loads : List CpuLoad) (v : Long) :
    getRightCpu loads v nrCpus = cpuNumAt loads (rightIndex v.toUInt64.toNat nrCpus) := by
  unfold getRightCpu rightIndex
  rw [if_neg (by omega)]
  dsimp only
  generalize 100 / nrCpus = size
  by_cases hsize : size = 0
  · -- no value is below zero
    rw [if_pos hsize, List.find?_eq_none.mpr (by simp [hsize])]
  · rw [if_neg hsize, find_chunk (by omega)]
    generalize v.toUInt64.toNat / size = j
    by_cases hj : j < nrCpus
    · rw [if_pos hj, Nat.min_eq_left (by omega)]
    · rw [if_neg hj, Nat.min_eq_right (by omega)]

theorem rightIndex_lt {nrCpus : Nat} (hnr : 0 < nrCpus) (v : Nat) : rightIndex v nrCpus < nrCpus := by
  unfold rightIndex
  split <;> omega

/-- A greater value is sent no further to the front. -/
theorem rightIndex_mono {v v' : Nat} (hv : v ≤ v') (nrCpus : Nat) :
    rightIndex v nrCpus ≤ rightIndex v' nrCpus := by
  have hdiv := Nat.div_le_div_right (c := 100 / nrCpus) hv
  unfold rightIndex
  split <;> omega

/-- With more CPUs than steps on the scale no chunk is left, and the loop ends
without an answer. -/
theorem rightIndex_of_crowded {nrCpus : Nat} (hnr : 100 < nrCpus) (v : Nat) :
    rightIndex v nrCpus = nrCpus - 1 :=
  if_pos (Nat.div_eq_of_lt hnr)

/-- Up to 100 CPUs each index is that of the least value of its chunk. -/
theorem rightIndex_of_chunk {nrCpus j : Nat} (hnr : nrCpus ≤ 100) (hj : j < nrCpus) :
    rightIndex (j * (100 / nrCpus)) nrCpus = j := by
  have hsize : 0 < 100 / nrCpus := Nat.div_pos hnr (by omega)
  unfold rightIndex
  rw [if_neg (by omega), Nat.mul_div_cancel _ hsize, Nat.min_eq_left (by omega)]

/-- The greatest value goes to the last index, whatever the rounding of the
chunks leaves over. -/
theorem rightIndex_top {nrCpus : Nat} (hnr : 0 < nrCpus) : rightIndex 100 nrCpus = nrCpus - 1 := by
  unfold rightIndex
  split
  next => rfl
  next hsize =>
    have hlast : nrCpus ≤ 100 / (100 / nrCpus) := by
      rw [Nat.le_div_iff_mul_le (Nat.pos_of_ne_zero hsize)]
      exact Nat.mul_div_le 100 nrCpus
    exact Nat.min_eq_right (by omega)

/-- The answer is an entry of the array, at the index of the value. -/
theorem getRightCpu_ok (loads : List CpuLoad) (hne : 0 < loads.length) (v : Long) :
    ∃ x, loads[rightIndex v.toUInt64.toNat loads.length]? = some x ∧
      getRightCpu loads v loads.length = .ok x.cpuNum := by
  have hlt := rightIndex_lt hne v.toUInt64.toNat
  refine ⟨_, List.getElem?_eq_getElem hlt, ?_⟩
  rw [getRightCpu_eq hne, cpuNumAt, List.getElem?_eq_getElem hlt]

/-! ## The whole choice -/

/-- `p` may run on `cpu`. -/
def Affinity.allows {n : Nat} (p : Affinity n) (cpu : Cpu) : Prop := p.cpusPtr.getLsbD cpu = true

theorem mem_cpusOf {n : Nat} {mask : BitVec n} {cpu : Cpu} :
    cpu ∈ cpusOf mask ↔ mask.getLsbD cpu = true := by
  unfold cpusOf
  rw [List.mem_filter, List.mem_range]
  constructor
  · intro h
    exact h.2
  · intro h
    exact ⟨BitVec.lt_of_getLsbD h, h⟩

section Choice

variable {n : Nat} {p : Affinity n} {nrRunning : Cpu → UInt32} {flags : Mask}

/-- The sorted array the choice is made from. -/
def sortedLoads (S : LoadSort) (nrRunning : Cpu → UInt32) (p : Affinity n) : List CpuLoad :=
  S.sort ((cpusOf p.cpusPtr).map (cpuLoad nrRunning))

theorem sortedLoads_perm (S : LoadSort) (nrRunning : Cpu → UInt32) (p : Affinity n) :
    (sortedLoads S nrRunning p).Perm ((cpusOf p.cpusPtr).map (cpuLoad nrRunning)) :=
  S.perm swapCpuLoads_permutes _

theorem sortedLoads_length (hcount : p.nrCpusAllowed = cpumaskWeight p.cpusPtr) (S : LoadSort)
    (nrRunning : Cpu → UInt32) :
    (sortedLoads S nrRunning p).length = p.nrCpusAllowed := by
  rw [(sortedLoads_perm S nrRunning p).length_eq, List.length_map, cpusOf_length, hcount]

/-- An entry of the array names an allowed CPU and its load. -/
theorem mem_sortedLoads {S : LoadSort} {x : CpuLoad} (h : x ∈ sortedLoads S nrRunning p) :
    p.allows x.cpuNum ∧ x.nrRunning = nrRunning x.cpuNum := by
  rw [(sortedLoads_perm S nrRunning p).mem_iff, List.mem_map] at h
  obtain ⟨cpu, hcpu, rfl⟩ := h
  exact ⟨mem_cpusOf.mp hcpu, rfl⟩

/-- A wakeup or a fork of a task with two or more CPUs takes the entry at the
index of its value. -/
theorem selectTaskRqHvf_ok (hcount : p.nrCpusAllowed = cpumaskWeight p.cpusPtr)
    (htwo : 2 ≤ p.nrCpusAllowed) (hflags : hasAny flags (wfTtwu ||| wfFork) = true) (S : LoadSort)
    (nrRunning : Cpu → UInt32) (v : Long) (prevCpu : Cpu) :
    ∃ x, (sortedLoads S nrRunning p)[rightIndex v.toUInt64.toNat p.nrCpusAllowed]? = some x ∧
      selectTaskRqHvf S nrRunning p v prevCpu flags = .ok ⟨prevCpu, x.cpuNum⟩ := by
  have hlen := sortedLoads_length hcount S nrRunning
  have hsort := sortCpuLoadsInMask_ok S nrRunning p.cpusPtr
  rw [← hcount] at hsort
  obtain ⟨x, hx, hright⟩ := getRightCpu_ok (sortedLoads S nrRunning p) (by omega) v
  rw [hlen] at hx hright
  refine ⟨x, hx, ?_⟩
  unfold selectTaskRqHvf
  rw [if_neg (by simp [hflags]; omega)]
  exact bind_ok.mpr ⟨_, hsort, bind_ok.mpr ⟨_, hright, rfl⟩⟩

/-- `select_task_rq_hvf` chooses an allowed CPU, whatever the value, and a
greater value never leads to a CPU with less load. -/
theorem cpu_choice_legal_and_monotone {n : Nat} (p : Affinity n) (nrRunning : Cpu → UInt32)
    (hcount : p.nrCpusAllowed = cpumaskWeight p.cpusPtr) (htwo : 2 ≤ p.nrCpusAllowed) :
    (∀ (S : LoadSort) (v : Long) (prevCpu : Cpu) (flags : Mask),
      hasAny flags (wfTtwu ||| wfFork) = true →
      ∃ r, selectTaskRqHvf S nrRunning p v prevCpu flags = .ok r ∧ p.allows r.currCpu) ∧
    ∀ (S S' : LoadSort) (v v' : Long) (prevCpu prevCpu' : Cpu) (flags flags' : Mask)
      (r r' : Placement),
      hasAny flags (wfTtwu ||| wfFork) = true → hasAny flags' (wfTtwu ||| wfFork) = true →
      0 ≤ v → v ≤ v' →
      selectTaskRqHvf S nrRunning p v prevCpu flags = .ok r →
      selectTaskRqHvf S' nrRunning p v' prevCpu' flags' = .ok r' →
      nrRunning r.currCpu ≤ nrRunning r'.currCpu := by
  constructor
  · intro S v prevCpu flags hflags
    obtain ⟨x, hx, hsel⟩ := selectTaskRqHvf_ok hcount htwo hflags S nrRunning v prevCpu
    exact ⟨_, hsel, (mem_sortedLoads (List.mem_of_getElem? hx)).1⟩
  · intro S S' v v' prevCpu prevCpu' flags flags' r r' hflags hflags' hpos hle hr hr'
    obtain ⟨x, hx, hsel⟩ := selectTaskRqHvf_ok hcount htwo hflags S nrRunning v prevCpu
    obtain ⟨x', hx', hsel'⟩ :=
      selectTaskRqHvf_ok hcount htwo hflags' S' nrRunning v' prevCpu'
    have heq : r = ⟨prevCpu, x.cpuNum⟩ := Except.ok.inj (hr.symm.trans hsel)
    have heq' : r' = ⟨prevCpu', x'.cpuNum⟩ := Except.ok.inj (hr'.symm.trans hsel')
    rw [heq, heq', ← (mem_sortedLoads (List.mem_of_getElem? hx)).2,
      ← (mem_sortedLoads (List.mem_of_getElem? hx')).2, UInt32.le_iff_toNat_le]
    -- the two values as unsigned numbers
    have hpos : 0 ≤ v.toInt := Int64.le_iff_toInt_le.mp hpos
    have hle : v.toInt ≤ v'.toInt := Int64.le_iff_toInt_le.mp hle
    have hv := toUInt64_of_nonneg hpos
    have hv' := toUInt64_of_nonneg (a := v') (by omega)
    exact S.key_le S' compareCpuLoads_le_zero_iff swapCpuLoads_permutes
      (rightIndex_mono (by omega) p.nrCpusAllowed) hx hx'

end Choice

/-- Three of four CPUs, with one, two and three tasks. -/
def threeCpus : Affinity 4 := ⟨0b1101, 3⟩

def threeLoads (cpu : Cpu) : UInt32 := if cpu = 0 then 3 else if cpu = 2 then 1 else 2

theorem cpu_choice_of_three :
    ∃ r r', selectTaskRqHvf sampleSort threeLoads threeCpus 10 3 wfTtwu = .ok r ∧
      selectTaskRqHvf sampleSort threeLoads threeCpus 90 3 wfFork = .ok r' ∧
      r.currCpu = 2 ∧ r'.currCpu = 0 ∧ threeLoads r.currCpu ≤ threeLoads r'.currCpu := by
  have hlow : selectTaskRqHvf sampleSort threeLoads threeCpus 10 3 wfTtwu = .ok ⟨3, 2⟩ := by
    decide +kernel
  have hhigh : selectTaskRqHvf sampleSort threeLoads threeCpus 90 3 wfFork = .ok ⟨3, 0⟩ := by
    decide +kernel
  have hchoice := cpu_choice_legal_and_monotone threeCpus threeLoads (by decide) (by decide)
  refine ⟨_, _, hlow, hhigh, rfl, rfl, ?_⟩
  exact hchoice.2 sampleSort sampleSort 10 90 3 3 wfTtwu wfFork _ _ (by decide) (by decide)
    (by decide) (by decide) hlow hhigh

/-! ## Where a woken task lands -/

theorem cpumaskAny_allows {n : Nat} {p : Affinity n}
    (hcount : p.nrCpusAllowed = cpumaskWeight p.cpusPtr) (hone : 0 < p.nrCpusAllowed) :
    p.allows (cpumaskAny p.cpusPtr) := by
  rw [hcount, ← cpusOf_length] at hone
  obtain ⟨cpu, cpus, heq⟩ := List.exists_cons_of_length_pos hone
  have hany : cpumaskAny p.cpusPtr = cpu := by
    rw [cpumaskAny, heq]
    rfl
  rw [hany]
  exact mem_cpusOf.mp (heq ▸ List.mem_cons_self)

/-- As long as every CPU of the mask is up, the core takes one of them. -/
theorem selectTaskRq_allows {n : Nat} {p : Affinity n}
    (hcount : p.nrCpusAllowed = cpumaskWeight p.cpusPtr) (hone : 0 < p.nrCpusAllowed)
    {x : Hotplug} (hup : ∀ cpu, p.allows cpu → x.isCpuAllowed cpu = true) {flags : Mask}
    (hflags : hasAny flags (wfTtwu ||| wfFork) = true) {S : LoadSort} {nrRunning : Cpu → UInt32}
    {v : Long} {cpu dest : Cpu} (h : selectTaskRq S nrRunning x p v cpu flags = .ok dest) :
    p.allows dest := by
  -- the CPU that is passed on to `is_cpu_allowed`
  have hpass : ∀ {cpu' : Cpu}, p.allows cpu' →
      (if x.isCpuAllowed cpu' then cpu' else x.fallback) = dest → p.allows dest := by
    intro cpu' hallows hdest
    rw [if_pos (hup cpu' hallows)] at hdest
    exact hdest ▸ hallows
  unfold selectTaskRq at h
  split at h
  next hmany =>
    obtain ⟨y, hy, hsel⟩ := selectTaskRqHvf_ok hcount hmany.1 hflags S nrRunning v cpu
    rw [hsel] at h
    exact hpass (mem_sortedLoads (List.mem_of_getElem? hy)).1 (Except.ok.inj h)
  next => exact hpass (cpumaskAny_allows hcount hone) (Except.ok.inj h)

section Machine

variable {E : Env} {s s' : Sys} {a : Act} {p : TaskId} {dest : Cpu}

/-- A task that a wakeup puts on a runqueue is on the CPU chosen for it. -/
theorem activates_cpu (hstep : step E s a = some s') (hact : activates s a = some (p, dest)) :
    (s'.task p).cpu = dest := by
  have hexec := (step_ok hstep).2
  have hlinks : ∃ v, s'.links = s.links.wake p dest v := by
    cases a with
    | wake thisCpu q mask d =>
      dsimp only [activates] at hact
      split at hact
      next hoff =>
        obtain ⟨rfl, rfl⟩ := Prod.mk.inj (Option.some.inj hact)
        obtain ⟨hmatch, hcurr, hqueued⟩ := hoff
        change tryToWakeUp E thisCpu q mask d s = .ok s' at hexec
        unfold tryToWakeUp at hexec
        rw [if_neg (by rw [hmatch]; decide), if_neg hcurr, if_neg hqueued] at hexec
        obtain ⟨s₁, h₁, h₂⟩ := bind_ok.mp hexec
        exact ⟨_, activate_links h₁ (Or.inr (Except.ok.inj h₂).symm)⟩
      next => cases hact
    | wakeNew thisCpu q d =>
      obtain ⟨rfl, rfl⟩ := Prod.mk.inj (Option.some.inj hact)
      obtain ⟨s₁, h₁, h₂⟩ := bind_ok.mp hexec
      exact ⟨_, activate_links h₁ (Or.inl ⟨rfl, (Except.ok.inj h₂).symm⟩)⟩
    | _ => cases hact
  obtain ⟨v, hlinks⟩ := hlinks
  have hcpu : (s'.links.task p).cpu = dest := by
    rw [hlinks, Links.wake_self]
  exact hcpu

/-- The numbers of tasks `select_task_rq_hvf` reads. -/
def Sys.loads (s : Sys) (cpu : Cpu) : UInt32 := UInt32.ofInt (s.rq cpu).nrRunning

/-- In the machine: a task that is woken, for the first time or again, is on a
CPU of its mask. -/
theorem woken_on_allowed_cpu {n : Nat} {aff : Affinity n}
    (hcount : aff.nrCpusAllowed = cpumaskWeight aff.cpusPtr) (hone : 0 < aff.nrCpusAllowed)
    {x : Hotplug} (hup : ∀ cpu, aff.allows cpu → x.isCpuAllowed cpu = true) {flags : Mask}
    (hflags : hasAny flags (wfTtwu ||| wfFork) = true) {S : LoadSort} {cpu : Cpu}
    (hdest : selectTaskRq S s.loads x aff (s.value p) cpu flags = .ok dest)
    (hstep : step E s a = some s') (hact : activates s a = some (p, dest)) :
    aff.allows (s'.task p).cpu := by
  rw [activates_cpu hstep hact]
  exact selectTaskRq_allows hcount hone hup hflags hdest

end Machine

/-! ## The scale over the CPUs -/

/-- What the comment in `get_right_cpu` promises of an array sorted by load: the
ends of the scale go to its ends, and no CPU is left out when there are values
for all of them. -/
structure SpreadsValues (loads : List CpuLoad) : Prop where
  low : getRightCpu loads 0 loads.length = cpuNumAt loads 0
  high : getRightCpu loads 100 loads.length = cpuNumAt loads (loads.length - 1)
  onto : loads.length ≤ 100 → ∀ j < loads.length, ∃ v : Long, 0 ≤ v ∧ v ≤ 100 ∧
    getRightCpu loads v loads.length = cpuNumAt loads j

/-- A step of the scale as a `long`. -/
theorem ofNat_onScale {k : Nat} (hk : k ≤ 100) :
    0 ≤ Int64.ofNat k ∧ Int64.ofNat k ≤ 100 ∧ (Int64.ofNat k).toUInt64.toNat = k := by
  have hint : (Int64.ofNat k).toInt = k := Int64.toInt_ofNat_of_lt (by omega)
  have hnat := toUInt64_of_nonneg (a := Int64.ofNat k) (by omega)
  refine ⟨Int64.le_iff_toInt_le.mpr ?_, Int64.le_iff_toInt_le.mpr ?_, by omega⟩
  · rw [hint]
    exact Int.natCast_nonneg k
  · rw [hint]
    exact Int.ofNat_le.mpr hk

/-- The values are spread over the array as long as there are at most 100 CPUs.
With more of them even the least value gets the last entry, so it is the right
one only if the two ends are the same CPU. The order of the array plays no part. -/
theorem values_spread_iff (loads : List CpuLoad) (htwo : 2 ≤ loads.length) :
    SpreadsValues loads ↔
      loads.length ≤ 100 ∨ cpuNumAt loads 0 = cpuNumAt loads (loads.length - 1) := by
  have hne : 0 < loads.length := by omega
  have hhigh : getRightCpu loads 100 loads.length = cpuNumAt loads (loads.length - 1) := by
    rw [getRightCpu_eq hne, show (100 : Long).toUInt64.toNat = 100 from rfl, rightIndex_top hne]
  -- the value at which the chunk of entry `j` starts
  have hchunk : loads.length ≤ 100 → ∀ j < loads.length, ∃ v : Long, 0 ≤ v ∧ v ≤ 100 ∧
      getRightCpu loads v loads.length = cpuNumAt loads j := by
    intro hle j hj
    have hstart : j * (100 / loads.length) ≤ 100 := by
      calc j * (100 / loads.length) ≤ loads.length * (100 / loads.length) :=
            Nat.mul_le_mul_right _ (by omega)
        _ ≤ 100 := Nat.mul_div_le 100 loads.length
    obtain ⟨hpos, htop, hnat⟩ := ofNat_onScale hstart
    refine ⟨_, hpos, htop, ?_⟩
    rw [getRightCpu_eq hne, hnat, rightIndex_of_chunk hle hj]
  constructor
  · intro h
    by_cases hle : loads.length ≤ 100
    · exact Or.inl hle
    · right
      rw [← h.low, getRightCpu_eq hne, rightIndex_of_crowded (by omega)]
  · intro h
    refine ⟨?_, hhigh, hchunk⟩
    rw [getRightCpu_eq hne]
    rcases Nat.lt_or_ge 100 loads.length with hlt | hle
    · rw [rightIndex_of_crowded hlt]
      exact (h.resolve_left (by omega)).symm
    · have hzero := rightIndex_of_chunk hle hne
      rw [Nat.zero_mul] at hzero
      exact congrArg (cpuNumAt loads) hzero

theorem values_spread_over_three :
    SpreadsValues (sortedLoads sampleSort threeLoads threeCpus) :=
  (values_spread_iff (sortedLoads sampleSort threeLoads threeCpus) (by decide +kernel)).mpr
    (Or.inl (by decide +kernel))

/-- CPUs 0 to 100, each with as many tasks as its number. -/
def crowdedLoads : List CpuLoad := (List.range 101).map fun j => ⟨j, UInt32.ofNat j⟩

theorem crowdedLoads_sorted : crowdedLoads.Pairwise (fun x y => compareCpuLoads x y ≤ 0) := by
  unfold crowdedLoads
  rw [List.pairwise_map]
  refine List.pairwise_lt_range.imp_of_mem ?_
  intro i j hi hj hlt
  have hi := List.mem_range.mp hi
  have hj := List.mem_range.mp hj
  rw [compareCpuLoads_le_zero_iff]
  show i % 4294967296 ≤ j % 4294967296
  omega

/-- On 101 CPUs a task of value 0 is sent to the most loaded one. -/
theorem low_value_to_most_loaded :
    crowdedLoads.Pairwise (fun x y => compareCpuLoads x y ≤ 0) ∧ crowdedLoads.length = 101 ∧
      cpuNumAt crowdedLoads 0 = .ok 0 ∧ getRightCpu crowdedLoads 0 crowdedLoads.length = .ok 100 ∧
      ¬ SpreadsValues crowdedLoads := by
  have hleast : cpuNumAt crowdedLoads 0 = .ok 0 := by decide +kernel
  have hsent : getRightCpu crowdedLoads 0 crowdedLoads.length = .ok 100 := by decide +kernel
  refine ⟨crowdedLoads_sorted, rfl, hleast, hsent, ?_⟩
  intro h
  have hsame := hsent.symm.trans (h.low.trans hleast)
  exact absurd (Except.ok.inj hsame) (by decide)

end HvfSched
