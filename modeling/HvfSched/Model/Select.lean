import HvfSched.Lib.Sorting
import HvfSched.Model.Task

/-!
# Choosing a CPU

The SMP part of `kernel/sched/hvf.c`: `select_task_rq_hvf` lists the allowed
CPUs with their loads in an array, sorts it, and takes the entry that the value
of the task points to; and `select_task_rq` of the core, which calls it.

* An affinity mask is a bit vector over the possible CPUs, and `for_each_cpu`
  walks it in ascending order. `nr_cpus_allowed` is a number of its own; nothing
  in these functions looks at whether it counts the mask.
* The array comes from `kmalloc_array`, which is taken to succeed: its entries
  are there but have not been written. A write outside the array and a read of
  an entry that was never written are faults, as is the division by a number of
  CPUs that is zero.
* `size_t` is `Nat`: the products of the threshold search stay below 101. The
  value is a `long`; in the comparison with such a product it is converted, so a
  negative one counts as a very large number.
* `lib/sort` is outside the repository (`LoadSort`).
-/

namespace HvfSched

open Lib

/-! ## Loads -/

/-- `struct cpu_load`. -/
structure CpuLoad where
  cpuNum : Cpu
  nrRunning : UInt32
  deriving DecidableEq, Repr

/-- `compare_cpu_loads`. -/
def compareCpuLoads (a b : CpuLoad) : Int :=
  if a.nrRunning > b.nrRunning then 1
  else if a.nrRunning = b.nrRunning then 0
  else -1

/-- `swap_cpu_loads`, on two entries of an array. -/
def swapCpuLoads (loads : List CpuLoad) (a b : Fin loads.length) : List CpuLoad :=
  let tmp := loads.get a
  (loads.set a (loads.get b)).set b tmp

/-- `sort` as it is called here. -/
abbrev LoadSort := SortLib compareCpuLoads swapCpuLoads

inductive LoadFault
  | outOfBounds
  | uninitialised
  | divide
  deriving DecidableEq, Repr

/-- The allocated array; an entry is `none` until it is written. -/
abbrev LoadArray := List (Option CpuLoad)

/-- `kmalloc_array`. -/
def kmallocLoads (n : Nat) : LoadArray := List.replicate n none

/-- `loads[i] = x`. -/
def writeLoad (loads : LoadArray) (i : Nat) (x : CpuLoad) : Except LoadFault LoadArray :=
  if i < loads.length then .ok (loads.set i (some x)) else .error .outOfBounds

/-- An entry that is read has to have been written. -/
def loadOf : Option CpuLoad → Except LoadFault CpuLoad
  | some x => .ok x
  | none => .error .uninitialised

/-- The first `nrCpus` entries, all of which `sort` compares. -/
def readLoads (loads : LoadArray) (nrCpus : Nat) : Except LoadFault (List CpuLoad) :=
  if nrCpus ≤ loads.length then (loads.take nrCpus).mapM loadOf else .error .outOfBounds

/-- `for_each_cpu` over a mask, in the order of the loop. -/
def cpusOf {n : Nat} (mask : BitVec n) : List Cpu := (List.range n).filter mask.getLsbD

/-- `cpumask_weight`. -/
def cpumaskWeight {n : Nat} (mask : BitVec n) : Nat := (List.range n).countP mask.getLsbD

/-- The loop that fills the array, from entry `i` on. -/
def fillLoads (nrRunning : Cpu → UInt32) : List Cpu → Nat → LoadArray → Except LoadFault LoadArray
  | [], _, loads => .ok loads
  | cpu :: cpus, i, loads => do
    let loads ← writeLoad loads i ⟨cpu, nrRunning cpu⟩
    fillLoads nrRunning cpus (i + 1) loads

/-- `sort_cpu_loads_in_mask`. -/
def sortCpuLoadsInMask {n : Nat} (S : LoadSort) (nrRunning : Cpu → UInt32) (mask : BitVec n)
    (loads : LoadArray) (nrCpus : Nat) : Except LoadFault (List CpuLoad) := do
  let loads ← fillLoads nrRunning (cpusOf mask) 0 loads
  let filled ← readLoads loads nrCpus
  return S.sort filled

/-! ## The entry a value points to -/

/-- `loads[j].cpu_num`. -/
def cpuNumAt (loads : List CpuLoad) (j : Nat) : Except LoadFault Cpu :=
  match loads[j]? with
  | some x => .ok x.cpuNum
  | none => .error .outOfBounds

/-- `get_right_cpu`: the loop returns at the first `j` whose chunk ends above the
value; behind the loop stands the last entry. -/
def getRightCpu (loads : List CpuLoad) (schedValue : Long) (nrCpus : Nat) : Except LoadFault Cpu :=
  if nrCpus = 0 then .error .divide
  else
    let chunkSize := 100 / nrCpus
    match (List.range nrCpus).find? fun j => schedValue.toUInt64.toNat < (j + 1) * chunkSize with
    | some j => cpuNumAt loads j
    | none => cpuNumAt loads (nrCpus - 1)

/-! ## `select_task_rq` -/

def wfFork : Mask := 0x04
def wfTtwu : Mask := 0x08

/-- `p->cpus_ptr` and `p->nr_cpus_allowed`. -/
structure Affinity (n : Nat) where
  cpusPtr : BitVec n
  nrCpusAllowed : Nat

/-- `prev_cpu` and `curr_cpu` of the entity; the latter is the answer. -/
structure Placement where
  prevCpu : Cpu
  currCpu : Cpu
  deriving DecidableEq, Repr

/-- `select_task_rq_hvf`, for a task of value `schedValue`. -/
def selectTaskRqHvf {n : Nat} (S : LoadSort) (nrRunning : Cpu → UInt32) (p : Affinity n)
    (schedValue : Long) (prevCpu : Cpu) (flags : Mask) : Except LoadFault Placement :=
  if hasAny flags (wfTtwu ||| wfFork) = false ∨ p.nrCpusAllowed = 1 then
    .ok ⟨prevCpu, prevCpu⟩
  else do
    let cpuLen := p.nrCpusAllowed
    let loads ← sortCpuLoadsInMask S nrRunning p.cpusPtr (kmallocLoads cpuLen) cpuLen
    let newCpu ← getRightCpu loads schedValue cpuLen
    return ⟨prevCpu, newCpu⟩

/-- `cpumask_any`: the first CPU of the mask, or a number past the last CPU. -/
def cpumaskAny {n : Nat} (mask : BitVec n) : Cpu := (cpusOf mask).head?.getD n

/-- What `select_task_rq` asks of code outside the scheduling class: whether the
task may migrate now, which CPUs it may be placed on (they are online, and not
about to go away), and the answer of `select_fallback_rq`. -/
structure Hotplug where
  migrationDisabled : Bool
  isCpuAllowed : Cpu → Bool
  fallback : Cpu

/-- `select_task_rq`, for a task of the class. -/
def selectTaskRq {n : Nat} (S : LoadSort) (nrRunning : Cpu → UInt32) (x : Hotplug)
    (p : Affinity n) (schedValue : Long) (cpu : Cpu) (wakeFlags : Mask) :
    Except LoadFault Cpu := do
  let cpu ←
    if p.nrCpusAllowed > 1 ∧ x.migrationDisabled = false then
      (selectTaskRqHvf S nrRunning p schedValue cpu wakeFlags).map Placement.currCpu
    else .ok (cpumaskAny p.cpusPtr)
  return if x.isCpuAllowed cpu then cpu else x.fallback

end HvfSched
