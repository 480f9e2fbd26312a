import HvfSched.Lib.Text
import HvfSched.Model.Value

/-!
# The log of ended tasks

`register_entity_info` prints one line for every task of the class that ends.
`copy_to_csv.sh` picks these lines out of the trace with `grep` and `awk`, and
writes a file with one row for each of them.

* A line of the trace has a header in front of what `trace_printk` printed, with
  the name of the task that was running, the CPU and a time stamp.
* `charts.py`, which draws what is in the file, leaves the reading to pandas and
  is not modelled.
-/

namespace HvfSched

open Lib

def marker : Text := "hvf_task_terminated".toList

/-- What `register_entity_info` prints, without the newline. -/
def EntityInfo.print (r : EntityInfo) : Text :=
  [','].intercalate [marker, showInt r.pid, showInt r.initValue.toInt, showInt r.turnaroundTime.toInt,
    showInt r.waitTime.toInt, showInt r.compTime.toInt, showInt r.responseTime.toInt]

/-! ## `copy_to_csv.sh` -/

/-- `grep "hvf_task_terminated"`. -/
def grepMarker (trace : List Text) : List Text := trace.filter fun line => decide (marker <:+: line)

/-- `$i` of `awk -F,`. -/
def awkField (line : Text) (i : Nat) : Text := (line.splitOn ',')[i - 1]?.getD []

/-- `{ print $2","$3","$4","$5","$6","$7 }`. -/
def awkPrint (line : Text) : Text :=
  [','].intercalate [awkField line 2, awkField line 3, awkField line 4, awkField line 5,
    awkField line 6, awkField line 7]

def csvColumns : Text :=
  "pid,init_sched_value,turnaround_time,wait_time,computation_time,response_time".toList

/-- The lines of `hvf_log.csv`. -/
def copyToCsv (trace : List Text) : List Text := csvColumns :: (grepMarker trace).map awkPrint

end HvfSched
