import HvfSched.Cpus.Choice
import HvfSched.Cpus.Preempt
import HvfSched.Lib.Bytes
import HvfSched.Lib.Count
import HvfSched.Lib.LongArith
import HvfSched.Lib.OrdTree
import HvfSched.Lib.Ramp
import HvfSched.Lib.Run
import HvfSched.Lib.Sorting
import HvfSched.Lib.Spans
import HvfSched.Lib.StableQueue
import HvfSched.Lib.Text
import HvfSched.Links.Machine
import HvfSched.Links.Members
import HvfSched.Links.Recognised
import HvfSched.Links.Simulation
import HvfSched.Links.Sound
import HvfSched.Links.Steps
import HvfSched.Model.Cases
import HvfSched.Model.Change
import HvfSched.Model.Core
import HvfSched.Model.Entries
import HvfSched.Model.Hvf
import HvfSched.Model.Log
import HvfSched.Model.Select
import HvfSched.Model.System
import HvfSched.Model.Task
import HvfSched.Model.User
import HvfSched.Model.Value
import HvfSched.Queue.Entity
import HvfSched.Queue.Ordered
import HvfSched.Queue.Overrun
import HvfSched.Queue.Put
import HvfSched.Queue.Recompute
import HvfSched.Queue.Seats
import HvfSched.Queue.Sorted
import HvfSched.Queue.Stable
import HvfSched.Queue.Trees
import HvfSched.Runs.Arrivals
import HvfSched.Runs.Block
import HvfSched.Runs.Calm
import HvfSched.Runs.Charge
import HvfSched.Runs.Conserve
import HvfSched.Runs.Defaults
import HvfSched.Runs.Entries
import HvfSched.Runs.Entry
import HvfSched.Runs.Exit
import HvfSched.Runs.FastPath
import HvfSched.Runs.Faults
import HvfSched.Runs.Flags
import HvfSched.Runs.Frames
import HvfSched.Runs.Log
import HvfSched.Runs.Lost
import HvfSched.Runs.Migrate
import HvfSched.Runs.Moves
import HvfSched.Runs.Order
import HvfSched.Runs.Pick
import HvfSched.Runs.Policy
import HvfSched.Runs.Readback
import HvfSched.Runs.Residue
import HvfSched.Runs.Response
import HvfSched.Runs.Restore
import HvfSched.Runs.Scale
import HvfSched.Runs.Seating
import HvfSched.Runs.Slice
import HvfSched.Runs.Turns
import HvfSched.Tasks.OneTask
import HvfSched.Tasks.Records
import HvfSched.Tasks.Running
import HvfSched.Tasks.Steps
import HvfSched.Values.Calls
import HvfSched.Values.Params
import HvfSched.Values.Scale
import HvfSched.Values.Score
import HvfSched.Values.Shape
import HvfSched.Values.Share
