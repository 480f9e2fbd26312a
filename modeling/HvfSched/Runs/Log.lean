import HvfSched.Model.Log
import HvfSched.Runs.Exit
import HvfSched.Runs.Response

/-!
# What the log says of a run

A line of the log is a header and a record, and the script splits it at the
commas. A record has the right number of them, and its numbers contain none; so
whether a row of the file is the record that was printed depends on the header
alone, which has the name of the task that was running in it. Every comma moves
the columns by one, and a name with enough of them is a row of its own
(`header_commas_shift_columns`).

Over a run the trace grows by the lines of the scheduler and by anything else
the kernel prints (`Tracer`). If no header has a comma and nobody else prints
the marker, the rows of the file are the reports, in the order of the burials,
and if the exits are clean no task is reported twice
(`log_lists_each_ended_task_once`).
-/

namespace HvfSched

open Lib Sys

variable {E : Env} {s s' : Sys} {a : Act} {p : TaskId} {c d : Cpu}

/-! ## One line -/

/-- The numbers of a record, as they are printed. -/
def EntityInfo.fields (r : EntityInfo) : List Text :=
  [showInt r.pid, showInt r.initValue.toInt, showInt r.turnaroundTime.toInt, showInt r.waitTime.toInt,
    showInt r.compTime.toInt, showInt r.responseTime.toInt]

/-- The row a record should give. -/
def EntityInfo.row (r : EntityInfo) : Text := [','].intercalate r.fields

/-- The columns of a row. -/
def columns (row : Text) : List Text := row.splitOn ','

theorem EntityInfo.print_eq (r : EntityInfo) : r.print = marker ++ ',' :: r.row := rfl

theorem comma_not_mem_fields {r : EntityInfo} {f : Text} (h : f ∈ r.fields) : ',' ∉ f := by
  have hshow : ∃ x, f = showInt x := by
    simp only [EntityInfo.fields, List.mem_cons, List.not_mem_nil, or_false] at h
    rcases h with h | h | h | h | h | h <;> exact ⟨_, h⟩
  obtain ⟨x, rfl⟩ := hshow
  exact not_mem_showInt rfl (by decide) x

theorem EntityInfo.columns_row (r : EntityInfo) : columns r.row = r.fields :=
  List.splitOn_intercalate ',' (fun _ hf => comma_not_mem_fields hf) (List.cons_ne_nil _ _)

/-- A row has all there is in the record. -/
theorem EntityInfo.row_injective : Function.Injective EntityInfo.row := by
  intro r r' h
  have hfields : r.fields = r'.fields := by
    rw [← r.columns_row, ← r'.columns_row, h]
  simp only [EntityInfo.fields, List.cons.injEq, showInt_injective.eq_iff, Int64.toInt_inj,
    Int.natCast_inj, and_true] at hfields
  obtain ⟨h₁, h₂, h₃, h₄, h₅, h₆⟩ := hfields
  cases r
  cases r'
  simp_all

/-- How a line of the log splits at its commas. -/
theorem splitOn_line (header : Text) (r : EntityInfo) :
    ∃ init last, init.length = header.count ',' ∧ header.splitOn ',' = init ++ [last] ∧
      (header ++ r.print).splitOn ',' = init ++ (last ++ marker) :: r.fields := by
  obtain ⟨init, last, hlen, hheader, hsplit⟩ :=
    splitOn_append_last header (show ',' ∉ marker by decide)
  refine ⟨init, last, hlen, hheader, ?_⟩
  rw [r.print_eq, ← List.append_assoc, List.splitOn_append_cons_self, hsplit, List.append_assoc]
  exact congrArg (fun l => init ++ (last ++ marker) :: l) r.columns_row

/-- Behind a header without commas a record gives its row. -/
theorem awkPrint_line {header : Text} (hcomma : ',' ∉ header) (r : EntityInfo) :
    awkPrint (header ++ r.print) = r.row := by
  obtain ⟨init, last, hlen, -, hsplit⟩ := splitOn_line header r
  rw [List.count_eq_zero_of_not_mem hcomma, List.length_eq_zero_iff] at hlen
  subst hlen
  unfold awkPrint awkField
  rw [hsplit]
  rfl

/-- `awk` prints six of the fields of the line. -/
theorem columns_awkPrint {line : Text} {fs : List Text} (hsplit : line.splitOn ',' = fs)
    (hlen : 7 ≤ fs.length) : columns (awkPrint line) = (fs.drop 1).take 6 := by
  have hfree : ∀ f ∈ [awkField line 2, awkField line 3, awkField line 4, awkField line 5,
      awkField line 6, awkField line 7], ',' ∉ f := by
    have hfield : ∀ i, ',' ∉ awkField line i := by
      intro i
      unfold awkField
      cases hget : (line.splitOn ',')[i - 1]? with
      | none => exact List.not_mem_nil
      | some g => exact not_mem_of_mem_splitOn (List.mem_of_getElem? hget)
    intro f hf
    simp only [List.mem_cons, List.not_mem_nil, or_false] at hf
    rcases hf with rfl | rfl | rfl | rfl | rfl | rfl <;> exact hfield _
  refine (List.splitOn_intercalate ',' hfree (List.cons_ne_nil _ _)).trans ?_
  unfold awkField
  rw [hsplit]
  match fs, hlen with
  | _ :: _ :: _ :: _ :: _ :: _ :: _ :: _, _ => rfl

/-- Every comma in the header of a line moves the columns of its row by one.
Without one the row is the record. With one to six of them the row begins with
pieces of the header, the marker stands in the column of the last comma, and as
many numbers of the record are lost at the end. With more than six the row has
nothing of the record: it is what stands between the commas of the header. -/
theorem header_commas_shift_columns (header : Text) (r : EntityInfo) :
    (header.count ',' = 0 → awkPrint (header ++ r.print) = r.row) ∧
    (0 < header.count ',' → header.count ',' ≤ 6 → ∃ first before last,
      before.length + 1 = header.count ',' ∧ header.splitOn ',' = first :: before ++ [last] ∧
      columns (awkPrint (header ++ r.print))
        = before ++ (last ++ marker) :: r.fields.take (6 - header.count ',')) ∧
    (6 < header.count ',' →
      columns (awkPrint (header ++ r.print)) = ((header.splitOn ',').drop 1).take 6) := by
  obtain ⟨init, last, hlen, hheader, hsplit⟩ := splitOn_line header r
  have hcols := columns_awkPrint hsplit (by simp [EntityInfo.fields])
  refine ⟨?_, ?_, ?_⟩
  · intro hnone
    exact awkPrint_line (List.count_eq_zero.mp hnone) r
  · intro hsome hsix
    rw [← hlen] at hsome hsix
    obtain ⟨first, before, rfl⟩ := List.exists_cons_of_length_pos hsome
    rw [List.length_cons] at hlen hsix
    refine ⟨first, before, last, hlen, hheader, ?_⟩
    rw [hcols, ← hlen, List.cons_append, List.drop_succ_cons, List.drop_zero, List.take_append,
      List.take_of_length_le (by omega)]
    have hrest : 6 - before.length = 6 - (before.length + 1) + 1 := by omega
    rw [hrest, List.take_succ_cons]
  · intro hmany
    rw [← hlen] at hmany
    have hdrop : 6 ≤ (init.drop 1).length := by
      rw [List.length_drop]
      omega
    rw [hcols, hheader, List.drop_append_of_le_length (by omega),
      List.drop_append_of_le_length (by omega), List.take_append_of_le_length hdrop,
      List.take_append_of_le_length hdrop]

/-- A task with seven commas in its name writes the row of its choice. -/
theorem header_commas_shift_columns_forged :
    columns (awkPrint ("a,1,99,5,4,3,2,-9 [000] d..2. 12.5: task_dead_hvf: ".toList
        ++ (EntityInfo.mk 9 100 80 60 20 0).print))
      = ["1".toList, "99".toList, "5".toList, "4".toList, "3".toList, "2".toList] :=
  (header_commas_shift_columns _ _).2.2 (by decide)

/-! ## The log of a run -/

/-- What the rest of the kernel contributes to the trace: the header of a line,
and lines of its own. -/
structure Tracer where
  header : Sys → Text
  others : Sys → Act → List Text
  /-- no task has a comma in its name -/
  header_comma : ∀ s, ',' ∉ header s
  /-- nobody else prints the marker -/
  others_marker : ∀ s a, ∀ l ∈ others s a, ¬ marker <:+: l

/-- What `register_entity_info` reports in a step. -/
def reported (E : Env) (s : Sys) : Act → Option EntityInfo
  | .finishTaskSwitch c =>
    match (s.rq c).deadPrev with
    | some (.task n) => deathReport E s c n
    | _ => none
  | _ => none

/-- The trace so far, and the reports that went into it. -/
structure Traced where
  lines : List Text
  reports : List EntityInfo

def Tracer.note (T : Tracer) (E : Env) (s : Sys) (a : Act) (_ : Sys) (x : Traced) : Traced where
  lines := x.lines ++ T.others s a ++ (reported E s a).toList.map fun r => T.header s ++ r.print
  reports := x.reports ++ (reported E s a).toList

/-- A report is made at a burial. -/
theorem reported_eq_some {r : EntityInfo} (h : reported E s a = some r) :
    ∃ c, a = .finishTaskSwitch c ∧ (s.rq c).deadPrev = some (.task r.pid) := by
  cases a with
  | finishTaskSwitch c =>
    unfold reported at h
    dsimp only at h
    split at h
    next n hdead =>
      obtain ⟨-, hr⟩ := Option.ite_none_right_eq_some.mp h
      refine ⟨c, rfl, ?_⟩
      rw [← Option.some.inj hr]
      exact hdead
    next => cases h
  | _ => cases h

/-- The rows `copy_to_csv.sh` makes of a trace. -/
def csvRows (trace : List Text) : List Text := (grepMarker trace).map awkPrint

theorem csvRows_append (l₁ l₂ : List Text) : csvRows (l₁ ++ l₂) = csvRows l₁ ++ csvRows l₂ := by
  rw [csvRows, grepMarker, List.filter_append, List.map_append]
  rfl

theorem csvRows_others {l : List Text} (h : ∀ x ∈ l, ¬ marker <:+: x) : csvRows l = [] := by
  have hnone : grepMarker l = [] := by
    refine List.filter_eq_nil_iff.mpr fun x hx => ?_
    rw [decide_eq_true_eq]
    exact h x hx
  rw [csvRows, hnone]
  rfl

theorem csvRows_reports {header : Text} (hcomma : ',' ∉ header) (rs : List EntityInfo) :
    csvRows (rs.map fun r => header ++ r.print) = rs.map EntityInfo.row := by
  have hgrep : grepMarker (rs.map fun r => header ++ r.print) = rs.map fun r => header ++ r.print := by
    refine List.filter_eq_self.mpr fun x hx => ?_
    obtain ⟨r, -, rfl⟩ := List.mem_map.mp hx
    refine decide_eq_true ⟨header, ',' :: r.row, ?_⟩
    rw [r.print_eq, List.append_assoc]
  rw [csvRows, hgrep, List.map_map]
  exact List.map_congr_left fun r _ => awkPrint_line hcomma r

theorem Tracer.csvRows_note (T : Tracer) (E : Env) (s : Sys) (a : Act) (s' : Sys) {x : Traced}
    (h : csvRows x.lines = x.reports.map EntityInfo.row) :
    csvRows (T.note E s a s' x).lines = (T.note E s a s' x).reports.map EntityInfo.row := by
  show csvRows (x.lines ++ T.others s a ++ _) = (x.reports ++ _).map EntityInfo.row
  rw [csvRows_append, csvRows_append, h, csvRows_others (T.others_marker s a), List.append_nil,
    csvRows_reports (T.header_comma s), List.map_append]

/-- No task is reported twice, and those that were stay buried. -/
structure Logged (s : Sys) (rs : List EntityInfo) : Prop where
  nodup : (rs.map EntityInfo.pid).Nodup
  buried : ∀ r ∈ rs, Buried s (.task r.pid)

theorem Logged.step {rs : List EntityInfo} (h : Logged s rs) (hb : Base s) (hw : Awaiting s)
    (hstep : step E s a = some s') : Logged s' (rs ++ (reported E s a).toList) := by
  have hold : ∀ r ∈ rs, Buried s' (.task r.pid) := fun r hr => (h.buried r hr).step hb hstep
  cases hr : reported E s a with
  | none =>
    rw [Option.toList_none, List.append_nil]
    exact ⟨h.nodup, hold⟩
  | some r =>
    obtain ⟨c, rfl, hdead⟩ := reported_eq_some hr
    have hfresh : ∀ r' ∈ rs, r'.pid ≠ r.pid := by
      intro r' hr' e
      refine (h.buried r' hr').not_waiting c ?_
      rw [e]
      exact hdead
    rw [Option.toList_some]
    refine ⟨?_, ?_⟩
    · rw [List.map_append, List.map_singleton, List.nodup_append]
      refine ⟨h.nodup, List.nodup_singleton _, ?_⟩
      intro n hn m hm
      obtain ⟨r', hr', rfl⟩ := List.mem_map.mp hn
      rw [List.mem_singleton.mp hm]
      exact hfresh r' hr'
    · intro r' hr'
      rcases List.mem_append.mp hr' with hr' | hr'
      · exact hold r' hr'
      · rw [List.mem_singleton.mp hr']
        exact buried_of_finish hb hw hdead hstep

/-- In every run with flags kept and clean exits, and whatever else is printed in
between: the rows of the file are the reports, in the order of the burials, and
no task is in it twice. No other reports give the same file. -/
theorem log_lists_each_ended_task_once (E : Env) (T : Tracer) (s : Sys) (x : Traced)
    (h : Observed (fun s => s = boot) (step E) exitsClean (T.note E) ⟨[], []⟩ (s, x)) :
    copyToCsv x.lines = csvColumns :: x.reports.map EntityInfo.row ∧
      (x.reports.map EntityInfo.pid).Nodup ∧
      ∀ rs : List EntityInfo,
        copyToCsv x.lines = csvColumns :: rs.map EntityInfo.row → rs = x.reports := by
  have hinv : csvRows x.lines = x.reports.map EntityInfo.row ∧
      Base s ∧ Awaiting s ∧ Logged s x.reports := by
    refine Reach.invariant (fun y : Sys × Traced =>
      csvRows y.2.lines = y.2.reports.map EntityInfo.row ∧
        Base y.1 ∧ Awaiting y.1 ∧ Logged y.1 y.2.reports) ?_ ?_ h
    · rintro ⟨s, x⟩ ⟨hs, hx⟩
      have hs : s = boot := hs
      have hx : x = ⟨[], []⟩ := hx
      subst hs hx
      have hnone : Logged boot [] := ⟨List.nodup_nil, fun r hr => nomatch hr⟩
      exact ⟨rfl, boot_base, boot_awaiting, hnone⟩
    · rintro ⟨s, x⟩ a ⟨s', x'⟩ ⟨hcsv, hb, hw, hlog⟩ hok hstep
      obtain ⟨hstep, hx⟩ := observed_eq_some hstep
      have hx : x' = T.note E s a s' x := hx
      subst hx
      exact ⟨T.csvRows_note E s a s' hcsv, step_base hb hok.1 hstep, step_awaiting hb hw hok hstep,
        hlog.step hb hw hstep⟩
  have hfile : copyToCsv x.lines = csvColumns :: x.reports.map EntityInfo.row :=
    congrArg (List.cons csvColumns) hinv.1
  refine ⟨hfile, hinv.2.2.2.nodup, ?_⟩
  intro rs hrs
  rw [hfile, List.cons_inj_right] at hrs
  exact (EntityInfo.row_injective.list_map hrs).symm

/-- The header of a line, and a line of the file that is not one of the scheduler. -/
def sampleTracer : Tracer where
  header _ := "kworker/0:1-9 [000] d..2. 12.5: task_dead_hvf: ".toList
  others _ _ := ["# tracer: nop, entries 2".toList]
  header_comma _ := by decide
  others_marker _ _ l hl := by
    rw [List.mem_singleton.mp hl]
    decide

/-- Two tasks of the class end on two CPUs, and are buried the other way round. -/
theorem log_lists_each_ended_task_once_both :
    ∃ s x, Observed (fun s => s = boot) (step sampleEnv) exitsClean (sampleTracer.note sampleEnv)
        ⟨[], []⟩ (s, x) ∧
      x.reports.map EntityInfo.pid = [1, 0] ∧
      copyToCsv x.lines = csvColumns :: x.reports.map EntityInfo.row := by
  have hrun : ∃ y, Observed (fun s => s = boot) (step sampleEnv) exitsClean
      (sampleTracer.note sampleEnv) ⟨[], []⟩ y ∧ y.2.reports.map EntityInfo.pid = [1, 0] := by
    refine Observed.of_check (fun y : Sys × Traced => y.2.reports.map EntityInfo.pid)
      (l := startFirst ++ [.fork 0, .wakeNew 0 (.task 1) 1,
        .setscheduler permissive (.task 0) (plainAttr 8) true true,
        .setscheduler permissive (.task 1) (plainAttr 8) true true,
        .schedule 1 .smNone ⟨false, false⟩ pickNone, .doTaskDead 0 pickNone,
        .doTaskDead 1 pickNone, .finishTaskSwitch 1, .finishTaskSwitch 0]) rfl ?_
    decide +kernel
  obtain ⟨⟨s, x⟩, h, hpids⟩ := hrun
  exact ⟨s, x, h, hpids, (log_lists_each_ended_task_once sampleEnv sampleTracer s x h).1⟩

end HvfSched
