import SlurmWeb.Analytics.Aggregate
import SlurmWeb.Lib.Gather
import SlurmWeb.Lib.Lists
import SlurmWeb.Lib.WeightedMean

/-!
# Rollups of daily rows (slurmweb/persistence/user_analytics_store.py)

The daily rows of a user are merged by tool, and the tools again into totals.

| here | there |
| --- | --- |
| `mergeDailyRow` | `_merge_daily_row` (:257) |
| `buildAnalysisResponse` | `_build_analysis_response` (:286) |
| `aggregateDailyStatRows` | `_aggregate_daily_stat_rows` (:386) |

Figures are exact. The rollup of a tool keeps a weight for each of its means, but the totals weigh all of them
by the jobs of the tool; the rollups of daily rows keep no `memory_values`.

* `summary_mean` — the means of the totals, tool by tool.
* `totals_flat_iff` — when the tools do not matter to the totals, however the rows are labelled.
* `totals_level_iff` — when the totals of rows with their tools are the flat means.
-/

namespace SlurmWeb.Analytics

open Strings Py Gather WeightedMean

/-- The figures of a daily row, or of a tool. -/
structure Figures where
  jobsCount : Int
  avgMemoryGb : Option ℚ
  maxMemoryGb : Option ℚ
  medianMemoryGb : Option ℚ
  avgCpuCores : Option ℚ
  avgRuntimeSeconds : Option ℚ
deriving DecidableEq

/-- A daily row, given as a mapping or as seven columns (:389). -/
structure StatRow where
  tool : Str
  figures : Figures

structure Rollup where
  jobs : Int
  memory : Mean ℚ
  maxMemoryGb : Option ℚ
  median : Mean ℚ
  cpu : Mean ℚ
  runtime : Mean ℚ

/-- `_empty_rollup` (:212) -/
def emptyRollup : Rollup := ⟨0, 0, none, 0, 0, 0⟩

/-- A value counts when it is positive (:263). -/
def mergeMean (mean : Mean ℚ) (jobs : Int) (value : Option ℚ) : Mean ℚ :=
  mean + Mean.of jobs (positiveNumericValue value)

def mergeMax (current value : Option ℚ) : Option ℚ :=
  match positiveNumericValue value, current with
  | none, _ => current
  | some value, none => some value
  | some value, some current => some (max current value)

/-- `_merge_daily_row` (:257) -/
def mergeDailyRow (rollup : Rollup) (row : Figures) : Rollup :=
  if row.jobsCount ≤ 0 then rollup else {
    jobs := rollup.jobs + row.jobsCount
    memory := mergeMean rollup.memory row.jobsCount row.avgMemoryGb
    maxMemoryGb := mergeMax rollup.maxMemoryGb row.maxMemoryGb
    median := mergeMean rollup.median row.jobsCount row.medianMemoryGb
    cpu := mergeMean rollup.cpu row.jobsCount row.avgCpuCores
    runtime := mergeMean rollup.runtime row.jobsCount row.avgRuntimeSeconds }

structure ToolItem where
  tool : Str
  jobs : Int
  avgMemoryGb : Option ℚ
  avgMaxMemoryGb : Option ℚ
  avgMaxMemoryMb : Option ℚ
  maxMemoryGb : Option ℚ
  medianMemoryGb : Option ℚ
  avgCpuCores : Option ℚ
  avgRuntimeHours : Option ℚ
  avgRuntimeSeconds : Option ℚ

structure Totals where
  completedJobs : Int
  activeTools : Nat
  avgMemoryGb : Option ℚ
  avgMaxMemoryGb : Option ℚ
  avgMaxMemoryMb : Option ℚ
  maxMemoryGb : Option ℚ
  medianMemoryGb : Option ℚ
  avgCpuCores : Option ℚ
  avgRuntimeHours : Option ℚ
  avgRuntimeSeconds : Option ℚ
  busiestTool : Option Str
  busiestToolJobs : Int

/-- `_memory_mb` (:173) -/
def memoryMb (valueGb : Option ℚ) : Option ℚ := valueGb.map (· * 1024)

/-- `_runtime_hours` (:179) -/
def runtimeHours (valueSeconds : Option ℚ) : Option ℚ := valueSeconds.map (· / 3600)

/-- An item of `tool_breakdown` (:306). -/
def Rollup.item (tool : Str) (values : Rollup) : ToolItem where
  tool := tool
  jobs := values.jobs
  avgMemoryGb := values.memory.avg
  avgMaxMemoryGb := values.memory.avg
  avgMaxMemoryMb := memoryMb values.memory.avg
  maxMemoryGb := values.maxMemoryGb
  medianMemoryGb := values.median.avg
  avgCpuCores := values.cpu.avg
  avgRuntimeHours := runtimeHours values.runtime.avg
  avgRuntimeSeconds := values.runtime.avg

/-- What is merged of a tool (:321). -/
def ToolItem.figures (item : ToolItem) : Figures where
  jobsCount := item.jobs
  avgMemoryGb := item.avgMemoryGb
  maxMemoryGb := item.maxMemoryGb
  medianMemoryGb := item.medianMemoryGb
  avgCpuCores := item.avgCpuCores
  avgRuntimeSeconds := item.avgRuntimeSeconds

/-- `(-item["jobs"], item["tool"])` -/
def ToolItem.before (a b : ToolItem) : Prop := b.jobs < a.jobs ∨ a.jobs = b.jobs ∧ a.tool ≤ b.tool

instance (a b : ToolItem) : Decidable (a.before b) := inferInstanceAs (Decidable (_ ∨ _))

/-- The items of the tools that have jobs (:289). -/
def breakdown (toolRollups : Dict Str Rollup) : List ToolItem :=
  (toolRollups.entries.filter fun entry => ¬(entry.2.jobs ≤ 0 ∧ entry.2.memory.weight ≤ 0)).map fun entry =>
    entry.2.item entry.1

def summaryOf (items : List ToolItem) : Rollup := (items.map ToolItem.figures).foldl mergeDailyRow emptyRollup

/-- `_build_analysis_response` (:286) -/
def buildAnalysisResponse (toolRollups : Dict Str Rollup) : Totals × List ToolItem :=
  let summary := summaryOf (breakdown toolRollups)
  let toolBreakdown := (breakdown toolRollups).insertionSort ToolItem.before
  ({ completedJobs := summary.jobs
     activeTools := toolBreakdown.length
     avgMemoryGb := summary.memory.avg
     avgMaxMemoryGb := summary.memory.avg
     avgMaxMemoryMb := memoryMb summary.memory.avg
     maxMemoryGb := summary.maxMemoryGb
     medianMemoryGb := summary.median.avg
     avgCpuCores := summary.cpu.avg
     avgRuntimeHours := runtimeHours summary.runtime.avg
     avgRuntimeSeconds := summary.runtime.avg
     busiestTool := toolBreakdown.head?.map ToolItem.tool
     busiestToolJobs := (toolBreakdown.head?.map ToolItem.jobs).getD 0 }, toolBreakdown)

def rowTool (row : StatRow) : Option Str := some row.tool

def mergeRow (rollup : Rollup) (row : StatRow) : Rollup := mergeDailyRow rollup row.figures

/-- `_aggregate_daily_stat_rows` (:386) -/
def aggregateDailyStatRows (rows : List StatRow) : Totals × List ToolItem :=
  buildAnalysisResponse (gather rowTool emptyRollup mergeRow ∅ rows)

/-! ## Merging -/

inductive Metric
  | memory
  | median
  | cpu
  | runtime
deriving DecidableEq

def Figures.value (figures : Figures) : Metric → Option ℚ
  | .memory => figures.avgMemoryGb
  | .median => figures.medianMemoryGb
  | .cpu => figures.avgCpuCores
  | .runtime => figures.avgRuntimeSeconds

def Rollup.mean (rollup : Rollup) : Metric → Mean ℚ
  | .memory => rollup.memory
  | .median => rollup.median
  | .cpu => rollup.cpu
  | .runtime => rollup.runtime

/-- The positive values of a figure, with the jobs they are weighted by. -/
def weighted (metric : Metric) (rows : List Figures) : List (Int × Option ℚ) :=
  rows.map fun row => (row.jobsCount, positiveNumericValue (row.value metric))

/-- The mean over the rows where the figure is positive. -/
def flatMean (metric : Metric) (rows : List Figures) : Mean ℚ := Mean.ofList (weighted metric rows)

def maxima (rows : List Figures) : List ℚ := rows.filterMap fun row => positiveNumericValue row.maxMemoryGb

def HaveJobs (rows : List Figures) : Prop := ∀ row ∈ rows, 0 < row.jobsCount

theorem positiveNumericValue_eq (value : Option ℚ) :
    positiveNumericValue value = value.filter fun x => decide (0 < x) := by
  refine congrArg value.filter (funext fun x => ?_)
  have hle : decide (x ≤ 0) = !decide (0 < x) := by rw [← decide_not, decide_eq_decide, not_lt]
  simpa [Python.intOfFloat, Python.le, Python.literal, Except.isOk, Except.toBool] using congrArg (! ·) hle

theorem positiveNumericValue_eq_some {value : Option ℚ} {x : ℚ} : positiveNumericValue value = some x ↔
    value = some x ∧ 0 < x := by
  rw [positiveNumericValue_eq]
  cases value with
  | none => simp
  | some y =>
    rw [Option.filter_some]
    split <;> simp_all <;> grind

theorem pos_of_mem_weighted {metric : Metric} {rows : List Figures} : ∀ p ∈ weighted metric rows,
    ∀ value ∈ p.2, 0 < value := by
  intro p hp value hvalue
  obtain ⟨row, -, rfl⟩ := List.mem_map.1 hp
  exact (positiveNumericValue_eq_some.1 hvalue).2

theorem jobs_of_mem_weighted {metric : Metric} {rows : List Figures} (h : HaveJobs rows) :
    ∀ p ∈ weighted metric rows, 0 < p.1 := by
  intro p hp
  obtain ⟨row, hrow, rfl⟩ := List.mem_map.1 hp
  exact h row hrow

theorem mergeDailyRow_mean {row : Figures} (h : 0 < row.jobsCount) (rollup : Rollup) (metric : Metric) :
    (mergeDailyRow rollup row).mean metric = rollup.mean metric + Mean.of row.jobsCount
      (positiveNumericValue (row.value metric)) := by
  rw [mergeDailyRow, if_neg (not_le.2 h)]
  cases metric <;> rfl

theorem foldl_merge_mean {rows : List Figures} (h : HaveJobs rows) (rollup : Rollup) (metric : Metric) :
    (rows.foldl mergeDailyRow rollup).mean metric = rollup.mean metric + flatMean metric rows := by
  induction rows generalizing rollup with
  | nil => exact (add_zero _).symm
  | cons row rows ih =>
    rw [List.foldl_cons, ih fun r hr => h r (List.mem_cons_of_mem _ hr),
      mergeDailyRow_mean (h row List.mem_cons_self), add_assoc]
    rfl

theorem foldl_merge_jobs {rows : List Figures} (h : HaveJobs rows) (rollup : Rollup) :
    (rows.foldl mergeDailyRow rollup).jobs = rollup.jobs + (rows.map Figures.jobsCount).sum := by
  induction rows generalizing rollup with
  | nil => exact (add_zero _).symm
  | cons row rows ih =>
    rw [List.foldl_cons, ih fun r hr => h r (List.mem_cons_of_mem _ hr), mergeDailyRow,
      if_neg (not_le.2 (h row List.mem_cons_self)), List.map_cons, List.sum_cons, add_assoc]

theorem mergeMax_eq (current value : Option ℚ) :
    mergeMax current value = (current.toList ++ (positiveNumericValue value).toList).max? := by
  unfold mergeMax
  cases positiveNumericValue value <;> cases current <;> simp

theorem foldl_merge_max {rows : List Figures} (h : HaveJobs rows) (rollup : Rollup) :
    (rows.foldl mergeDailyRow rollup).maxMemoryGb = (rollup.maxMemoryGb.toList ++ maxima rows).max? := by
  induction rows generalizing rollup with
  | nil => cases hmax : rollup.maxMemoryGb <;> simp [maxima, hmax]
  | cons row rows ih =>
    rw [List.foldl_cons, ih fun r hr => h r (List.mem_cons_of_mem _ hr), mergeDailyRow,
      if_neg (not_le.2 (h row List.mem_cons_self))]
    dsimp only
    rw [mergeMax_eq, List.max?_append_max?, List.append_assoc]
    cases hvalue : positiveNumericValue row.maxMemoryGb <;> simp [maxima, hvalue]

/-! ## Tools -/

/-- The figures of the rows of a tool. -/
def ofTool (tool : Str) (rows : List StatRow) : List Figures := (ofKey rowTool tool rows).map StatRow.figures

def rollupOf (rows : List Figures) : Rollup := rows.foldl mergeDailyRow emptyRollup

theorem rollupOf_mean {rows : List Figures} (h : HaveJobs rows) (metric : Metric) :
    (rollupOf rows).mean metric = flatMean metric rows := by
  rw [rollupOf, foldl_merge_mean h]
  cases metric <;> exact zero_add _

theorem rollupOf_jobs {rows : List Figures} (h : HaveJobs rows) :
    (rollupOf rows).jobs = (rows.map Figures.jobsCount).sum := by
  rw [rollupOf, foldl_merge_jobs h]
  exact zero_add _

theorem rollupOf_max {rows : List Figures} (h : HaveJobs rows) : (rollupOf rows).maxMemoryGb = (maxima rows).max? := by
  rw [rollupOf, foldl_merge_max h]
  rfl

/-- What the totals are made of. -/
def toolFigures (rows : List StatRow) (tool : Str) : Figures := ((rollupOf (ofTool tool rows)).item tool).figures

variable {rows : List StatRow} {tools : List Str}

theorem ofTool_haveJobs (h : HaveJobs (rows.map StatRow.figures)) (tool : Str) : HaveJobs (ofTool tool rows) := by
  intro figures hfigures
  obtain ⟨row, hrow, rfl⟩ := List.mem_map.1 hfigures
  exact h _ (List.mem_map_of_mem (List.mem_of_mem_filter hrow))

theorem toolFigures_value (h : HaveJobs (rows.map StatRow.figures)) (tool : Str) (metric : Metric) :
    (toolFigures rows tool).value metric = (flatMean metric (ofTool tool rows)).avg := by
  rw [← rollupOf_mean (ofTool_haveJobs h tool)]
  cases metric <;> rfl

theorem toolFigures_jobs (h : HaveJobs (rows.map StatRow.figures)) (tool : Str) :
    (toolFigures rows tool).jobsCount = ((ofTool tool rows).map Figures.jobsCount).sum :=
      rollupOf_jobs (ofTool_haveJobs h tool)

theorem toolFigures_max (h : HaveJobs (rows.map StatRow.figures)) (tool : Str) :
    (toolFigures rows tool).maxMemoryGb = (maxima (ofTool tool rows)).max? := rollupOf_max (ofTool_haveJobs h tool)

/-- The tools of the rows, each once. -/
structure ToolsOf (tools : List Str) (rows : List StatRow) : Prop where
  nodup : tools.Nodup
  mem_iff : ∀ tool, tool ∈ tools ↔ ∃ row ∈ rows, row.tool = tool

theorem sum_jobs_pos {figures : List Figures} (h : HaveJobs figures) (hne : figures ≠ []) :
    0 < (figures.map Figures.jobsCount).sum := by
  refine List.sum_pos _ ?_ (by simpa using hne)
  intro jobs hjobs
  obtain ⟨row, hrow, rfl⟩ := List.mem_map.1 hjobs
  exact h row hrow

theorem ofTool_ne_nil {tool : Str} (h : ∃ row ∈ rows, row.tool = tool) : ofTool tool rows ≠ [] := by
  rw [ofTool, Ne, List.map_eq_nil_iff]
  refine ofKey_ne_nil.2 ?_
  obtain ⟨row, hrow, rfl⟩ := h
  exact ⟨row, hrow, rfl⟩

theorem toolFigures_haveJobs (h : HaveJobs (rows.map StatRow.figures)) (htools : ToolsOf tools rows) :
    HaveJobs (tools.map (toolFigures rows)) := by
  intro figures hfigures
  obtain ⟨tool, htool, rfl⟩ := List.mem_map.1 hfigures
  rw [toolFigures_jobs h]
  exact sum_jobs_pos (ofTool_haveJobs h tool) (ofTool_ne_nil ((htools.mem_iff tool).1 htool))

/-- **The items are those of the tools.** -/
theorem breakdown_perm (h : HaveJobs (rows.map StatRow.figures)) (htools : ToolsOf tools rows) :
    (breakdown (gather rowTool emptyRollup mergeRow ∅ rows)).Perm (tools.map fun tool =>
      (rollupOf (ofTool tool rows)).item tool) := by
  have hfold : ∀ tool, (ofKey rowTool tool rows).foldl mergeRow emptyRollup = rollupOf (ofTool tool rows) := by
    intro tool
    rw [rollupOf, ofTool, List.foldl_map]
    rfl
  have hkeys : (gather rowTool emptyRollup mergeRow ∅ rows).keys.Perm tools := by
    refine (List.perm_ext_iff_of_nodup (gather rowTool emptyRollup mergeRow ∅ rows).nodup htools.nodup).2 fun tool => ?_
    rw [← Dict.keys]
    rw [mem_keys_gather, htools.mem_iff]
    simp [rowTool]
  have hentries := @entries_gather _ _ _ _ rowTool emptyRollup mergeRow rows
  rw [breakdown, hentries, List.filter_eq_self.2, List.map_map]
  · refine (List.Perm.map _ hkeys).trans (List.Perm.of_eq (List.map_congr_left fun tool _ => ?_))
    rw [Function.comp_apply, hfold]
  · intro entry hentry
    obtain ⟨tool, htool, rfl⟩ := List.mem_map.1 hentry
    have hpos := toolFigures_haveJobs h htools _ (List.mem_map_of_mem (hkeys.mem_iff.1 htool))
    dsimp only
    rw [hfold]
    exact decide_eq_true fun hle => absurd hpos (not_lt.2 hle.1)

/-! ## Totals -/

theorem flatMean_perm {figures figures' : List Figures} (h : figures.Perm figures') (metric : Metric) :
    flatMean metric figures = flatMean metric figures' := ((h.map _).map _).sum_eq

theorem flatMean_flatMap (f : Str → List Figures) (tools : List Str) (metric : Metric) :
    flatMean metric (tools.flatMap f) = (tools.map fun tool => flatMean metric (f tool)).sum := by
  induction tools with
  | nil => rfl
  | cons tool tools ih =>
    rw [List.flatMap_cons, List.map_cons, List.sum_cons, ← ih, flatMean, weighted, List.map_append,
      Mean.ofList, List.map_append, List.sum_append]
    rfl

theorem rows_flatMap_perm (htools : ToolsOf tools rows) :
    (tools.flatMap fun tool => ofKey rowTool tool rows).Perm rows := by
  have hall := @flatMap_ofKey_perm _ _ _ rowTool _ htools.nodup rows fun row hrow tool htool =>
    (htools.mem_iff tool).2 ⟨row, hrow, Option.some.inj htool⟩
  have hself : rows.filter (fun row => (rowTool row).isSome) = rows := List.filter_eq_self.2 fun _ _ => rfl
  rwa [hself] at hall

theorem ofTool_flatMap_perm (htools : ToolsOf tools rows) :
    (tools.flatMap fun tool => ofTool tool rows).Perm (rows.map StatRow.figures) := by
  have hmap := (rows_flatMap_perm htools).map StatRow.figures
  rw [List.map_flatMap] at hmap
  exact hmap

def summary (rows : List StatRow) : Rollup := summaryOf (breakdown (gather rowTool emptyRollup mergeRow ∅ rows))

theorem summary_eq (h : HaveJobs (rows.map StatRow.figures)) (htools : ToolsOf tools rows) : ∃ figures : List Figures,
    summary rows = rollupOf figures ∧ figures.Perm (tools.map (toolFigures rows)) ∧ HaveJobs figures := by
  have hperm := (breakdown_perm h htools).map ToolItem.figures
  rw [List.map_map] at hperm
  refine ⟨_, rfl, hperm, fun figures hfigures => ?_⟩
  exact toolFigures_haveJobs h htools figures (hperm.mem_iff.1 hfigures)

/-- **The means of the totals, tool by tool.** -/
theorem summary_mean (h : HaveJobs (rows.map StatRow.figures)) (htools : ToolsOf tools rows) (metric : Metric) :
    (summary rows).mean metric = flatMean metric (tools.map (toolFigures rows)) := by
  obtain ⟨figures, hsummary, hperm, hjobs⟩ := summary_eq h htools
  rw [hsummary, rollupOf_mean hjobs, flatMean_perm hperm]

theorem summary_jobs (h : HaveJobs (rows.map StatRow.figures)) (htools : ToolsOf tools rows) :
    (summary rows).jobs = ((rows.map StatRow.figures).map Figures.jobsCount).sum := by
  obtain ⟨figures, hsummary, hperm, hjobs⟩ := summary_eq h htools
  rw [hsummary, rollupOf_jobs hjobs, (hperm.map _).sum_eq,
    ← ((ofTool_flatMap_perm htools).map Figures.jobsCount).sum_eq,
    List.map_map, List.map_flatMap, List.flatMap_def, List.sum_flatten, List.map_map]
  refine congrArg List.sum (List.map_congr_left fun tool _ => ?_)
  exact toolFigures_jobs h tool

theorem mem_maxima {figures : List Figures} {x : ℚ} : x ∈ maxima figures ↔ ∃ row ∈ figures,
    row.maxMemoryGb = some x ∧ 0 < x := by
  rw [maxima, List.mem_filterMap]
  simp only [positiveNumericValue_eq_some]

theorem summary_max (h : HaveJobs (rows.map StatRow.figures)) (htools : ToolsOf tools rows) :
    (summary rows).maxMemoryGb = (maxima (rows.map StatRow.figures)).max? := by
  obtain ⟨figures, hsummary, hperm, hjobs⟩ := summary_eq h htools
  have hrows := ofTool_flatMap_perm htools
  rw [hsummary, rollupOf_max hjobs]
  apply List.max?_eq_of_cofinal
  · -- the maximum of a tool is that of one of its rows
    intro x hx
    obtain ⟨tool, htool, hmax, hpos⟩ := mem_maxima.1 hx
    obtain ⟨name, hname, rfl⟩ := List.mem_map.1 (hperm.mem_iff.1 htool)
    rw [toolFigures_max h] at hmax
    obtain ⟨row, hrow, hvalue⟩ := mem_maxima.1 (List.max?_mem hmax)
    exact ⟨x, mem_maxima.2 ⟨row, hrows.mem_iff.1 (List.mem_flatMap.2 ⟨name, hname, hrow⟩), hvalue⟩, le_rfl⟩
  · intro x hx
    obtain ⟨row, hrow, hvalue⟩ := mem_maxima.1 hx
    obtain ⟨name, hname, hrow⟩ := List.mem_flatMap.1 (hrows.mem_iff.2 hrow)
    obtain ⟨top, htop, hle⟩ := List.le_max? (mem_maxima.2 ⟨row, hrow, hvalue⟩)
    refine ⟨top, mem_maxima.2 ⟨toolFigures rows name, hperm.mem_iff.2 (List.mem_map_of_mem hname), ?_,
      hvalue.2.trans_le hle⟩, hle⟩
    rw [toolFigures_max h]
    exact htop

/-! ## Two means in a row -/

theorem positive_avg {figures : List Figures} (h : HaveJobs figures) (metric : Metric) :
    positiveNumericValue (flatMean metric figures).avg = (flatMean metric figures).avg := by
  have hpos : ∀ a ∈ (flatMean metric figures).avg, 0 < a := Mean.avg_pos (jobs_of_mem_weighted h) pos_of_mem_weighted
  cases havg : (flatMean metric figures).avg with
  | none => rfl
  | some a => exact positiveNumericValue_eq_some.2 ⟨rfl, hpos a havg⟩

/-- What a tool adds to a mean of the totals. -/
theorem flatMean_tools (h : HaveJobs (rows.map StatRow.figures)) (metric : Metric) (tools : List Str) :
    flatMean metric (tools.map (toolFigures rows)) =
      (tools.map fun tool => Mean.of (toolFigures rows tool).jobsCount
        (flatMean metric (ofTool tool rows)).avg).sum := by
  rw [flatMean, weighted, Mean.ofList, List.map_map, List.map_map]
  refine congrArg List.sum (List.map_congr_left fun tool _ => ?_)
  dsimp only [Function.comp_apply]
  rw [toolFigures_value h, positive_avg (ofTool_haveJobs h tool)]

/-- Every row has the figure. -/
def Full (metric : Metric) (figures : List Figures) : Prop := ∀ row ∈ figures,
  positiveNumericValue (row.value metric) ≠ none

/-- No two values of the figure differ. -/
def Constant (metric : Metric) (figures : List Figures) : Prop := ∀ row ∈ figures, ∀ row' ∈ figures,
  ∀ x ∈ positiveNumericValue (row.value metric), ∀ y ∈ positiveNumericValue (row'.value metric), x = y

theorem flatMean_of_none {figures : List Figures} {metric : Metric}
    (h : ∀ row ∈ figures, positiveNumericValue (row.value metric) = none) : flatMean metric figures = 0 := by
  refine Mean.ofList_none fun p hp => ?_
  obtain ⟨row, hrow, rfl⟩ := List.mem_map.1 hp
  exact h row hrow

theorem avg_eq_some_of_constant {figures : List Figures} (h : HaveJobs figures) {metric : Metric}
    (hconstant : Constant metric figures)
    {row : Figures} (hrow : row ∈ figures) {x : ℚ} (hx : positiveNumericValue (row.value metric) = some x) :
    (flatMean metric figures).avg = some x := by
  refine Mean.avg_of_const (fun p hp value hvalue => ?_) ((Mean.weight_pos_iff (jobs_of_mem_weighted h)).2 ?_)
  · obtain ⟨row', hrow', rfl⟩ := List.mem_map.1 hp
    exact hconstant row' hrow' row hrow value hvalue x hx
  · exact ⟨_, List.mem_map_of_mem hrow, by simp [hx]⟩

theorem mem_of_mem_ofTool {tool : Str} {figures : Figures} (h : figures ∈ ofTool tool rows) :
    figures ∈ rows.map StatRow.figures := by
  obtain ⟨row, hrow, rfl⟩ := List.mem_map.1 h
  exact List.mem_map_of_mem (List.mem_of_mem_filter hrow)

/-! ## Rows without a figure -/

/-- The rows without the figure. -/
def lacking (metric : Metric) (rows : List StatRow) : List StatRow :=
  rows.filter fun row => (positiveNumericValue (row.figures.value metric)).isNone

/-- The rows without the figure, each taken at the mean of the rows of its tool, where these have one. -/
def filled (metric : Metric) (rows : List StatRow) : Mean ℚ :=
  Mean.ofList ((lacking metric rows).map fun row =>
    (row.figures.jobsCount, (flatMean metric (ofTool row.tool rows)).avg))

theorem missing_weighted (metric : Metric) (tool : Str) (rows : List StatRow) :
    Mean.missing (weighted metric (ofTool tool rows)) =
      ((lacking metric (ofKey rowTool tool rows)).map fun row => row.figures.jobsCount).sum := by
  rw [Mean.missing, weighted, ofTool, List.map_map, List.filter_map, List.map_map]
  rfl

theorem filled_eq (htools : ToolsOf tools rows) (metric : Metric) : filled metric rows =
    (tools.map fun tool => Mean.of (Mean.missing (weighted metric (ofTool tool rows)))
      (flatMean metric (ofTool tool rows)).avg).sum := by
  have hrows := (rows_flatMap_perm htools).filter fun row => (positiveNumericValue (row.figures.value metric)).isNone
  rw [filled, Mean.ofList, List.map_map, lacking, ← (hrows.map _).sum_eq, List.filter_flatMap,
    List.map_flatMap, List.flatMap_def, List.sum_flatten, List.map_map]
  refine congrArg List.sum (List.map_congr_left fun tool _ => ?_)
  rw [Function.comp_apply, missing_weighted, ← Mean.sum_of, List.map_map]
  refine congrArg List.sum (List.map_congr_left fun row hrow => ?_)
  have hkey : rowTool row = some tool := of_decide_eq_true (List.mem_filter.1 (List.mem_of_mem_filter hrow)).2
  obtain rfl : row.tool = tool := Option.some.inj hkey
  rfl

/-- **The two steps of the totals** merge the rows with the figure, and those without it at the mean of their tool. -/
theorem flatMean_toolFigures (h : HaveJobs (rows.map StatRow.figures)) (htools : ToolsOf tools rows) (metric : Metric) :
    flatMean metric (tools.map (toolFigures rows)) =
      flatMean metric (rows.map StatRow.figures) + filled metric rows := by
  rw [flatMean_tools h, filled_eq htools, ← flatMean_perm (ofTool_flatMap_perm htools),
    flatMean_flatMap, ← List.sum_map_add]
  refine congrArg List.sum (List.map_congr_left fun tool _ => ?_)
  have hjobs : ((weighted metric (ofTool tool rows)).map Prod.fst) = (ofTool tool rows).map Figures.jobsCount := by
    rw [weighted, List.map_map]
    rfl
  rw [toolFigures_jobs h, ← hjobs]
  exact Mean.of_sum_avg (jobs_of_mem_weighted (ofTool_haveJobs h tool))

/-- Where every row has the figure, none is filled. -/
theorem filled_of_full {metric : Metric} (hfull : Full metric (rows.map StatRow.figures)) : filled metric rows = 0 := by
  have hnone : lacking metric rows = [] := List.filter_eq_nil_iff.2 fun row hrow hvalue =>
    hfull _ (List.mem_map_of_mem hrow) (Option.isNone_iff_eq_none.1 hvalue)
  rw [filled, hnone]
  rfl

theorem avg_of_full (h : HaveJobs (rows.map StatRow.figures)) (htools : ToolsOf tools rows) {metric : Metric}
    (hfull : Full metric (rows.map StatRow.figures)) :
    flatMean metric (tools.map (toolFigures rows)) = flatMean metric (rows.map StatRow.figures) := by
  rw [flatMean_toolFigures h htools, filled_of_full hfull, add_zero]

/-- The rows that are filled have no mean, or that of the rows with the figure. -/
def LevelIn (metric : Metric) (rows : List StatRow) : Prop :=
  ∀ mean ∈ (filled metric rows).avg, (flatMean metric (rows.map StatRow.figures)).avg = some mean

theorem filled_jobs (h : HaveJobs (rows.map StatRow.figures)) (metric : Metric) :
    ∀ p ∈ (lacking metric rows).map fun row =>
      (row.figures.jobsCount, (flatMean metric (ofTool row.tool rows)).avg), 0 < p.1 := by
  intro p hp
  obtain ⟨row, hrow, rfl⟩ := List.mem_map.1 hp
  exact h _ (List.mem_map_of_mem (List.mem_of_mem_filter hrow))

theorem avg_iff_level (h : HaveJobs (rows.map StatRow.figures)) (htools : ToolsOf tools rows) (metric : Metric) :
    (flatMean metric (tools.map (toolFigures rows))).avg = (flatMean metric (rows.map StatRow.figures)).avg ↔
      LevelIn metric rows := by
  rw [flatMean_toolFigures h htools, LevelIn]
  by_cases hfilled : 0 < (filled metric rows).weight
  · -- a tool that fills a row has the figure in another
    have hweight : 0 < (flatMean metric (rows.map StatRow.figures)).weight := by
      obtain ⟨p, hp, hvalue⟩ := (Mean.weight_pos_iff (filled_jobs h metric)).1 hfilled
      obtain ⟨row, -, rfl⟩ := List.mem_map.1 hp
      obtain ⟨figures, hfigures, hsome⟩ : ∃ figures ∈ ofTool row.tool rows,
          positiveNumericValue (figures.value metric) ≠ none := by
        by_contra hnone
        push Not at hnone
        rw [flatMean_of_none hnone] at hvalue
        exact hvalue rfl
      exact (Mean.weight_pos_iff (jobs_of_mem_weighted h)).2
        ⟨_, List.mem_map_of_mem (mem_of_mem_ofTool hfigures), hsome⟩
    rw [Mean.avg_add_iff hweight hfilled, Mean.avg_of_pos hfilled]
    simp
  · have hnone : filled metric rows = 0 := Mean.ofList_none fun p hp => by
      by_contra hvalue
      exact hfilled ((Mean.weight_pos_iff (filled_jobs h metric)).2 ⟨p, hp, hvalue⟩)
    rw [hnone, add_zero]
    exact iff_of_true rfl nofun

theorem avg_of_constant (h : HaveJobs (rows.map StatRow.figures)) (htools : ToolsOf tools rows) {metric : Metric}
    (hconstant : Constant metric (rows.map StatRow.figures)) :
    (flatMean metric (tools.map (toolFigures rows))).avg = (flatMean metric (rows.map StatRow.figures)).avg := by
  refine (avg_iff_level h htools metric).2 fun mean hmean => ?_
  -- the values that are filled in are those of rows with the figure, which are all one
  have hvalues : ∀ tool, ∀ x ∈ (flatMean metric (ofTool tool rows)).avg,
      (flatMean metric (rows.map StatRow.figures)).avg = some x := by
    intro tool x hx
    by_cases hnone : ∀ row ∈ ofTool tool rows, positiveNumericValue (row.value metric) = none
    · rw [flatMean_of_none hnone] at hx
      cases hx
    · push Not at hnone
      obtain ⟨figures, hfigures, hvalue⟩ := hnone
      obtain ⟨y, hy⟩ := Option.ne_none_iff_exists'.1 hvalue
      have htool : Constant metric (ofTool tool rows) := fun row hrow row' hrow' =>
        hconstant row (mem_of_mem_ofTool hrow) row' (mem_of_mem_ofTool hrow')
      rw [avg_eq_some_of_constant (ofTool_haveJobs h tool) htool hfigures hy, Option.mem_some_iff] at hx
      rw [← hx]
      exact avg_eq_some_of_constant h hconstant (mem_of_mem_ofTool hfigures) hy
  have hpos : 0 < (filled metric rows).weight := by
    by_contra hneg
    rw [Mean.avg, if_pos (not_lt.1 hneg)] at hmean
    cases hmean
  obtain ⟨p, hp, hvalue⟩ := (Mean.weight_pos_iff (filled_jobs h metric)).1 hpos
  obtain ⟨row, -, rfl⟩ := List.mem_map.1 hp
  obtain ⟨x, hx⟩ := Option.ne_none_iff_exists'.1 hvalue
  have hflat := hvalues row.tool x hx
  have hsame : (filled metric rows).avg = some x := by
    refine Mean.avg_of_const (fun q hq y hy => ?_) hpos
    obtain ⟨row', -, rfl⟩ := List.mem_map.1 hq
    exact Option.some.inj ((hvalues row'.tool y hy).symm.trans hflat)
  rw [hflat, ← hsame]
  exact hmean

/-! ## Labels -/

/-- Distinct names. -/
def toolLabel (n : Nat) : Str := List.replicate n 'a'

theorem toolLabel_inj {m n : Nat} (h : toolLabel m = toolLabel n) : m = n := by
  simpa [toolLabel] using congrArg List.length h

/-- A tool of its own for each row. -/
def label : Nat → List Figures → List StatRow
  | _, [] => []
  | n, figures :: rest => ⟨toolLabel n, figures⟩ :: label (n + 1) rest

@[simp] theorem label_figures : ∀ (n : Nat) (figures : List Figures), (label n figures).map StatRow.figures = figures
  | _, [] => rfl
  | n, figures :: rest => congrArg (figures :: ·) (label_figures (n + 1) rest)

theorem mem_label_tools : ∀ {n : Nat} {figures : List Figures} {tool : Str}, tool ∈ (label n figures).map StatRow.tool →
    ∃ m, n ≤ m ∧ tool = toolLabel m
  | n, figures :: rest, tool, h => by
    rcases List.mem_cons.1 h with rfl | h
    · exact ⟨n, le_rfl, rfl⟩
    · obtain ⟨m, hm, htool⟩ := mem_label_tools h
      exact ⟨m, by omega, htool⟩

theorem not_mem_label_tools {m n : Nat} (h : m < n) (figures : List Figures) :
    toolLabel m ∉ (label n figures).map StatRow.tool := by
  intro hmem
  obtain ⟨k, hk, hlabel⟩ := mem_label_tools hmem
  have := toolLabel_inj hlabel
  omega

theorem label_nodup : ∀ (n : Nat) (figures : List Figures), ((label n figures).map StatRow.tool).Nodup
  | _, [] => List.nodup_nil
  | n, _ :: rest => List.nodup_cons.2 ⟨not_mem_label_tools (Nat.lt_succ_self n) rest, label_nodup (n + 1) rest⟩

theorem ofTool_cons (tool : Str) (row : StatRow) (rows : List StatRow) :
    ofTool tool (row :: rows) = if row.tool = tool then row.figures :: ofTool tool rows else ofTool tool rows := by
  rw [ofTool, ofKey_cons]
  by_cases h : row.tool = tool
  · have hkey : rowTool row = some tool := congrArg some h
    rw [if_pos h, if_pos hkey]
    rfl
  · have hkey : ¬rowTool row = some tool := fun hsame => h (Option.some.inj hsame)
    rw [if_neg h, if_neg hkey]
    rfl

theorem ofTool_of_not_mem {tool : Str} (h : tool ∉ rows.map StatRow.tool) : ofTool tool rows = [] := by
  rw [ofTool, List.map_eq_nil_iff, ofKey, List.filter_eq_nil_iff]
  intro row hrow hkey
  rw [rowTool, decide_eq_true_eq, Option.some_inj] at hkey
  exact h (hkey ▸ List.mem_map_of_mem hrow)

/-- Rows that each have a tool of their own are the tools. -/
theorem map_ofTool_of_nodup {A : Type} (F : List Figures → A) {rows : List StatRow}
    (h : (rows.map StatRow.tool).Nodup) :
    (rows.map StatRow.tool).map (fun tool => F (ofTool tool rows)) = rows.map fun row => F [row.figures] := by
  induction rows with
  | nil => rfl
  | cons row rows ih =>
    obtain ⟨hrow, hrows⟩ := List.nodup_cons.1 h
    rw [List.map_cons, List.map_cons, List.map_cons, ofTool_cons, if_pos rfl, ofTool_of_not_mem hrow, ← ih hrows]
    refine congrArg (F [row.figures] :: ·) (List.map_congr_left fun tool htool => ?_)
    rw [ofTool_cons, if_neg]
    rintro rfl
    exact hrow htool

/-- What the rows of a tool add to a mean of the totals. -/
def merged (metric : Metric) (figures : List Figures) : Mean ℚ :=
  Mean.of (figures.map Figures.jobsCount).sum (flatMean metric figures).avg

theorem flatMean_tools_merged (h : HaveJobs (rows.map StatRow.figures)) (metric : Metric) (tools : List Str) :
    flatMean metric (tools.map (toolFigures rows)) = (tools.map fun tool => merged metric (ofTool tool rows)).sum := by
  rw [flatMean_tools h]
  refine congrArg List.sum (List.map_congr_left fun tool _ => ?_)
  rw [toolFigures_jobs h, merged]

theorem flatMean_singleton (metric : Metric) (figures : Figures) :
    flatMean metric [figures] = Mean.of figures.jobsCount (positiveNumericValue (figures.value metric)) := add_zero _

theorem merged_singleton {figures : Figures} (h : 0 < figures.jobsCount) (metric : Metric) :
    merged metric [figures] = flatMean metric [figures] := by
  rw [merged, List.map_singleton, List.sum_singleton, flatMean_singleton]
  cases positiveNumericValue (figures.value metric) with
  | none => rfl
  | some x => exact Mean.of_avg (m := Mean.of figures.jobsCount (some x)) h

theorem flatMean_cons (metric : Metric) (row : Figures) (rest : List Figures) :
    flatMean metric (row :: rest) = Mean.of row.jobsCount
      (positiveNumericValue (row.value metric)) + flatMean metric rest := rfl

theorem flatMean_labelled {n : Nat} {figures : List Figures} (h : HaveJobs figures) (metric : Metric) :
    ((label n figures).map StatRow.tool |>.map fun tool => merged metric (ofTool tool (label n figures))).sum =
      flatMean metric figures := by
  rw [map_ofTool_of_nodup _ (label_nodup n figures)]
  have hmap : ((label n figures).map fun row => merged metric [row.figures]) = figures.map fun row =>
      merged metric [row] := by
    rw [← label_figures n figures, List.map_map, label_figures]
    rfl
  rw [hmap]
  clear hmap
  induction figures with
  | nil => rfl
  | cons row rest ih =>
    rw [List.map_cons, List.sum_cons, ih fun r hr => h r (List.mem_cons_of_mem _ hr),
      merged_singleton (h row List.mem_cons_self), flatMean_singleton, flatMean_cons]

/-- Without a tool for each row: a row without the figure shares that of the row after it. -/
def sharedTool (first second : Figures) (rest : List Figures) : List StatRow :=
  ⟨toolLabel 0, first⟩ :: ⟨toolLabel 0, second⟩ :: label 1 rest

theorem sharedTool_figures (first second : Figures) (rest : List Figures) :
    (sharedTool first second rest).map StatRow.figures = first :: second :: rest := by
  rw [sharedTool, List.map_cons, List.map_cons, label_figures]

theorem sharedTool_tools (first second : Figures) (rest : List Figures) :
    ToolsOf (toolLabel 0 :: (label 1 rest).map StatRow.tool) (sharedTool first second rest) := by
  refine ⟨List.nodup_cons.2 ⟨not_mem_label_tools Nat.zero_lt_one rest, label_nodup 1 rest⟩, fun tool => ?_⟩
  simp only [sharedTool, List.mem_cons, List.mem_map]
  grind

theorem flatMean_sharedTool {first second : Figures} {rest : List Figures}
    (h : HaveJobs (first :: second :: rest)) {metric : Metric}
    (hfirst : positiveNumericValue (first.value metric) = none) {x : ℚ}
      (hsecond : positiveNumericValue (second.value metric) = some x) :
    flatMean metric ((toolLabel 0 :: (label 1 rest).map StatRow.tool).map
      (toolFigures (sharedTool first second rest))) =
      flatMean metric (first :: second :: rest) + Mean.of first.jobsCount (some x) := by
  have hrest : HaveJobs rest := fun row hrow => h row (List.mem_cons_of_mem _ (List.mem_cons_of_mem _ hrow))
  have hsecondJobs : 0 < second.jobsCount := h second (List.mem_cons_of_mem _ List.mem_cons_self)
  have hnone := ofTool_of_not_mem (not_mem_label_tools Nat.zero_lt_one rest)
  have hshared : ofTool (toolLabel 0) (sharedTool first second rest) = [first, second] := by
    rw [sharedTool, ofTool_cons, if_pos rfl, ofTool_cons, if_pos rfl, hnone]
  have hothers : ((label 1 rest).map StatRow.tool).map
      (fun tool => merged metric (ofTool tool (sharedTool first second rest))) =
      ((label 1 rest).map StatRow.tool).map fun tool => merged metric (ofTool tool (label 1 rest)) := by
    refine List.map_congr_left fun tool htool => ?_
    have hne : toolLabel 0 ≠ tool := by
      rintro rfl
      exact not_mem_label_tools Nat.zero_lt_one rest htool
    rw [sharedTool, ofTool_cons, if_neg hne, ofTool_cons, if_neg hne]
  have havg : (Mean.of second.jobsCount (some x)).avg = some x := by
    have hpos : (0 : ℚ) < second.jobsCount := Int.cast_pos.2 hsecondJobs
    rw [Mean.avg_of_pos hsecondJobs, Mean.of, mul_div_cancel_right₀ _ hpos.ne']
  have hpair : merged metric [first, second] = Mean.of (first.jobsCount + second.jobsCount) (some x) := by
    rw [merged, flatMean_cons, flatMean_singleton, hfirst, hsecond, Mean.of_none, zero_add, havg]
    simp
  rw [flatMean_tools_merged (by rw [sharedTool_figures]; exact h), List.map_cons, List.sum_cons, hshared, hothers,
    flatMean_labelled hrest, hpair, flatMean_cons, flatMean_cons, hfirst, hsecond, Mean.of_none, zero_add]
  ext
  · simp only [Mean.of, Mean.add_total]
    push_cast
    ring
  · simp only [Mean.of, Mean.add_weight]
    ring

/-! ## Rows that differ in their tools -/

theorem toolsOf_dedup (rows : List StatRow) : ToolsOf (rows.map StatRow.tool).dedup rows :=
  ⟨List.nodup_dedup _, fun tool => by rw [List.mem_dedup, List.mem_map]⟩

theorem summary_mean_perm {rows rows' : List StatRow} (hrows : rows.Perm rows')
    (h : HaveJobs (rows.map StatRow.figures)) (metric : Metric) :
    (summary rows).mean metric = (summary rows').mean metric := by
  have h' : HaveJobs (rows'.map StatRow.figures) := fun row hrow => h row ((hrows.map _).mem_iff.2 hrow)
  have htools := toolsOf_dedup rows
  have htools' : ToolsOf (rows.map StatRow.tool).dedup rows' :=
    ⟨htools.nodup, fun tool => (htools.mem_iff tool).trans (by simp only [hrows.mem_iff])⟩
  rw [summary_mean h htools, summary_mean h' htools', flatMean_tools_merged h, flatMean_tools_merged h']
  refine congrArg List.sum (List.map_congr_left fun tool _ => ?_)
  have hperm : (ofTool tool rows).Perm (ofTool tool rows') := (ofKey_perm hrows tool).map _
  rw [merged, merged, flatMean_perm hperm, (hperm.map _).sum_eq]

/-- Rows in another order have tools too. -/
theorem exists_rows_perm {rows : List StatRow} {figures : List Figures} (h : figures.Perm (rows.map StatRow.figures)) :
    ∃ rows' : List StatRow, rows'.map StatRow.figures = figures ∧ rows'.Perm rows := by
  have hsame : List.Forall₂ (fun figures row => StatRow.figures row = figures) (rows.map StatRow.figures) rows :=
    List.forall₂_map_left_iff.2 (List.forall₂_same.2 fun _ _ => rfl)
  obtain ⟨rows', hrows', hperm⟩ := List.perm_comp_forall₂ h hsame
  refine ⟨rows', ?_, hperm⟩
  clear h hsame hperm
  induction hrows' with
  | nil => rfl
  | cons hrow _ ih => rw [List.map_cons, hrow, ih]

/-- The figures that do not depend on tools. -/
structure TotalsFlat (figures : List Figures) (totals : Totals) : Prop where
  avgMemoryGb : totals.avgMemoryGb = (flatMean .memory figures).avg
  avgCpuCores : totals.avgCpuCores = (flatMean .cpu figures).avg
  avgRuntimeSeconds : totals.avgRuntimeSeconds = (flatMean .runtime figures).avg
  maxMemoryGb : totals.maxMemoryGb = (maxima figures).max?
  completedJobs : totals.completedJobs = (figures.map Figures.jobsCount).sum

structure SameTotals (a b : Totals) : Prop where
  avgMemoryGb : a.avgMemoryGb = b.avgMemoryGb
  avgCpuCores : a.avgCpuCores = b.avgCpuCores
  avgRuntimeSeconds : a.avgRuntimeSeconds = b.avgRuntimeSeconds
  maxMemoryGb : a.maxMemoryGb = b.maxMemoryGb
  completedJobs : a.completedJobs = b.completedJobs

/-- Each mean is of a figure that every row has, or of one value. -/
def Steady (figures : List Figures) : Prop := ∀ metric ∈ [Metric.memory, .cpu, .runtime], Full metric figures ∨
  Constant metric figures

theorem totalsFlat_iff {figures : List Figures} (h : HaveJobs figures) (hrows : rows.map StatRow.figures = figures) :
    TotalsFlat figures (aggregateDailyStatRows rows).1 ↔
      ∀ metric ∈ [Metric.memory, .cpu, .runtime], ((summary rows).mean metric).avg = (flatMean metric figures).avg := by
  subst hrows
  have htools := toolsOf_dedup rows
  constructor
  · intro hflat metric hmetric
    simp only [List.mem_cons, List.not_mem_nil, or_false] at hmetric
    rcases hmetric with rfl | rfl | rfl
    · exact hflat.avgMemoryGb
    · exact hflat.avgCpuCores
    · exact hflat.avgRuntimeSeconds
  · intro hmeans
    exact ⟨hmeans .memory (by simp), hmeans .cpu (by simp), hmeans .runtime (by simp), summary_max h htools,
      summary_jobs h htools⟩

theorem totalsFlat_of_steady {figures : List Figures} (h : HaveJobs figures) (hsteady : Steady figures)
    (hrows : rows.map StatRow.figures = figures) : TotalsFlat figures (aggregateDailyStatRows rows).1 := by
  refine (totalsFlat_iff h hrows).2 fun metric hmetric => ?_
  subst hrows
  have htools := toolsOf_dedup rows
  rw [summary_mean h htools]
  rcases hsteady metric hmetric with hfull | hconstant
  · rw [avg_of_full h htools hfull]
  · exact avg_of_constant h htools hconstant

/-- A tool for each row keeps the totals flat. -/
theorem totalsFlat_label {figures : List Figures} (h : HaveJobs figures) :
    TotalsFlat figures (aggregateDailyStatRows (label 0 figures)).1 := by
  have hjobs : HaveJobs ((label 0 figures).map StatRow.figures) := by rwa [label_figures]
  have htools : ToolsOf ((label 0 figures).map StatRow.tool) (label 0 figures) :=
    ⟨label_nodup 0 figures, fun tool => List.mem_map⟩
  refine (totalsFlat_iff h (label_figures 0 figures)).2 fun metric _ => ?_
  rw [summary_mean hjobs htools, flatMean_tools_merged hjobs, flatMean_labelled h]

/-- A row without the figure, under the tool of a row with the value `x`, moves the mean towards `x`. -/
theorem mean_eq_of_flat {figures : List Figures} (h : HaveJobs figures) {metric : Metric}
    (hmetric : metric ∈ [Metric.memory, .cpu, .runtime])
    (hflat : ∀ rows, rows.map StatRow.figures = figures → TotalsFlat figures (aggregateDailyStatRows rows).1)
    {first second : Figures} (hmem : first ∈ figures) (hmem' : second ∈ figures)
    (hfirst : positiveNumericValue (first.value metric) = none) {x : ℚ}
      (hsecond : positiveNumericValue (second.value metric) = some x) :
    (flatMean metric figures).avg = some x := by
  obtain ⟨rest, hrest⟩ : ∃ rest, figures.Perm (first :: second :: rest) := by
    have hne : second ≠ first := by
      rintro rfl
      rw [hfirst] at hsecond
      cases hsecond
    have hfirstPerm := List.perm_cons_erase hmem
    exact ⟨_, hfirstPerm.trans ((List.perm_cons_erase ((List.mem_erase_of_ne hne).2 hmem')).cons first)⟩
  have hjobs : HaveJobs (first :: second :: rest) := fun row hrow => h row (hrest.mem_iff.2 hrow)
  have hshared : HaveJobs ((sharedTool first second rest).map StatRow.figures) := by rwa [sharedTool_figures]
  rw [← sharedTool_figures] at hrest
  obtain ⟨rows, hrows, hperm⟩ := exists_rows_perm hrest
  have hmean := (totalsFlat_iff h hrows).1 (hflat rows hrows) metric hmetric
  rw [summary_mean_perm hperm (hrows ▸ h), summary_mean hshared (sharedTool_tools first second rest),
    flatMean_sharedTool hjobs hfirst hsecond, flatMean_perm hrest, sharedTool_figures] at hmean
  have hweight : 0 < (flatMean metric (first :: second :: rest)).weight := by
    refine (Mean.weight_pos_iff (jobs_of_mem_weighted hjobs)).2 ⟨(second.jobsCount, some x), ?_, by simp⟩
    rw [← hsecond]
    exact List.mem_map_of_mem (List.mem_cons_of_mem _ List.mem_cons_self)
  rw [flatMean_perm hrest, sharedTool_figures]
  exact (Mean.avg_add_of hweight (h first hmem)).1 hmean

theorem steady_of_flat {figures : List Figures} (h : HaveJobs figures)
    (hflat : ∀ rows, rows.map StatRow.figures = figures → TotalsFlat figures (aggregateDailyStatRows rows).1) :
      Steady figures := by
  intro metric hmetric
  by_cases hfull : Full metric figures
  · exact .inl hfull
  · simp only [Full, not_forall, not_not] at hfull
    obtain ⟨first, hmem, hfirst⟩ := hfull
    refine .inr fun row hrow row' hrow' x hx y hy => ?_
    have hmean := mean_eq_of_flat h hmetric hflat hmem hrow hfirst hx
    rw [mean_eq_of_flat h hmetric hflat hmem hrow' hfirst hy] at hmean
    exact (Option.some.inj hmean).symm

/-- **Totals that do not depend on tools:** for each mean, every row has the figure or no two values of it differ. -/
theorem totals_flat_iff (figures : List Figures) (h : HaveJobs figures) :
    ((∀ rows, rows.map StatRow.figures = figures → TotalsFlat figures (aggregateDailyStatRows rows).1) ↔
      Steady figures) ∧
    ((∀ rows rows', rows.map StatRow.figures = figures → rows'.map StatRow.figures = figures →
      SameTotals (aggregateDailyStatRows rows).1 (aggregateDailyStatRows rows').1) ↔ Steady figures) := by
  refine ⟨⟨steady_of_flat h, fun hsteady rows => totalsFlat_of_steady h hsteady⟩, fun hsame =>
    steady_of_flat h fun rows hrows => ?_,
    fun hsteady rows rows' hrows hrows' => ?_⟩
  · have hown := totalsFlat_label h
    have htotals := hsame rows (label 0 figures) hrows (label_figures 0 figures)
    exact ⟨htotals.1.trans hown.1, htotals.2.trans hown.2, htotals.3.trans hown.3, htotals.4.trans hown.4,
      htotals.5.trans hown.5⟩
  · have hflat := totalsFlat_of_steady h hsteady hrows
    have hflat' := totalsFlat_of_steady h hsteady hrows'
    exact ⟨hflat.1.trans hflat'.1.symm, hflat.2.trans hflat'.2.symm, hflat.3.trans hflat'.3.symm,
      hflat.4.trans hflat'.4.symm, hflat.5.trans hflat'.5.symm⟩

/-- A day with a job whose memory, cores and runtime are known. -/
def knownDay (memory : ℚ) : Figures := ⟨1, some memory, some memory, some memory, some 1, some 60⟩

/-- A day with a job of which nothing is known. -/
def unknownDay : Figures := ⟨1, none, none, none, none, none⟩

/-! ## Rows with their tools -/

/-- Each mean has the rows that are filled at that mean. -/
def Level (rows : List StatRow) : Prop := ∀ metric ∈ [Metric.memory, .cpu, .runtime], LevelIn metric rows

/-- No tool has a figure in some of its rows only. -/
def Unmixed (rows : List StatRow) : Prop := ∀ metric ∈ [Metric.memory, .cpu, .runtime], ∀ row ∈ rows, ∀ row' ∈ rows,
  row.tool = row'.tool →
    (positiveNumericValue (row.figures.value metric)).isSome = (positiveNumericValue (row'.figures.value metric)).isSome

instance (rows : List StatRow) : Decidable (Unmixed rows) := by
  unfold Unmixed
  infer_instance

theorem level_of_unmixed (hunmixed : Unmixed rows) : Level rows := by
  intro metric hmetric
  have hnone : filled metric rows = 0 := Mean.ofList_none fun p hp => by
    obtain ⟨row, hrow, rfl⟩ := List.mem_map.1 hp
    obtain ⟨hmem, hlacks⟩ := List.mem_filter.1 hrow
    refine congrArg Mean.avg (flatMean_of_none fun figures hfigures => ?_)
    obtain ⟨row', hrow', rfl⟩ := List.mem_map.1 hfigures
    obtain ⟨hmem', htool⟩ := List.mem_filter.1 hrow'
    have hsame := hunmixed metric hmetric row hmem row' hmem' (Option.some.inj (of_decide_eq_true htool)).symm
    rw [Option.isNone_iff_eq_none] at hlacks
    rw [hlacks] at hsame
    exact Option.isNone_iff_eq_none.1 (Option.isSome_eq_false_iff.1 hsame.symm)
  rw [LevelIn, hnone]
  exact nofun

theorem totalsFlat_iff_level (h : HaveJobs (rows.map StatRow.figures)) :
    TotalsFlat (rows.map StatRow.figures) (aggregateDailyStatRows rows).1 ↔ Level rows := by
  have htools := toolsOf_dedup rows
  rw [totalsFlat_iff h rfl]
  refine forall_congr' fun metric => forall_congr' fun _ => ?_
  rw [summary_mean h htools]
  exact avg_iff_level h htools metric

/-- **The totals are the flat means exactly where the rows without a figure, taken at the mean of their
tool, would not move the mean**: where no tool mixes rows with and without a figure, for one. -/
theorem totals_level_iff (rows : List StatRow) (h : HaveJobs (rows.map StatRow.figures)) :
    (TotalsFlat (rows.map StatRow.figures) (aggregateDailyStatRows rows).1 ↔ Level rows) ∧
    (∀ rows' : List StatRow, rows'.map StatRow.figures = rows.map StatRow.figures → Level rows →
      (SameTotals (aggregateDailyStatRows rows).1 (aggregateDailyStatRows rows').1 ↔ Level rows')) ∧
    (Unmixed rows → Level rows) := by
  refine ⟨totalsFlat_iff_level h, fun rows' hrows' hlevel => ?_, level_of_unmixed⟩
  have hflat := (totalsFlat_iff_level h).2 hlevel
  have hiff : TotalsFlat (rows.map StatRow.figures) (aggregateDailyStatRows rows').1 ↔ Level rows' := by
    rw [← hrows'] at h ⊢
    exact totalsFlat_iff_level h
  rw [← hiff]
  constructor
  · exact fun hsame => ⟨hsame.1.symm.trans hflat.1, hsame.2.symm.trans hflat.2, hsame.3.symm.trans hflat.3,
      hsame.4.symm.trans hflat.4, hsame.5.symm.trans hflat.5⟩
  · exact fun hflat' => ⟨hflat.1.trans hflat'.1.symm, hflat.2.trans hflat'.2.symm, hflat.3.trans hflat'.3.symm,
      hflat.4.trans hflat'.4.symm, hflat.5.trans hflat'.5.symm⟩

/-- The unknown day has a tool of its own. -/
theorem totals_level_iff_ownDay : TotalsFlat [unknownDay, knownDay 1, knownDay 4]
    (aggregateDailyStatRows [⟨['c'], unknownDay⟩, ⟨['a'], knownDay 1⟩, ⟨['b'], knownDay 4⟩]).1 := by
  have hjobs : HaveJobs ([⟨['c'], unknownDay⟩, ⟨['a'], knownDay 1⟩, ⟨['b'], knownDay 4⟩].map StatRow.figures) := by
    simp [HaveJobs, knownDay, unknownDay]
  obtain ⟨hiff, -, hunmixed⟩ := totals_level_iff [⟨['c'], unknownDay⟩, ⟨['a'], knownDay 1⟩, ⟨['b'], knownDay 4⟩] hjobs
  exact hiff.2 (hunmixed (by decide))

/-- Days of 1, of an unknown amount and of 4 GiB: the mean is 2.5 when the unknown day has a tool of its
own, 2 when it has that of the first day. -/
theorem unknownDay_moves_mean : ¬ TotalsFlat [unknownDay, knownDay 1, knownDay 4]
      (aggregateDailyStatRows [⟨['a'], unknownDay⟩, ⟨['a'], knownDay 1⟩, ⟨['b'], knownDay 4⟩]).1 ∧
    ¬ SameTotals (aggregateDailyStatRows [⟨['a'], unknownDay⟩, ⟨['a'], knownDay 1⟩, ⟨['b'], knownDay 4⟩]).1
      (aggregateDailyStatRows [⟨['c'], unknownDay⟩, ⟨['a'], knownDay 1⟩, ⟨['b'], knownDay 4⟩]).1 := by
  have hshared : (aggregateDailyStatRows [⟨['a'], unknownDay⟩, ⟨['a'], knownDay 1⟩,
      ⟨['b'], knownDay 4⟩]).1.avgMemoryGb = some 2 := by
    decide +kernel
  have hown : (aggregateDailyStatRows [⟨['c'], unknownDay⟩, ⟨['a'], knownDay 1⟩, ⟨['b'], knownDay 4⟩]).1.avgMemoryGb =
      some (5 / 2) := by
    decide +kernel
  have hflat : (flatMean .memory [unknownDay, knownDay 1, knownDay 4]).avg = some (5 / 2) := by decide +kernel
  constructor
  · intro h
    have hmean := h.avgMemoryGb
    rw [hshared, hflat] at hmean
    exact absurd hmean (by decide +kernel)
  · intro h
    have hmean := h.avgMemoryGb
    rw [hshared, hown] at hmean
    exact absurd hmean (by decide +kernel)

end SlurmWeb.Analytics
