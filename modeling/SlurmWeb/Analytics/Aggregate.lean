import SlurmWeb.Lib.PyValue
import SlurmWeb.Lib.Dict

/-!
# Daily statistics of jobs (slurmweb/persistence/user_analytics_store.py)

The jobs of a day are gathered by user and tool; one row of figures is made of each group. A job
without a memory figure is not counted.

| here | there |
| --- | --- |
| `runtimeSeconds` | `_runtime_seconds` (:130) |
| `positiveNumericValue` | `_positive_numeric_value` (:166) |
| `Bucket.payload` | `_daily_payload_from_bucket` (:233) |
| `aggregateRow`, `aggregate` | `aggregate_user_tool_daily_rows` (:460) |

The tool of a job is a parameter. Times are microseconds since the epoch, dates the days of these.

* `aggregate_keys` — the rows of a day are rows of that day, one for a user and a tool.
-/

namespace SlurmWeb.Analytics

open Strings Py

variable {F : Type} [Python F]

/-- A job as the aggregation reads it (jobs_store.py:928). -/
structure DailySource (F : Type) where
  activityDate : Option Int
  userId : Option Int
  jobName : Value F
  command : Value F
  usedMemoryGb : Option F
  usedCpuCoresAvg : Option F
  startTime : Option Int
  endTime : Option Int
  usageStats : Value F

/-- The key of `user_tool_daily_stats`. -/
structure DailyKey where
  activityDate : Int
  userId : Int
  tool : Str
deriving DecidableEq

/-- The figures of a row of `user_tool_daily_stats`. -/
structure DailyStat (F : Type) where
  jobsCount : Nat
  avgMemoryGb : Option F
  maxMemoryGb : Option F
  medianMemoryGb : Option F
  avgCpuCores : Option F
  avgRuntimeSeconds : Option F
deriving DecidableEq

structure Bucket (F : Type) where
  jobsCount : Nat
  memoryTotal : F
  memoryValues : List F
  cpuTotal : F
  runtimeTotal : F

structure AggregateStats where
  rowsSeen : Nat
  rowsMissingIdentity : Nat
  rowsSkippedMemory : Nat
  cpuMissing : Nat
  rowsCounted : Nat
  runtimeMissing : Nat

/-! ## Figures -/

/-- `_positive_numeric_value` (:166): a float is finite when it has an integer part. -/
def positiveNumericValue (value : Option F) : Option F :=
  value.filter fun x => (Python.intOfFloat x).isOk && !Python.le x (Python.literal 0)

/-- `usage_stats["cpu"]["job_elapsed_seconds"]` (:140) -/
def elapsedSeconds (usageStats : Value F) : Except Py.Error (Option F) :=
  match usageStats with
  | .dict stats =>
    match Value.get stats "cpu" with
    | .dict cpu =>
      let value := Value.get cpu "job_elapsed_seconds"
      if value.isNone then .ok none else Py.orElse (value.toFloat.map some) none
    | _ => .ok none
  | _ => .ok none

/-- `_runtime_seconds` (:130) -/
def runtimeSeconds (row : DailySource F) : Except Py.Error (Option F) :=
  match row.startTime, row.endTime with
  | some start, some stop =>
    if start ≤ stop then do return some (Python.div (← Python.floatOfInt (stop - start)) (Python.literal 1000000))
    else elapsedSeconds row.usageStats
  | _, _ => elapsedSeconds row.usageStats

/-- `_avg` (:193) -/
def avg (total : F) (samples : Nat) : Except Py.Error (Option F) :=
  if samples = 0 then .ok none else do return some (Python.div total (← Python.floatOfInt samples))

/-- `_round_metric` (:205) -/
def roundMetric : Option F → Except Py.Error (Option F)
  | none => .ok none
  | some value => some <$> Python.quantize value

/-- `max(values)` -/
def maximum : List F → Option F
  | [] => none
  | value :: values => some (values.foldl (fun m v => if Python.lt m v then v else m) value)

/-- `_median` (:227) -/
def median (values : List F) : Option F :=
  let sorted := values.insertionSort fun a b => Python.le a b = true
  if sorted.length % 2 = 1 then sorted[sorted.length / 2]?
  else match sorted[sorted.length / 2 - 1]?, sorted[sorted.length / 2]? with
    | some a, some b => some (Python.div (Python.add a b) (Python.literal 2))
    | _, _ => none

/-- `_daily_payload_from_bucket` (:233) -/
def Bucket.payload (bucket : Bucket F) : Except Py.Error (DailyStat F) := do
  return {
    jobsCount := bucket.jobsCount
    avgMemoryGb := ← roundMetric (← avg bucket.memoryTotal bucket.memoryValues.length)
    maxMemoryGb := ← roundMetric (maximum bucket.memoryValues)
    medianMemoryGb := ← roundMetric (median bucket.memoryValues)
    avgCpuCores := ← roundMetric (← avg bucket.cpuTotal bucket.jobsCount)
    avgRuntimeSeconds := ← roundMetric (← avg bucket.runtimeTotal bucket.jobsCount) }

/-! ## Groups -/

def Bucket.empty : Bucket F := ⟨0, Python.literal 0, [], Python.literal 0, Python.literal 0⟩

/-- `total += value`, unless there is none. -/
def addTo (total : F) : Option F → F
  | some value => Python.add total value
  | none => total

/-- A counted job (:508). -/
def Bucket.count (bucket : Bucket F) (memory : F) (cpu runtime : Option F) : Bucket F where
  jobsCount := bucket.jobsCount + 1
  memoryTotal := Python.add bucket.memoryTotal memory
  memoryValues := bucket.memoryValues ++ [memory]
  cpuTotal := addTo bucket.cpuTotal cpu
  runtimeTotal := addTo bucket.runtimeTotal runtime

abbrev Groups (F : Type) : Type := Dict DailyKey (Bucket F)

def missing (value : Option F) : Nat := if value.isNone then 1 else 0

section Aggregate

-- `classify` is `_classify_daily_tool` (:434)
variable (classify : DailySource F → Except Py.Error Str)

/-- One row of the loop (:485). -/
def aggregateRow (groups : Groups F) (stats : AggregateStats) (row : DailySource F) :
    Except Py.Error (Groups F × AggregateStats) :=
  let stats := { stats with rowsSeen := stats.rowsSeen + 1 }
  match row.activityDate, row.userId with
  | some activityDate, some userId => do
    let tool ← classify row
    let key : DailyKey := ⟨activityDate, userId, tool⟩
    let bucket := (groups.get key).getD Bucket.empty
    match row.usedMemoryGb with
    | none => return (groups.set key bucket, { stats with rowsSkippedMemory := stats.rowsSkippedMemory + 1 })
    | some memory =>
      let cpu := positiveNumericValue row.usedCpuCoresAvg
      let runtime := positiveNumericValue (← runtimeSeconds row)
      return (groups.set key (bucket.count memory cpu runtime),
        { stats with rowsCounted := stats.rowsCounted + 1, cpuMissing := stats.cpuMissing + missing cpu,
                     runtimeMissing := stats.runtimeMissing + missing runtime })
  | _, _ => return (groups, { stats with rowsMissingIdentity := stats.rowsMissingIdentity + 1 })

def aggregateRows (groups : Groups F) (stats : AggregateStats) :
    List (DailySource F) → Except Py.Error (Groups F × AggregateStats)
  | [] => .ok (groups, stats)
  | row :: rows => do
    let (groups, stats) ← aggregateRow classify groups stats row
    aggregateRows groups stats rows

/-- The payload of the groups that counted a job (:524). -/
def payloadOf (entries : List (DailyKey × Bucket F)) : Except Py.Error (List (DailyKey × DailyStat F)) :=
  (entries.filter fun entry => entry.2.jobsCount ≠ 0).mapM fun entry => do return (entry.1, ← entry.2.payload)

/-- `aggregate_user_tool_daily_rows` (:460) -/
def aggregate (rows : List (DailySource F)) : Except Py.Error (List (DailyKey × DailyStat F) × AggregateStats) := do
  let (groups, stats) ← aggregateRows classify ∅ ⟨0, 0, 0, 0, 0, 0⟩ rows
  return (← payloadOf groups.entries, stats)

/-! ## Keys -/

/-- Every group is one of the date. -/
def OfDate (date : Int) (keys : List DailyKey) : Prop := ∀ key ∈ keys, key.activityDate = date

omit [Python F] in
theorem OfDate.set {date : Int} {groups : Groups F} (h : OfDate date groups.keys) {key : DailyKey}
    (hkey : key.activityDate = date) (bucket : Bucket F) : OfDate date (groups.set key bucket).keys := by
  intro k hk
  rw [Dict.keys, Dict.set, Dict.keys_put] at hk
  split at hk
  next => exact h k hk
  next =>
    rcases List.mem_append.1 hk with hk | hk
    · exact h k hk
    · rw [List.mem_singleton.1 hk]
      exact hkey

theorem aggregateRow_date {date : Int} {groups groups' : Groups F} {stats stats' : AggregateStats} {row : DailySource F}
    (hdate : row.activityDate = some date) (hgroups : OfDate date groups.keys)
    (h : aggregateRow classify groups stats row = .ok (groups', stats')) : OfDate date groups'.keys := by
  unfold aggregateRow at h
  rw [hdate] at h
  dsimp only at h
  split at h
  next activityDate userId hsame _ =>
    cases hsame
    obtain ⟨tool, -, h⟩ := Except.bind_eq_ok.1 h
    split at h
    next =>
      cases h
      exact hgroups.set rfl _
    next =>
      obtain ⟨runtime, -, h⟩ := Except.bind_eq_ok.1 h
      cases h
      exact hgroups.set rfl _
  next =>
    cases h
    exact hgroups

theorem aggregateRows_date {date : Int} : ∀ {rows : List (DailySource F)} {groups groups' : Groups F}
    {stats stats' : AggregateStats}, (∀ row ∈ rows, row.activityDate = some date) → OfDate date groups.keys →
    aggregateRows classify groups stats rows = .ok (groups', stats') → OfDate date groups'.keys
  | [], _, _, _, _, _, hgroups, h => by
    cases h
    exact hgroups
  | row :: rows, groups, groups', stats, stats', hrows, hgroups, h => by
    obtain ⟨⟨groups₁, stats₁⟩, hrow, hrest⟩ := Except.bind_eq_ok.1 h
    have hgroups₁ := aggregateRow_date classify (hrows row List.mem_cons_self) hgroups hrow
    exact aggregateRows_date (fun r hr => hrows r (List.mem_cons_of_mem _ hr)) hgroups₁ hrest

theorem payloadOf_keys {entries : List (DailyKey × Bucket F)} {payload : List (DailyKey × DailyStat F)}
    (h : payloadOf entries = .ok payload) :
    payload.map Prod.fst = (entries.filter fun entry => entry.2.jobsCount ≠ 0).map Prod.fst := by
  rw [payloadOf] at h
  generalize entries.filter _ = counted at h
  have hpairs := Except.mapM_eq_ok.1 h
  clear h
  induction hpairs with
  | nil => rfl
  | cons hpair _ ih =>
    obtain ⟨stat, -, hpair⟩ := Except.bind_eq_ok.1 hpair
    cases hpair
    rw [List.map_cons, List.map_cons, ih]

/-- The rows of a day are rows of that day, one for a user and a tool. -/
theorem aggregate_keys {date : Int} {rows : List (DailySource F)} {payload : List (DailyKey × DailyStat F)}
    {stats : AggregateStats}
    (hrows : ∀ row ∈ rows, row.activityDate = some date) (h : aggregate classify rows = .ok (payload, stats)) :
    OfDate date (payload.map Prod.fst) ∧ (payload.map Prod.fst).Nodup := by
  obtain ⟨⟨groups, stats₁⟩, hgroups, h⟩ := Except.bind_eq_ok.1 h
  obtain ⟨payload₁, hpayload, h⟩ := Except.bind_eq_ok.1 h
  cases h
  have hsub : List.Sublist (payload.map Prod.fst) groups.keys := by
    rw [payloadOf_keys hpayload]
    exact List.Sublist.map Prod.fst List.filter_sublist
  have hdate := aggregateRows_date classify hrows (fun _ h => by cases h) hgroups
  exact ⟨fun key hkey => hdate key (hsub.subset hkey), hsub.nodup groups.nodup⟩

end Aggregate

end SlurmWeb.Analytics
