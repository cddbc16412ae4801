import SlurmWeb.Analytics.Aggregate
import SlurmWeb.Jobs.Writer

/-!
# The daily statistics table (slurmweb/persistence/user_analytics_store.py, jobs_store.py)

A refresh fills in the figures of today's snapshots, gathers the completed ones, and replaces the rows
of today. It reads the clock for each of the three. The writer of the snapshots goes on meanwhile.

| here | there |
| --- | --- |
| `completedJobRows` | `completed_job_rows_for_activity_date` (jobs_store.py:980) |
| `backfillUsage` | `backfill_usage_fields` (jobs_store.py:1306) |
| `replaceDay` | `_replace_current_day_summary` (:1160) |
| `refresh` | `refresh_current_day_summary` (:991) |

* `day_rows_kept` — the rows of a day are the aggregate of what the last completed refresh of that day
  has selected.
* `completed_next_day_missing` — a job that completes after its day has no row.
-/

namespace SlurmWeb.Analytics

open Strings Py Jobs

variable {F : Type} [Python F] [DecidableEq F]

/-! ## Snapshots of a day -/

/-- Midnight of a date, in microseconds. -/
def midnight (date : Int) : DateTime := date * 86400000000

omit [Python F] [DecidableEq F] in
/-- `submit_time >= start_time AND submit_time < end_time` of a date. -/
def submittedOn (date : Int) (record : Record F) : Bool :=
  decide (midnight date ≤ record.submitTime ∧ record.submitTime < midnight (date + 1))

omit [Python F] [DecidableEq F] in
/-- `ORDER BY submit_time ASC, job_id ASC` -/
def scanOrder (a b : Record F) : Prop :=
  a.submitTime < b.submitTime ∨ a.submitTime = b.submitTime ∧ a.jobId ≤ b.jobId

omit [Python F] [DecidableEq F] in
instance : DecidableRel (scanOrder (F := F)) := fun a b => by unfold scanOrder; infer_instance

/-- `_serialize_submitted_completed_job_row` (jobs_store.py:928) -/
def dailySource (activityDate : Int) (record : Record F) : DailySource F where
  activityDate := some activityDate
  userId := record.row.userId
  jobName := record.row.jobName
  command := record.row.command
  usedMemoryGb := record.row.usedMemoryGb
  usedCpuCoresAvg := record.row.usedCpuCoresAvg
  startTime := record.row.startTime
  endTime := record.row.endTime
  usageStats := record.row.usageStats.getD .none

-- `classify` is `_classify_daily_tool`, `upper` the `upper()` of the database
variable (classify : DailySource F → Except Py.Error Str) (upper : Str → Str)

/-- `_submitted_completed_jobs_query` (jobs_store.py:902); a snapshot always has a submission time. -/
def completedSnapshot (record : Record F) : Bool :=
  record.row.userId.isSome && decide (record.row.jobState.map upper = some "COMPLETED".toList)

/-- `completed_job_rows_for_activity_date` (jobs_store.py:980) -/
def completedJobRows (date : Int) (snapshots : Table F) : List (DailySource F) :=
  ((snapshots.rows.values.filter fun record => completedSnapshot upper record && submittedOn date record).insertionSort
    scanOrder).map (dailySource date)

/-! ## Usage figures -/

/-- `usage_backfill_rows_query` (jobs_store.py:1185) -/
def usageMissing (date : Int) (record : Record F) : Bool :=
  record.row.jobState.any (fun state => likeInfix "COMPLETED".toList (upper state) ||
    likeInfix "FAILED".toList (upper state)) &&
    (record.row.usedMemoryGb.isNone || record.row.usedCpuCoresAvg.isNone) && submittedOn date record

def withUsage (record : Record F) (memory cpu : Option F) : Record F where
  row := { record.row with usedMemoryGb := record.row.usedMemoryGb.or memory
                           usedCpuCoresAvg := record.row.usedCpuCoresAvg.or cpu }
  jobId := record.jobId
  submitTime := record.submitTime
  hasId := record.hasId
  hasTime := record.hasTime

/-- `_apply_usage_detail` (jobs_store.py:1252), and the assignments after it. -/
def applyUsageDetail (record : Record F) : Lookup F → Except Py.Error (Record F)
  | .found detail => do
    let row ← extractDetail detail record.row
    if missingKey row then return record
    else if row.submitTime ≠ record.row.submitTime then return record
    else return withUsage record (← Jobs.roundMetric row.usedMemoryGb) (← Jobs.roundMetric row.usedCpuCoresAvg)
  | _ => return record

/-- `backfill_usage_fields` (jobs_store.py:1306): an exception rolls everything back. -/
def backfillUsage (date : Int) (lookups : JobKey F → Lookup F) (snapshots : Table F) : Except Py.Error (Table F) := do
  let records ← ((snapshots.rows.values.filter (usageMissing upper date)).insertionSort scanOrder).mapM
    fun record => applyUsageDetail record (lookups record.key)
  return records.foldl Table.set snapshots

/-! ## Refreshes -/

structure Tables (F : Type) [Python F] [DecidableEq F] where
  snapshots : Table F
  stats : Dict DailyKey (DailyStat F)

/-- `_replace_current_day_summary` (:1160) -/
def replaceDay (date : Int) (payload : List (DailyKey × DailyStat F)) (stats : Dict DailyKey (DailyStat F)) :
    Dict DailyKey (DailyStat F) :=
  (stats.filterKeys fun key => decide (key.activityDate ≠ date)).update payload

/-- A call of `refresh_current_day_summary`, with what it meets. -/
structure Refresh (F : Type) [Python F] where
  /-- The date read for the usage figures. -/
  backfilled : Int
  lookups : JobKey F → Lookup F
  /-- What the writer stores before the selection. -/
  storedBefore : List (Upsert F)
  /-- The date read for the selection. -/
  selected : Int
  /-- What the writer stores before the replacement. -/
  storedAfter : List (Upsert F)
  /-- The date read for the replacement. -/
  replaced : Int
  /-- The replacement is not rolled back. -/
  commits : Bool

/-- What the writer stores, in order. -/
def storeAll (upserts : List (Upsert F)) (snapshots : Table F) : Table F := upserts.foldl Table.upsert snapshots

/-- `refresh_current_day_summary` (:991) -/
def refresh (r : Refresh F) (t : Tables F) : Tables F :=
  match backfillUsage upper r.backfilled r.lookups t.snapshots with
  | .error _ => { t with snapshots := storeAll (r.storedBefore ++ r.storedAfter) t.snapshots }
  | .ok backfilled =>
    let seen := storeAll r.storedBefore backfilled
    let snapshots := storeAll r.storedAfter seen
    match aggregate classify (completedJobRows upper r.selected seen) with
    | .error _ => { t with snapshots }
    | .ok (payload, _) => ⟨snapshots, if r.commits then replaceDay r.replaced payload t.stats else t.stats⟩

/-- What happens to the two tables. -/
inductive Event (F : Type) [Python F]
  /-- The writer stores a snapshot, of a job that completes or of any other. -/
  | stored (upsert : Upsert F)
  | refreshed (r : Refresh F)

def step (t : Tables F) : Event F → Tables F
  | .stored upsert => { t with snapshots := t.snapshots.upsert upsert }
  | .refreshed r => refresh classify upper r t

def run (events : List (Event F)) (t : Tables F) : Tables F := events.foldl (step classify upper) t

/-! ## What a refresh does -/

/-- The refresh completes, and its selection reads `seen`. -/
structure Completes (r : Refresh F) (t : Tables F) (seen : Table F) : Prop where
  backfilled : ∃ backfilled, backfillUsage upper r.backfilled r.lookups t.snapshots = .ok backfilled ∧
    seen = storeAll r.storedBefore backfilled
  aggregated : ∃ payload stats, aggregate classify (completedJobRows upper r.selected seen) = .ok (payload, stats)
  commits : r.commits = true

/-- The event is a completed refresh that selects the date or replaces its rows. -/
def Rewrites (date : Int) (t : Tables F) : Event F → Prop
  | .stored _ => False
  | .refreshed r => (∃ seen, Completes classify upper r t seen) ∧ (r.selected = date ∨ r.replaced = date)

/-- No event rewrites the date. -/
def Untouched (date : Int) : List (Event F) → Tables F → Prop
  | [], _ => True
  | e :: events, t => ¬ Rewrites classify upper date t e ∧ Untouched date events (step classify upper t e)

theorem completedJobRows_date {date : Int} {snapshots : Table F} :
    ∀ row ∈ completedJobRows upper date snapshots, row.activityDate = some date := by
  intro row hrow
  obtain ⟨record, -, rfl⟩ := List.mem_map.1 hrow
  rfl

/-- What is selected for a date has rows of that date, one for a user and a tool. -/
theorem payload_keys {date : Int} {snapshots : Table F} {payload : List (DailyKey × DailyStat F)}
    {stats : AggregateStats}
    (h : aggregate classify (completedJobRows upper date snapshots) = .ok (payload, stats)) :
    OfDate date (payload.map Prod.fst) ∧ (payload.map Prod.fst).Nodup :=
  aggregate_keys classify (completedJobRows_date upper) h

omit [Python F] [DecidableEq F] in
theorem lookup_other_date {date : Int} {payload : List (DailyKey × DailyStat F)}
    (h : OfDate date (payload.map Prod.fst))
    {key : DailyKey} (hkey : key.activityDate ≠ date) : Dict.lookup payload key = none := by
  induction payload with
  | nil => rfl
  | cons entry payload ih =>
    obtain ⟨k, stat⟩ := entry
    have hne : k ≠ key := by
      rintro rfl
      exact hkey (h k (by simp))
    rw [Dict.lookup, if_neg hne]
    exact ih fun k hk => h k (by simp [hk])

omit [Python F] [DecidableEq F] in
theorem replaceDay_get {date : Int} {payload : List (DailyKey × DailyStat F)} (h : (payload.map Prod.fst).Nodup)
    (stats : Dict DailyKey (DailyStat F)) (key : DailyKey) :
    (replaceDay date payload stats).get key =
      (Dict.lookup payload key).or (if key.activityDate = date then none else stats.get key) := by
  rw [replaceDay, Dict.get_update_nodup h, Dict.get_filterKeys]
  by_cases hdate : key.activityDate = date <;> simp [hdate]

variable {classify upper}

theorem Completes.refresh {r : Refresh F} {t : Tables F} {seen : Table F} (h : Completes classify upper r t seen) :
    ∃ payload stats, aggregate classify (completedJobRows upper r.selected seen) = .ok (payload, stats) ∧
      refresh classify upper r t = ⟨storeAll r.storedAfter seen, replaceDay r.replaced payload t.stats⟩ := by
  obtain ⟨⟨backfilled, hbackfill, rfl⟩, ⟨payload, stats, haggregate⟩, hcommits⟩ := h
  refine ⟨payload, stats, haggregate, ?_⟩
  simp only [Analytics.refresh, hbackfill, haggregate, hcommits, if_true]

/-- A refresh that does not complete leaves the statistics. -/
theorem refresh_stats_of_not_completes {r : Refresh F} {t : Tables F}
    (h : ∀ seen, ¬ Completes classify upper r t seen) : (refresh classify upper r t).stats = t.stats := by
  unfold refresh
  split
  next => rfl
  next backfilled hbackfill =>
    dsimp only
    split
    next => rfl
    next payload stats haggregate =>
      by_cases hcommits : r.commits = true
      · exact absurd ⟨⟨backfilled, hbackfill, rfl⟩, ⟨payload, stats, haggregate⟩, hcommits⟩ (h _)
      · rw [if_neg hcommits]

/-- A step that does not rewrite a date keeps its rows. -/
theorem step_keeps {date : Int} {t : Tables F} {e : Event F} (h : ¬ Rewrites classify upper date t e) {key : DailyKey}
    (hkey : key.activityDate = date) : (step classify upper t e).stats.get key = t.stats.get key := by
  subst hkey
  cases e with
  | stored upsert => rfl
  | refreshed r =>
    by_cases hcompletes : ∃ seen, Completes classify upper r t seen
    · have hdates : r.selected ≠ key.activityDate ∧ r.replaced ≠ key.activityDate := by
        rw [← not_or]
        exact fun hdate => h ⟨hcompletes, hdate⟩
      obtain ⟨seen, hseen⟩ := hcompletes
      obtain ⟨payload, stats, haggregate, hrefresh⟩ := hseen.refresh
      obtain ⟨hofDate, hnodup⟩ := payload_keys classify upper haggregate
      rw [step, hrefresh, replaceDay_get hnodup, lookup_other_date hofDate hdates.1.symm,
        if_neg hdates.2.symm, Option.none_or]
    · rw [step, refresh_stats_of_not_completes fun seen hseen => hcompletes ⟨seen, hseen⟩]

/-- A run that does not rewrite a date keeps its rows. -/
theorem run_keeps {date : Int} {key : DailyKey} (hkey : key.activityDate = date) :
    ∀ {events : List (Event F)} {t : Tables F},
    Untouched classify upper date events t → (run classify upper events t).stats.get key = t.stats.get key
  | [], _, _ => rfl
  | e :: events, t, h => by
    have ih := run_keeps hkey h.2
    rw [step_keeps h.1 hkey] at ih
    exact ih

/-- A completed refresh of a date leaves the aggregate of what it selected as the rows of the date. -/
theorem refresh_rows {date : Int} {r : Refresh F} {t : Tables F} {seen : Table F}
    (h : Completes classify upper r t seen) (hselected : r.selected = date) (hreplaced : r.replaced = date) :
    ∃ payload stats, aggregate classify (completedJobRows upper date seen) = .ok (payload, stats) ∧
      ∀ key, key.activityDate = date → (refresh classify upper r t).stats.get key = Dict.lookup payload key := by
  obtain ⟨payload, stats, haggregate, hrefresh⟩ := h.refresh
  rw [hselected] at haggregate
  obtain ⟨-, hnodup⟩ := payload_keys classify upper haggregate
  refine ⟨payload, stats, haggregate, fun key hkey => ?_⟩
  rw [hrefresh, replaceDay_get hnodup, hreplaced, if_pos hkey, Option.or_none]

/-- After a completed refresh of a date, and until the next one that selects the date or replaces its
rows, these are the aggregate of the completed snapshots submitted on the date as it selected them. -/
theorem day_rows_kept {date : Int} {before after : List (Event F)} {r : Refresh F} {t : Tables F} {seen : Table F}
    (h : Completes classify upper r (run classify upper before t) seen) (hselected : r.selected = date)
    (hreplaced : r.replaced = date)
    (hafter : Untouched classify upper date after (run classify upper (before ++ [.refreshed r]) t)) :
    (∃ payload stats, aggregate classify (completedJobRows upper date seen) = .ok (payload, stats) ∧
      ∀ key, key.activityDate = date →
        (run classify upper (before ++ .refreshed r :: after) t).stats.get key = Dict.lookup payload key) ∧
    (r.storedAfter = [] → (run classify upper (before ++ [.refreshed r]) t).snapshots = seen) := by
  have hlast : run classify upper (before ++ [.refreshed r]) t = refresh classify upper r
      (run classify upper before t) := by
    rw [run, List.foldl_append]
    rfl
  have hrun : run classify upper (before ++ .refreshed r :: after) t =
      run classify upper after (run classify upper (before ++ [.refreshed r]) t) := by
    rw [run, run, run, ← List.foldl_append, List.append_assoc]
    rfl
  constructor
  · obtain ⟨payload, stats, haggregate, hrows⟩ := refresh_rows h hselected hreplaced
    refine ⟨payload, stats, haggregate, fun key hkey => ?_⟩
    rw [hrun, run_keeps hkey hafter, hlast]
    exact hrows key hkey
  · intro hstored
    obtain ⟨payload, stats, -, hrefresh⟩ := h.refresh
    rw [hlast, hrefresh, hstored]
    rfl

/-! ## A job that ends after its day -/

/-- Submitted a second before midnight, completed two seconds after. -/
def overnightRow : Row ℚ :=
  { bareRow 7 86399000000 "COMPLETED" with userId := some 3, usedMemoryGb := some 2, endTime := some 86402000000 }

def overnightJob : Upsert ℚ where
  row := ⟨overnightRow, .listed, (.int 7, some 86399000000), rfl⟩
  dbRow := overnightRow
  prepared := by
    have h : Python.quantize (2 : ℚ) = .ok 2 := by decide +kernel
    simp [prepareDbRow, Jobs.roundMetric, overnightRow, bareRow, h]

/-- A refresh within one day. -/
def refreshOn (date : Int) : Refresh ℚ := ⟨date, fun _ => .failed, [], date, [], date, true⟩

def noTables : Tables ℚ := ⟨.empty, ∅⟩

def oneTool (_ : DailySource ℚ) : Except Py.Error Str := .ok "bwa".toList

/-- The row the day of the job should have. -/
def overnightStat : DailyStat ℚ := ⟨1, some 2, some 2, some 2, some 0, some 0⟩

/-- A job that completes on the day after its submission has no row, though that day is refreshed after
it has completed. -/
theorem completed_next_day_missing :
    let t := run oneTool id [.stored overnightJob] noTables
    let t' := run oneTool id [.stored overnightJob, .refreshed (refreshOn 1)] noTables
    (∃ seen, Completes oneTool id (refreshOn 1) t seen) ∧
      ((aggregate oneTool (completedJobRows id 0 t'.snapshots)).toOption.map fun out =>
        Dict.lookup out.1 ⟨0, 3, "bwa".toList⟩) = some (some overnightStat) ∧
      t'.stats.get ⟨0, 3, "bwa".toList⟩ = none := by
  refine ⟨⟨_, ⟨_, rfl, rfl⟩, ⟨_, _, rfl⟩, rfl⟩, ?_, rfl⟩
  decide +kernel

theorem day_rows_kept_overnight :
    let t := run oneTool id [.stored overnightJob] noTables
    (∃ payload stats, aggregate oneTool (completedJobRows id 0 t.snapshots) = .ok (payload, stats) ∧
      ∀ key : DailyKey, key.activityDate = 0 →
        (run oneTool id [.stored overnightJob, .refreshed (refreshOn 0), .refreshed (refreshOn 1)]
          noTables).stats.get key = Dict.lookup payload key) ∧
    ((refreshOn 0).storedAfter = [] →
      (run oneTool id [.stored overnightJob, .refreshed (refreshOn 0)] noTables).snapshots = t.snapshots) := by
  intro t
  have haggregate : ∃ out, aggregate oneTool (completedJobRows id 0 t.snapshots) = .ok out :=
    Except.isOk_iff.1 (by decide)
  obtain ⟨⟨payload, stats⟩, haggregate⟩ := haggregate
  have hcompletes : Completes oneTool id (refreshOn 0) t t.snapshots :=
    ⟨⟨_, rfl, rfl⟩, ⟨payload, stats, haggregate⟩, rfl⟩
  have hafter : Untouched oneTool id 0 [.refreshed (refreshOn 1)]
      (run oneTool id ([.stored overnightJob] ++ [.refreshed (refreshOn 0)]) noTables) := by
    refine ⟨?_, trivial⟩
    rintro ⟨-, hdate⟩
    revert hdate
    decide
  exact day_rows_kept hcompletes rfl rfl hafter

end SlurmWeb.Analytics
