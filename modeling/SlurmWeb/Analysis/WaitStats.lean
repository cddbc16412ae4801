import SlurmWeb.Jobs.History
import SlurmWeb.Lib.IsoTime

/-!
# Waiting times of completed jobs

The context of the assistant's analysis asks the history for the last completed jobs and takes the
waiting times from what the store serialises. The analysis page does the same over the same records.

| here | there |
| --- | --- |
| `serializeDatetimes` | `_serialize_datetimes` (slurmweb/persistence/jobs_store.py:692), the two times |
| `historyWaitStats` | `_history_wait_stats` (slurmweb/views/agent.py:129) |
| `windowStart`, `contextWaitStats` | `_analysis_context_payload` (:707-741) |
| `computeWaitStats` | frontend/src/composables/ClusterAnalysis.ts:273 |

How an average is rounded is a parameter; with at most 200 values `int(last_index * 0.9)` is exact.

* `historyWaitStats_serialized` — the store's texts give no sample.
* `windowStart_instant` — the window begins a day late on the first of a month.
* `wait_stats_iff` — the statistics are right exactly when there is nothing to count.
* `waited_job_missed` — a job that has waited ten minutes.
-/

namespace SlurmWeb.Analysis

open Strings IsoTime Jobs.History Paging

/-- The fields read of a record of the history. -/
structure HistoryRecord where
  submitTime : Option Str
  startTime : Option Str

structure WaitStats where
  samples : Nat
  medianSeconds : Option ℚ
  p90Seconds : Option ℚ
  averageSeconds : Option ℚ
deriving DecidableEq

/-- No sample. -/
def WaitStats.empty : WaitStats := ⟨0, none, none, none⟩

-- `datetime` is what the driver makes of an instant, `roundTenths` is `round(.., 1)`
variable (db : Database) (datetime : Int → Datetime) (roundTenths : ℚ → ℚ)

/-- The driver's datetimes of the table are the instants stored. -/
def Exact (history : SnapshotTable) : Prop :=
  ∀ row ∈ history.rows, (datetime row.submitTime).instant = row.submitTime ∧
    ∀ t ∈ row.startTime, (datetime t).instant = t

/-! ## The agent -/

/-- `_serialize_datetimes` (:692) -/
def serializeDatetimes (row : Snapshot) : HistoryRecord where
  submitTime := some (datetime row.submitTime).isoformat
  startTime := row.startTime.map fun t => (datetime t).isoformat

/-- `max(int(start_time) - int(submit_time), 0)`, where it does not raise. -/
def historyWait (record : HistoryRecord) : Option Int := do
  let submitTime ← given record.submitTime
  let startTime ← given record.startTime
  let start ← pyInt startTime
  let submit ← pyInt submitTime
  return max (start - submit) 0

/-- `_history_wait_stats` (:129) -/
def historyWaitStats (records : List HistoryRecord) : WaitStats :=
  let waits := (records.filterMap historyWait).insertionSort (· ≤ ·)
  if waits = [] then .empty
  else
    let lastIndex := waits.length - 1
    { samples := waits.length
      medianSeconds := waits[lastIndex / 2]?.map Int.cast
      p90Seconds := waits[min (lastIndex * 9 / 10) lastIndex]?.map Int.cast
      averageSeconds := some (roundTenths (waits.sum / waits.length)) }

/-- The day `max(1, day - 1)` at midnight (:717-718). -/
def windowStart (now : Datetime) : Datetime where
  year := now.year
  month := now.month
  day := max 1 (now.day - 1)
  hour := 0
  minute := 0
  second := 0
  microsecond := 0
  offset := now.offset
  year_le := now.year_le
  month_le := now.month_le
  day_le := by
    have := now.day_le
    omega
  hour_lt := zero_lt_hours
  minute_lt := zero_lt_minutes
  second_lt := zero_lt_minutes
  microsecond_lt := zero_lt_microseconds
  offset_lt := now.offset_lt

/-- The completed jobs submitted since an instant, the last ones first (:725-735). -/
def completedSince (start : Int) (now : Datetime) : Filters where
  start := some start
  stop := some now.instant
  user := none
  account := none
  partition := none
  qos := none
  state := some "COMPLETED"
  keyword := none
  jobId := none
  sort := some "submit_time"
  order := some "desc"

/-- The database's answers to the query. -/
def Answers (start : Int) (now : Datetime) (history : SnapshotTable) (answer : List Snapshot) : Prop :=
  Answer (rowOrder db (completedSince start now).sort (completedSince start now).order)
    (matching db (completedSince start now) history) answer

/-- `history_records` (:736) -/
def historyRecords (now : Datetime) (history : SnapshotTable) (answer : List Snapshot) : List HistoryRecord :=
  (query db (completedSince (windowStart now).instant now) 1 200 history answer).jobs.map (serializeDatetimes datetime)

/-- `wait_stats` of the context. -/
def contextWaitStats (now : Datetime) (history : SnapshotTable) (answer : List Snapshot) : WaitStats :=
  historyWaitStats roundTenths (historyRecords db datetime now history answer)

/-! ## The analysis page -/

/-- `Math.round` -/
def jsRound (x : ℚ) : ℚ := ⌊x + 1 / 2⌋

/-- The waiting time of a record, in seconds. -/
def computeWait (job : HistoryRecord) : Option ℚ := do
  let start ← (given job.startTime).bind jsTime
  let submit ← (given job.submitTime).bind jsTime
  if start < submit then none else return (start - submit : ℚ) / 1000

/-- `computeWaitStats` (:273) -/
def computeWaitStats (historyJobs : List HistoryRecord) : WaitStats :=
  let waits := (historyJobs.filterMap computeWait).insertionSort (· ≤ ·)
  if waits = [] then .empty
  else
    { samples := waits.length
      medianSeconds := waits[(waits.length - 1) / 2]?.map jsRound
      p90Seconds := waits[(waits.length - 1) * 9 / 10]?.map jsRound
      averageSeconds := some (jsRound (waits.sum / waits.length)) }

/-! ## What the statistics should be -/

/-- 00:00 UTC of the calendar day before. -/
def previousMidnight (now : Datetime) : Int := (now.instant / 86400000000 - 1) * 86400000000

/-- `submit_time DESC, job_id DESC` -/
def later (a b : Snapshot) : Prop := b.submitTime < a.submitTime ∨ b.submitTime = a.submitTime ∧ b.jobId ≤ a.jobId

instance : DecidableRel later := fun a b => by unfold later; infer_instance

/-- The completed jobs submitted since an instant, the 200 most recent. -/
def lastRows (start : Int) (now : Datetime) (history : SnapshotTable) : List Snapshot :=
  ((matching db (completedSince start now) history).insertionSort later).take 200

/-- The waiting time of a row with both times, in seconds. -/
def rowWait (row : Snapshot) : Option ℚ := do
  let start ← row.startTime
  if row.submitTime ≤ start then return (start - row.submitTime : ℚ) / 1000000 else none

/-- The sorted list of waiting times. -/
def waitsOf (rows : List Snapshot) : List ℚ := (rows.filterMap rowWait).insertionSort (· ≤ ·)

/-- Their number, median, 90th percentile and mean. -/
def statsOf (waits : List ℚ) : WaitStats where
  samples := waits.length
  medianSeconds := waits[(waits.length - 1) / 2]?
  p90Seconds := waits[(waits.length - 1) * 9 / 10]?
  averageSeconds := if waits = [] then none else some (roundTenths (waits.sum / waits.length))

/-- The statistics of the context are those of the rows of the previous day and today, and count what the
analysis page counts. -/
def WaitStatsExact (now : Datetime) (history : SnapshotTable) (answer : List Snapshot) : Prop :=
  contextWaitStats db datetime roundTenths now history answer =
      statsOf roundTenths (waitsOf (lastRows db (previousMidnight now) now history)) ∧
    (contextWaitStats db datetime roundTenths now history answer).samples =
      (computeWaitStats (historyRecords db datetime now history answer)).samples

/-! ## What the texts give -/

section Texts

variable {datetime}

theorem given_isoformat (d : Datetime) : given (some d.isoformat) = some d.isoformat := by
  simp [given, Datetime.isoformat]

/-- The store's texts are no numbers. -/
theorem historyWait_serialized (row : Snapshot) : historyWait (serializeDatetimes datetime row) = none := by
  cases hstart : row.startTime with
  | none => simp [historyWait, serializeDatetimes, hstart, given]
  | some start => simp [historyWait, serializeDatetimes, hstart, given_isoformat, pyInt_isoformat]

/-- **No sample**, whatever the history holds. -/
theorem historyWaitStats_serialized (rows : List Snapshot) :
    historyWaitStats roundTenths (rows.map (serializeDatetimes datetime)) = .empty := by
  have hnone : (rows.map (serializeDatetimes datetime)).filterMap historyWait = [] := by
    simp [historyWait_serialized]
  simp [historyWaitStats, hnone]

/-- The page reads the instants, to the millisecond. -/
theorem computeWait_serialized {history : SnapshotTable} (hexact : Exact datetime history) {row : Snapshot}
    (hrow : row ∈ history.rows) : (computeWait (serializeDatetimes datetime row)).isSome ↔
      ∃ start ∈ row.startTime, row.submitTime / 1000 ≤ start / 1000 := by
  obtain ⟨hsubmit, hstarts⟩ := hexact row hrow
  cases hstart : row.startTime with
  | none => simp [computeWait, serializeDatetimes, hstart, given]
  | some start =>
    have hinstant := hstarts start hstart
    simp only [computeWait, serializeDatetimes, hstart, Option.map_some, given_isoformat,
      jsTime_isoformat, hsubmit, hinstant, Option.bind_some, Option.bind_eq_bind]
    by_cases hlt : start / 1000 < row.submitTime / 1000
    · simp [hlt]
    · simp [hlt, not_lt.1 hlt]

end Texts

theorem samples_computeWaitStats (records : List HistoryRecord) :
    (computeWaitStats records).samples = (records.filterMap computeWait).length := by
  unfold computeWaitStats
  simp only
  split
  · rename_i hnil
    have hlength := congrArg List.length hnil
    rw [List.length_insertionSort] at hlength
    exact hlength.symm
  · exact List.length_insertionSort _ _

theorem statsOf_eq_empty {waits : List ℚ} : WaitStats.empty = statsOf roundTenths waits ↔ waits = [] := by
  constructor
  · intro h
    exact List.length_eq_zero_iff.1 (congrArg WaitStats.samples h).symm
  · rintro rfl
    rfl

theorem waitsOf_eq_nil {rows : List Snapshot} :
    waitsOf rows = [] ↔ ∀ row ∈ rows, ∀ start ∈ row.startTime, start < row.submitTime := by
  have hsort : waitsOf rows = [] ↔ rows.filterMap rowWait = [] := by
    rw [← List.length_eq_zero_iff, ← List.length_eq_zero_iff, waitsOf, List.length_insertionSort]
  rw [hsort, List.filterMap_eq_nil_iff]
  refine forall₂_congr fun row _ => ?_
  cases hstart : row.startTime <;> simp [rowWait, hstart]

/-! ## The window -/

/-- **A day late on the first of a month**: the window begins at 00:00 UTC of the day before on every other
day. -/
theorem windowStart_instant {now : Datetime} (hutc : now.offset = 0) : (windowStart now).instant =
    if now.day = 1 then previousMidnight now + 86400000000 else previousMidnight now := by
  have hday := now.day_le.1
  have hhour := now.hour_lt
  have hminute := now.minute_lt
  have hsecond := now.second_lt
  have hmicro := now.microsecond_lt
  split <;> simp only [previousMidnight, Datetime.instant, utcSeconds, ordinal, windowStart, hutc] <;> omega

/-! ## The page -/

instance : Std.Total later := ⟨fun a b => by unfold later; omega⟩

instance : IsTrans Snapshot later := ⟨fun a b c => by unfold later; omega⟩

variable {db}

theorem rowOrder_iff {start : Int} {now : Datetime} {a b : Snapshot} :
    (rowOrder db (completedSince start now).sort (completedSince start now).order).le a b ↔ later a b := by
  have hclause : historySortClause (completedSince start now).sort (completedSince start now).order =
      [⟨.submitTime, false, false⟩, ⟨.jobId, false, true⟩] := by
    rfl
  rw [rowOrder, hclause]
  simp only [RowOrder.clause, List.map_cons, List.map_nil, List.foldr_cons, List.foldr_nil,
    RowOrder.andThen, RowOrder.trivial, itemOrder, RowOrder.on, columnOrder, Snapshot.column, scalarLe, later]
  simp
  omega

/-- The page the agent reads is the 200 most recent rows. -/
theorem query_jobs {start : Int} {now : Datetime} {history : SnapshotTable} {answer : List Snapshot}
    (hanswer : Answers db start now history answer) :
    (query db (completedSince start now) 1 200 history answer).jobs = lastRows db start now history := by
  have hsorted : Answers db start now history
      ((matching db (completedSince start now) history).insertionSort later) := by
    refine ⟨List.perm_insertionSort _ _, ?_⟩
    exact (List.pairwise_insertionSort later _).imp fun h => rowOrder_iff.2 h
  have hsort : selectedSort (completedSince start now).sort = "submit_time".toList := by
    have hname : selectedSort (some "submit_time".toList) = "submit_time".toList := by decide
    exact hname
  have hstrict := strict_iff.2 (@noRequeueTied_of_submitTime db _ history hsort)
  rw [answer_unique hstrict hanswer hsorted]
  rfl

/-! ## When the statistics are right -/

/-- There is nothing to count: no row of the previous day and today has started when submitted or later,
and none of the agent's, to the millisecond. -/
def NothingToCount (db : Database) (now : Datetime) (history : SnapshotTable) : Prop :=
  (∀ row ∈ lastRows db (previousMidnight now) now history, ∀ start ∈ row.startTime, start < row.submitTime) ∧
    ∀ row ∈ lastRows db (windowStart now).instant now history, ∀ start ∈ row.startTime,
      start / 1000 < row.submitTime / 1000

theorem mem_lastRows {start : Int} {now : Datetime} {history : SnapshotTable} {row : Snapshot}
    (h : row ∈ lastRows db start now history) : row ∈ history.rows :=
  List.mem_of_mem_filter ((List.mem_insertionSort _).1 (List.mem_of_mem_take h))

/-- **The waiting times**, exactly: the statistics of the context are right if and only if there is nothing
to count. -/
theorem wait_stats_iff (now : Datetime) (history : SnapshotTable) (hexact : Exact datetime history)
    {answer : List Snapshot} (hanswer : Answers db (windowStart now).instant now history answer) :
    WaitStatsExact db datetime roundTenths now history answer ↔ NothingToCount db now history := by
  have hcontext : contextWaitStats db datetime roundTenths now history answer = .empty :=
    historyWaitStats_serialized roundTenths _
  have hpage : (WaitStats.empty.samples = (computeWaitStats (historyRecords db datetime now history answer)).samples) ↔
      ∀ row ∈ lastRows db (windowStart now).instant now history, ∀ start ∈ row.startTime,
        start / 1000 < row.submitTime / 1000 := by
    rw [samples_computeWaitStats, historyRecords, query_jobs hanswer, eq_comm]
    change List.length _ = 0 ↔ _
    rw [List.length_eq_zero_iff, List.filterMap_eq_nil_iff, List.forall_mem_map]
    refine forall₂_congr fun row hrow => ?_
    rw [← Option.not_isSome_iff_eq_none, computeWait_serialized hexact (mem_lastRows hrow)]
    push Not
    rfl
  rw [WaitStatsExact, hcontext, statsOf_eq_empty, waitsOf_eq_nil, hpage, NothingToCount]

/-! ## A job that has waited -/

/-- `LIKE` of a text without wildcards between two `%`. -/
def infixLike (pattern text : Str) : Bool := decide (pattern.tail.dropLast <:+: text)

def plainTexts : Database := { codePoints with like := infixLike, ilike := infixLike }

/-- 2026-05-14, in UTC, at an hour and a minute. -/
def onMay14 (hour minute : Nat) (hour_lt : hour < 24) (minute_lt : minute < 60) : Datetime where
  year := 2026
  month := 5
  day := 14
  hour := hour
  minute := minute
  second := 0
  microsecond := 0
  offset := 0
  year_le := by decide
  month_le := by decide
  day_le := by decide
  hour_lt := hour_lt
  minute_lt := minute_lt
  second_lt := zero_lt_minutes
  microsecond_lt := zero_lt_microseconds
  offset_lt := utc_lt

def submitted : Datetime := onMay14 10 0 (by decide) (by decide)

def started : Datetime := onMay14 10 10 (by decide) (by decide)

def noon : Datetime := onMay14 12 0 (by decide) (by decide)

/-- The instants of the job. -/
def driver (instant : Int) : Datetime := if instant = submitted.instant then submitted else started

/-- Job 7 is submitted at 10:00 and starts at 10:10, or never. -/
def historyOf7 (start : Option Int) : SnapshotTable :=
  ⟨[⟨1, 7, submitted.instant, start, some "COMPLETED".toList, some "ada".toList, none, none, none, none,
    none, none, none, none⟩], by simp⟩

/-- A job that never started is no sample anywhere. -/
theorem wait_stats_iff_unstarted : WaitStatsExact plainTexts driver id noon (historyOf7 none) (historyOf7 none).rows ↔
    NothingToCount plainTexts noon (historyOf7 none) :=
  wait_stats_iff driver id noon (historyOf7 none) (by simp [Exact, historyOf7, driver])
    ⟨.of_eq (by decide), List.pairwise_singleton _ _⟩

def waited : SnapshotTable := historyOf7 (some started.instant)

/-- The job has waited 600 seconds, and the context has no sample. -/
theorem waited_job_missed : Exact driver waited ∧
    Answers plainTexts (windowStart noon).instant noon waited waited.rows ∧
    waitsOf (lastRows plainTexts (previousMidnight noon) noon waited) = [600] ∧
    contextWaitStats plainTexts driver id noon waited waited.rows = .empty ∧
    ¬ WaitStatsExact plainTexts driver id noon waited waited.rows := by
  have hrows : lastRows plainTexts (previousMidnight noon) noon waited = waited.rows := by decide
  have hsubmitted : submitted.instant = 1778752800000000 := by decide
  have hstarted : started.instant = 1778753400000000 := by decide
  have hwaits : waitsOf (lastRows plainTexts (previousMidnight noon) noon waited) = [600] := by
    rw [hrows]
    simp [waitsOf, rowWait, waited, historyOf7, hsubmitted, hstarted]
    norm_num
  have hempty : contextWaitStats plainTexts driver id noon waited waited.rows = .empty :=
    historyWaitStats_serialized id _
  refine ⟨?_, ⟨.of_eq (by decide), List.pairwise_singleton _ _⟩, hwaits, hempty, ?_⟩
  · simp [Exact, waited, historyOf7, driver, hsubmitted, hstarted]
  · rintro ⟨hstats, -⟩
    rw [hempty, hwaits] at hstats
    have hsamples := congrArg WaitStats.samples hstats
    revert hsamples
    decide

end SlurmWeb.Analysis
