import SlurmWeb.Jobs.Writer
import SlurmWeb.Lib.Buckets
import SlurmWeb.Lib.UtcTime

/-!
# Timelines of a user (slurmweb/persistence/user_analytics_store.py)

The jobs of a user are counted by the database in buckets of time, and the buckets of a window are walked
through in Python, one resolution after another.

| here | there |
| --- | --- |
| `resolveHistoryWindowAndBucket` | `_resolve_history_window_and_bucket` (:609) |
| `submissionTimeline` | `submission_timeline` (:639) |
| `completionTimeline` | `completion_timeline` (:682) |
| `stateTimeline` | `state_timeline` (:734) |
| `userMetricsHistory` | `user_metrics_history` (:794) |
| `alignBucket` | `_align_bucket` (:1218) |
| `bucketEpochMs` | `_bucket_epoch_ms` (:185) |

Times in the database are microseconds since the epoch. An addition to a datetime raises after the year 9999.

* `alignBucket_instant` — Python and the database cut time into the same buckets.
* `walk_eq` — the walk as the list of buckets.
* `history_iff` — when the series of a window count its jobs.
-/

namespace SlurmWeb.Analytics

open Strings Py IsoTime Buckets

/-! ## Buckets -/

/-- `date_trunc` and the resolution that goes with it (:617). -/
inductive BucketName
  | minute
  | hour
  | day
  | week
deriving DecidableEq

def BucketName.resolution : BucketName → Int
  | .minute => 60000000
  | .hour => 3600000000
  | .day => 86400000000
  | .week => 604800000000

/-- The first Monday after the epoch, for weeks. -/
def BucketName.origin : BucketName → Int
  | .week => 345600000000
  | _ => 0

/-- `date_trunc(bucket, t AT TIME ZONE 'UTC')` -/
def dateTrunc (bucket : BucketName) (t : Int) : Int := floorTo bucket.origin bucket.resolution t

/-- `_bucket_epoch_ms` (:185): `int(..)` of milliseconds. -/
def bucketEpochMs (t : Int) : Int := t.tdiv 1000

/-- A datetime after the year 9999 is an `OverflowError`. -/
def orOverflow : Option Datetime → Except Py.Error Datetime
  | some d => .ok d
  | none => .error .overflowError

/-- `datetime + timedelta`, in UTC. -/
def addMicroseconds (d : Datetime) (n : Int) : Except Py.Error Datetime := orOverflow (fromMicroseconds (d.instant + n))

theorem addMicroseconds_ok {d : Datetime} {n : Int} (h : InRange (d.instant + n)) :
    ∃ e, addMicroseconds d n = .ok e ∧ e.instant = d.instant + n ∧ e.offset = 0 := by
  obtain ⟨e, he⟩ := Option.isSome_iff_exists.1 (fromMicroseconds_isSome.2 h)
  refine ⟨e, ?_, fromMicroseconds_eq_some he⟩
  rw [addMicroseconds, he]
  rfl

theorem addMicroseconds_overflow {d : Datetime} {n : Int} (h : ¬InRange (d.instant + n)) :
    addMicroseconds d n = .error .overflowError := by
  have hnone : fromMicroseconds (d.instant + n) = none := by
    rw [← Option.not_isSome_iff_eq_none, fromMicroseconds_isSome]
    exact h
  rw [addMicroseconds, hnone]
  rfl

/-- `timestamp.replace(second=0, microsecond=0)` -/
def wholeMinute (d : Datetime) : Datetime :=
  { d with second := 0, microsecond := 0, second_lt := zero_lt_minutes, microsecond_lt := zero_lt_microseconds }

def wholeHour (d : Datetime) : Datetime := { wholeMinute d with minute := 0, minute_lt := zero_lt_minutes }

def wholeDay (d : Datetime) : Datetime := { wholeHour d with hour := 0, hour_lt := zero_lt_hours }

/-- `aligned.weekday()`: a Monday is 0. -/
def weekday (d : Datetime) : Nat := (ordinal d.year d.month d.day + 6) % 7

/-- `_align_bucket` (:1218) -/
def alignBucket (timestamp : Datetime) : BucketName → Except Py.Error Datetime
  | .minute => .ok (wholeMinute timestamp)
  | .hour => .ok (wholeHour timestamp)
  | .day => .ok (wholeDay timestamp)
  | .week => addMicroseconds (wholeDay timestamp) (-(weekday timestamp * 86400000000))

theorem resolution_pos (bucket : BucketName) : 0 < bucket.resolution := by
  cases bucket <;> decide

theorem monday_instant {timestamp : Datetime} (h : timestamp.offset = 0) :
    (wholeDay timestamp).instant + -(weekday timestamp * 86400000000) = dateTrunc .week timestamp.instant := by
  have hminute := timestamp.minute_lt
  have hhour := timestamp.hour_lt
  have hsecond := timestamp.second_lt
  have hmicrosecond := timestamp.microsecond_lt
  simp only [Datetime.instant, utcSeconds, wholeDay, wholeHour, wholeMinute, weekday, dateTrunc,
    floorTo, BucketName.origin, BucketName.resolution, h]
  generalize ordinal timestamp.year timestamp.month timestamp.day = n at *
  omega

/-- The first day of the year 1 is a Monday. -/
theorem monday_inRange {t : Int} (h : InRange t) : InRange (dateTrunc .week t) := by
  have hfloor := @floorTo_le BucketName.week.origin _ t (resolution_pos .week)
  have hmono := @floorTo_mono BucketName.week.origin _ _ _ (resolution_pos .week) h.1
  have hfirst : floorTo BucketName.week.origin BucketName.week.resolution (-62135596800000000) = -62135596800000000 :=
    rfl
  rw [hfirst] at hmono
  exact ⟨hmono, hfloor.trans_lt h.2⟩

theorem alignWeek_instant {timestamp : Datetime} (h : timestamp.offset = 0) :
    ∃ aligned, alignBucket timestamp .week = .ok aligned ∧ aligned.instant = dateTrunc .week timestamp.instant ∧
      aligned.offset = 0 := by
  have hrange := monday_inRange (instant_inRange h)
  rw [← monday_instant h] at hrange ⊢
  exact addMicroseconds_ok hrange

/-- **Python and the database cut time into the same buckets.** -/
theorem alignBucket_instant {timestamp : Datetime} (h : timestamp.offset = 0) (bucket : BucketName) :
    ∃ aligned, alignBucket timestamp bucket = .ok aligned ∧ aligned.instant = dateTrunc bucket timestamp.instant ∧
      aligned.offset = 0 := by
  have hminute := timestamp.minute_lt
  have hhour := timestamp.hour_lt
  have hsecond := timestamp.second_lt
  have hmicrosecond := timestamp.microsecond_lt
  have hpos := ordinal_pos timestamp
  cases bucket with
  | minute =>
    refine ⟨wholeMinute timestamp, rfl, ?_, h⟩
    simp only [Datetime.instant, utcSeconds, wholeMinute, dateTrunc, floorTo, BucketName.origin,
      BucketName.resolution, h]
    generalize ordinal timestamp.year timestamp.month timestamp.day = n at *
    omega
  | hour =>
    refine ⟨wholeHour timestamp, rfl, ?_, h⟩
    simp only [Datetime.instant, utcSeconds, wholeHour, wholeMinute, dateTrunc, floorTo, BucketName.origin,
      BucketName.resolution, h]
    generalize ordinal timestamp.year timestamp.month timestamp.day = n at *
    omega
  | day =>
    refine ⟨wholeDay timestamp, rfl, ?_, h⟩
    simp only [Datetime.instant, utcSeconds, wholeDay, wholeHour, wholeMinute, dateTrunc, floorTo, BucketName.origin,
      BucketName.resolution, h]
    generalize ordinal timestamp.year timestamp.month timestamp.day = n at *
    omega
  | week => exact alignWeek_instant h

/-! ## Queries -/

/-- A row of `job_snapshots`, as far as the timelines read it. -/
structure JobTimes where
  jobId : Int
  submitTime : Option Int
  startTime : Option Int
  endTime : Option Int
  lastSeen : Option Int
  jobState : Option Str
  userId : Option Int

def JobTimes.key (row : JobTimes) : Int × Option Int := (row.jobId, row.submitTime)

/-- What the queries use of the database: `UPPER`, and the names of the users by their ids. -/
structure Queries where
  upper : Str → Str
  users : Int → Option Str

/-- `UPPER(js.job_state) LIKE '%state%'` for one of the states. -/
def inStates (db : Queries) (states : List Str) (row : JobTimes) : Bool :=
  row.jobState.any fun state => states.any fun wanted => Jobs.likeInfix wanted (db.upper state)

/-- The rows of a window (:655). -/
def matching (db : Queries) (time : JobTimes → Option Int) (wanted : JobTimes → Bool)
    (username : Str) (start stop : Int) (rows : List JobTimes) : List JobTimes :=
  rows.filter fun row => row.userId.bind db.users == some username &&
    (time row).any (fun t => decide (start ≤ t) && decide (t ≤ stop)) && wanted row

/-- Ascending, `NULLS LAST`. -/
def nullsLast (a b : Option Int) : Bool :=
  match a, b with
  | some a, some b => decide (a < b)
  | some _, none => true
  | none, _ => false

/-- `ORDER BY job_id, submit_time, last_seen DESC` -/
def orderedBefore (a b : JobTimes) : Bool :=
  decide (a.jobId < b.jobId) || (a.jobId == b.jobId && (nullsLast a.submitTime b.submitTime ||
    (a.submitTime == b.submitTime && !nullsLast a.lastSeen b.lastSeen)))

/-- `DISTINCT ON (job_id, submit_time)`, of rows in order. -/
def distinctOn : List JobTimes → List JobTimes
  | [] => []
  | row :: rows => row :: (distinctOn rows).filter fun other => other.key ≠ row.key

/-- The buckets of the rows (:648). -/
def selectBuckets (db : Queries) (time : JobTimes → Option Int) (wanted : JobTimes → Bool) (username : Str)
    (bucket : BucketName) (start stop : Int) (rows : List JobTimes) : List Int :=
  (distinctOn ((matching db time wanted username start stop rows).insertionSort
    (orderedBefore · ·))).filterMap fun row =>
    (time row).map (dateTrunc bucket)

/-- `SELECT bucket, COUNT(*) .. GROUP BY bucket ORDER BY bucket ASC` -/
def countBuckets (buckets : List Int) : List (Int × Nat) :=
  (buckets.dedup.insertionSort (· ≤ ·)).map fun bucket => (bucket, buckets.count bucket)

/-! ## Series -/

inductive HistoryError
  | value (message : Str)
  | overflow
deriving DecidableEq

def orHistoryError : Except Py.Error Datetime → Except HistoryError Datetime
  | .ok d => .ok d
  | .error _ => .error .overflow

/-- `while cursor <= end_time` (:675) -/
def walk (values : Dict Int Nat) (bucket : BucketName) (stop cursor : Datetime) :
    Except HistoryError (List (Int × Nat)) :=
  if cursor.instant ≤ stop.instant then
    let ms := bucketEpochMs cursor.instant
    match _hnext : fromMicroseconds (cursor.instant + bucket.resolution) with
    | none => .error .overflow
    | some next => do return (ms, (values.get ms).getD 0) :: (← walk values bucket stop next)
  else .ok []
termination_by (stop.instant + 1 - cursor.instant).toNat
decreasing_by
  have hinstant := (fromMicroseconds_eq_some _hnext).1
  have hpos := resolution_pos bucket
  omega

section Timeline
variable (db : Queries) (rows : List JobTimes)

/-- A timeline: the jobs of the window in buckets, and the walk over these. -/
def timeline (time : JobTimes → Option Int) (wanted : JobTimes → Bool) (username : Str) (start stop : Datetime)
    (bucket : BucketName) : Except HistoryError (List (Int × Nat)) := do
  let buckets := selectBuckets db time wanted username bucket start.instant stop.instant rows
  let values := Dict.update ∅ ((countBuckets buckets).map fun entry => (bucketEpochMs entry.1, entry.2))
  walk values bucket stop (← orHistoryError (alignBucket start bucket))

/-- `COALESCE(js.submit_time, js.start_time, js.last_seen)` -/
def submissionTime (row : JobTimes) : Option Int := (row.submitTime.or row.startTime).or row.lastSeen

/-- `COALESCE(js.end_time, js.last_seen)` -/
def completionTime (row : JobTimes) : Option Int := row.endTime.or row.lastSeen

/-- `COALESCE(js.last_seen, js.start_time, js.submit_time)` -/
def stateTime (row : JobTimes) : Option Int := (row.lastSeen.or row.startTime).or row.submitTime

/-- The bucket of a range, and its length (:33, :626). -/
def rangeBucket (rangeName : Str) : Option (BucketName × Int) :=
  if rangeName = "hour".toList then some (.minute, 3600000000)
  else if rangeName = "day".toList then some (.hour, 86400000000)
  else if rangeName = "week".toList then some (.day, 604800000000)
  else none

/-- The bucket of a window of a duration (:616). -/
def durationBucket (duration : Int) : BucketName :=
  if duration ≤ 48 * 3600000000 then .hour else if duration ≤ 62 * 86400000000 then .day else .week

def windowBucket (start stop : Datetime) : BucketName := durationBucket (stop.instant - start.instant)

/-- `_resolve_history_window_and_bucket` (:609); the clock is read twice for a range. -/
def resolveHistoryWindowAndBucket (clock : Datetime × Datetime) (rangeName : Option Str) :
    Option Datetime → Option Datetime → Except HistoryError (Datetime × Datetime × BucketName)
  | some start, some stop =>
    if start.instant ≥ stop.instant then .error (.value "start must be earlier than end".toList)
    else .ok (start, stop, windowBucket start stop)
  | none, none =>
    -- `range_name or "hour"`
    let name := match rangeName with
      | none | some [] => "hour".toList
      | some name => name
    match rangeBucket name with
    | none => .error (.value ("Unsupported metric range ".toList ++ name))
    | some (bucket, length) => do
      let start ← orHistoryError (addMicroseconds clock.1 (-length))
      return (start, clock.2, bucket)
  | _, _ => .error (.value "start and end must both be provided".toList)

/-- `submission_timeline` (:639) -/
def submissionTimeline (username : Str) (clock : Datetime × Datetime) (rangeName : Option Str)
    (start stop : Option Datetime) : Except HistoryError (List (Int × Nat)) := do
  let (start, stop, bucket) ← resolveHistoryWindowAndBucket clock rangeName start stop
  timeline db rows submissionTime (fun _ => true) username start stop bucket

/-- `completion_timeline` (:682) -/
def completionTimeline (username : Str) (clock : Datetime × Datetime) (rangeName : Option Str)
    (start stop : Option Datetime) : Except HistoryError (List (Int × Nat)) := do
  let (start, stop, bucket) ← resolveHistoryWindowAndBucket clock rangeName start stop
  timeline db rows completionTime (inStates db Jobs.terminalStates) username start stop bucket

/-- `state_timeline` (:734) -/
def stateTimeline (username : Str) (states : List Str) (clock : Datetime × Datetime) (rangeName : Option Str)
    (start stop : Option Datetime) : Except HistoryError (List (Int × Nat)) := do
  let (start, stop, bucket) ← resolveHistoryWindowAndBucket clock rangeName start stop
  timeline db rows stateTime (inStates db states) username start stop bucket

/-- `_USER_HISTORY_STATE_GROUPS` (:39) -/
def userHistoryStateGroups : List (Str × List Str) :=
  [("running_jobs", ["RUNNING", "COMPLETING", "SUSPENDED"]), ("pending_jobs", ["PENDING"]),
    ("failed_jobs", ["FAILED", "TIMEOUT", "NODE_FAIL", "BOOT_FAIL", "DEADLINE", "OUT_OF_MEMORY"]),
    ("cancelled_jobs", ["CANCELLED", "PREEMPTED"])]

structure UserHistory where
  windowStart : Str
  windowEnd : Str
  submittedJobs : Nat
  completedJobs : Nat
  stateTotals : List (Str × Nat)
  submissions : List (Int × Nat)
  completions : List (Int × Nat)
  stateSeries : List (Str × List (Int × Nat))

/-- `sum(count for _, count in series)` -/
def total (series : List (Int × Nat)) : Nat := (series.map Prod.snd).sum

/-- `user_metrics_history` (:794): the timelines are those of the window, also where a range was named. -/
def userMetricsHistory (username : Str) (clock : Datetime × Datetime) (rangeName : Option Str)
    (start stop : Option Datetime) : Except HistoryError UserHistory := do
  let (first, last, _) ← resolveHistoryWindowAndBucket clock rangeName start stop
  let submissions ← submissionTimeline db rows username clock rangeName (some first) (some last)
  let completions ← completionTimeline db rows username clock rangeName (some first) (some last)
  let series ← userHistoryStateGroups.mapM fun group => do
    return (group.1, ← stateTimeline db rows username group.2 clock rangeName (some first) (some last))
  return {
    windowStart := first.isoformat
    windowEnd := last.isoformat
    submittedJobs := total submissions
    completedJobs := total completions
    stateTotals := series.map fun entry => (entry.1, total entry.2)
    submissions := submissions
    completions := completions
    stateSeries := series }

end Timeline

/-! ## What the database counts -/

theorem distinctOn_eq_self {rows : List JobTimes} (h : (rows.map JobTimes.key).Nodup) : distinctOn rows = rows := by
  induction rows with
  | nil => rfl
  | cons row rows ih =>
    obtain ⟨hrow, hrows⟩ := List.nodup_cons.1 h
    rw [distinctOn, ih hrows, List.filter_eq_self.2]
    intro other hother
    refine decide_eq_true fun hsame => hrow ?_
    rw [← hsame]
    exact List.mem_map_of_mem hother

section Counts
variable {db : Queries} {rows : List JobTimes} {time : JobTimes → Option Int}
    {wanted : JobTimes → Bool} {username : Str} {bucket : BucketName} {start stop : Int}

/-- **The query counts every row of the window**, with distinct keys. -/
theorem selectBuckets_perm (h : (rows.map JobTimes.key).Nodup) :
    (selectBuckets db time wanted username bucket start stop rows).Perm
    ((matching db time wanted username start stop rows).filterMap fun row => (time row).map (dateTrunc bucket)) := by
  have hsorted := List.perm_insertionSort (orderedBefore · ·) (matching db time wanted username start stop rows)
  have hkeys : (((matching db time wanted username start stop rows).insertionSort (orderedBefore · ·)).map
      JobTimes.key).Nodup :=
    ((hsorted.map _).nodup_iff).2 ((List.filter_sublist.map _).nodup h)
  rw [selectBuckets, distinctOn_eq_self hkeys]
  exact hsorted.filterMap _

theorem time_of_mem_matching {row : JobTimes} (h : row ∈ matching db time wanted username start stop rows) :
    ∃ t, time row = some t ∧ start ≤ t ∧ t ≤ stop := by
  have hrow := (List.mem_filter.1 h).2
  cases htime : time row with
  | none => simp [htime] at hrow
  | some t =>
    simp only [htime, Option.any_some, Bool.and_eq_true, decide_eq_true_eq] at hrow
    exact ⟨t, rfl, hrow.1.2.1, hrow.1.2.2⟩

theorem dateTrunc_dvd (bucket : BucketName) (t : Int) : (1000 : Int) ∣ dateTrunc bucket t := by
  rw [dateTrunc, floorTo_eq]
  have horigin : (1000 : Int) ∣ bucket.origin := by cases bucket <;> decide
  have hresolution : (1000 : Int) ∣ bucket.resolution := by cases bucket <;> decide
  exact dvd_add horigin (Dvd.dvd.mul_left hresolution _)

theorem bucketEpochMs_inj {a b : Int} (ha : (1000 : Int) ∣ a) (hb : (1000 : Int) ∣ b)
    (h : bucketEpochMs a = bucketEpochMs b) : a = b := by
  rw [bucketEpochMs, bucketEpochMs] at h
  rw [← Int.tdiv_mul_cancel ha, ← Int.tdiv_mul_cancel hb, h]

/-- The dictionary of counts. -/
theorem get_counts {buckets : List Int} (hbuckets : ∀ b ∈ buckets, (1000 : Int) ∣ b) {b : Int} (hb : (1000 : Int) ∣ b) :
    ((Dict.update ∅ ((countBuckets buckets).map fun entry => (bucketEpochMs entry.1, entry.2))).get
      (bucketEpochMs b)).getD 0 = buckets.count b := by
  have hkeys : (((countBuckets buckets).map fun entry => (bucketEpochMs entry.1, entry.2)).map Prod.fst).Nodup := by
    rw [countBuckets, List.map_map, List.map_map]
    refine List.Nodup.map_on ?_ ((List.perm_insertionSort _ _).nodup_iff.2 (List.nodup_dedup buckets))
    intro x hx y hy hxy
    rw [(List.perm_insertionSort _ _).mem_iff, List.mem_dedup] at hx hy
    exact bucketEpochMs_inj (hbuckets x hx) (hbuckets y hy) hxy
  rw [Dict.get_update_nodup hkeys, Dict.get_empty, Option.or_none]
  have hmem : ∀ c ∈ buckets, (bucketEpochMs c, buckets.count c) ∈ (countBuckets buckets).map fun entry =>
      (bucketEpochMs entry.1, entry.2) := by
    intro c hc
    refine List.mem_map.2 ⟨(c, buckets.count c), List.mem_map.2 ⟨c, ?_, rfl⟩, rfl⟩
    rw [(List.perm_insertionSort _ _).mem_iff, List.mem_dedup]
    exact hc
  by_cases hcount : b ∈ buckets
  · rw [(Dict.lookup_eq_some_iff hkeys).2 (hmem b hcount), Option.getD_some]
  · rw [List.count_eq_zero_of_not_mem hcount]
    cases hlookup : Dict.lookup ((countBuckets buckets).map fun entry => (bucketEpochMs entry.1, entry.2))
      (bucketEpochMs b) with
    | none => rfl
    | some n =>
      obtain ⟨⟨c, m⟩, hentry, hsame⟩ := List.mem_map.1 ((Dict.lookup_eq_some_iff hkeys).1 hlookup)
      obtain ⟨d, hd, hdc⟩ := List.mem_map.1 hentry
      rw [(List.perm_insertionSort _ _).mem_iff, List.mem_dedup] at hd
      obtain ⟨rfl, -⟩ := Prod.mk.inj hdc
      obtain ⟨hms, -⟩ := Prod.mk.inj hsame
      exact absurd (bucketEpochMs_inj (hbuckets d hd) hb hms ▸ hd) hcount

end Counts

/-! ## The walk -/

/-- **The walk as the list of buckets**, unless it steps out of the year 9999. -/
theorem walk_eq (values : Dict Int Nat) (bucket : BucketName) (stop : Datetime) :
    ∀ (n : Nat) (cursor : Datetime), cursor.offset = 0 →
    tickCount bucket.resolution cursor.instant stop.instant = n →
    walk values bucket stop cursor = if InRange (cursor.instant + n * bucket.resolution) then
      .ok ((ticks bucket.resolution cursor.instant n).map fun b =>
        (bucketEpochMs b, (values.get (bucketEpochMs b)).getD 0))
      else .error .overflow := by
  have hpos := resolution_pos bucket
  intro n
  induction n with
  | zero =>
    intro cursor hutc hcount
    have hlt : ¬cursor.instant ≤ stop.instant := by
      intro hle
      rw [tickCount_of_le hpos hle] at hcount
      omega
    rw [walk, if_neg hlt, ticks_zero, Nat.cast_zero, zero_mul, add_zero, if_pos (instant_inRange hutc)]
    rfl
  | succ n ih =>
    intro cursor hutc hcount
    have hle : cursor.instant ≤ stop.instant := by
      by_contra hlt
      rw [tickCount_of_lt hpos (not_le.1 hlt)] at hcount
      omega
    have hnext : tickCount bucket.resolution (cursor.instant + bucket.resolution) stop.instant = n := by
      rw [tickCount_of_le hpos hle] at hcount
      omega
    have hend : cursor.instant + ((n + 1 : Nat) : Int) * bucket.resolution =
        cursor.instant + bucket.resolution + n * bucket.resolution := by
      push_cast
      ring
    rw [walk, if_pos hle, hend, ticks_succ]
    split
    · rename_i hnone
      have hout : ¬InRange (cursor.instant + bucket.resolution) := by
        rw [← fromMicroseconds_isSome, hnone]
        exact Bool.false_ne_true
      have hfirst := instant_inRange hutc
      have hlater : 0 ≤ (n : Int) * bucket.resolution := mul_nonneg (Int.natCast_nonneg n) hpos.le
      rw [if_neg]
      intro hrange
      exact hout ⟨by have := hfirst.1; omega, by have := hrange.2; omega⟩
    · rename_i next hsome
      obtain ⟨hinstant, hoffset⟩ := fromMicroseconds_eq_some hsome
      rw [← hinstant] at hnext ⊢
      rw [ih next hoffset hnext]
      split <;> rfl

/-! ## Timelines -/

/-- The bucket after the last one of the walk begins before the year 10000. -/
def Fits (bucket : BucketName) (start stop : Int) : Prop :=
  dateTrunc bucket start ≤ stop → InRange (dateTrunc bucket stop + bucket.resolution)

/-- A series counts the rows: its buckets follow each other, each row is in one of them, and each is the
number of its rows. -/
structure Conserves (bucket : BucketName) (time : JobTimes → Option Int) (matched : List JobTimes)
    (series : List (Int × Nat)) : Prop where
  steps : series.IsChain fun a b => b.1 = a.1 + bucket.resolution / 1000
  contains : ∀ row ∈ matched, ∀ t ∈ time row, bucketEpochMs (dateTrunc bucket t) ∈ series.map Prod.fst
  counts : ∀ entry ∈ series, entry.2 =
    matched.countP fun row => decide ((time row).map (fun t => bucketEpochMs (dateTrunc bucket t)) = some entry.1)
  total_eq : total series = matched.length

section Series
variable {db : Queries} {rows : List JobTimes} {time : JobTimes → Option Int}
    {wanted : JobTimes → Bool} {username : Str}
  {bucket : BucketName} {start stop : Datetime}

theorem fits_iff (h : start.offset = 0) : Fits bucket start.instant stop.instant ↔
    InRange (dateTrunc bucket start.instant +
    tickCount bucket.resolution (dateTrunc bucket start.instant) stop.instant * bucket.resolution) := by
  have hpos := resolution_pos bucket
  by_cases hle : dateTrunc bucket start.instant ≤ stop.instant
  · rw [Fits, dateTrunc, dateTrunc, add_tickCount hpos hle]
    exact ⟨fun himp => himp hle, fun hrange _ => hrange⟩
  · obtain ⟨aligned, -, hinstant, hutc⟩ := alignBucket_instant h bucket
    rw [tickCount_of_lt hpos (not_le.1 hle), Nat.cast_zero, zero_mul, add_zero, ← hinstant]
    exact iff_of_true (fun himp => absurd himp (hinstant ▸ hle)) (instant_inRange hutc)

/-- The series of a window. -/
def seriesOf (bucket : BucketName) (start stop : Int) (buckets : List Int) : List (Int × Nat) :=
  (ticks bucket.resolution (dateTrunc bucket start)
    (tickCount bucket.resolution (dateTrunc bucket start) stop)).map fun b =>
    (bucketEpochMs b, buckets.count b)

theorem dvd_of_mem_ticks {n : Nat} {t b : Int} (h : b ∈ ticks bucket.resolution (dateTrunc bucket t) n) :
    (1000 : Int) ∣ b := by
  obtain ⟨i, -, rfl⟩ := List.mem_map.1 h
  have hresolution : (1000 : Int) ∣ bucket.resolution := by cases bucket <;> decide
  exact dvd_add (dateTrunc_dvd bucket t) (Dvd.dvd.mul_left hresolution _)

theorem timeline_ok (h : start.offset = 0) (hfits : Fits bucket start.instant stop.instant) :
    timeline db rows time wanted username start stop bucket = .ok (seriesOf bucket start.instant stop.instant
      (selectBuckets db time wanted username bucket start.instant stop.instant rows)) := by
  obtain ⟨aligned, haligned, hinstant, hutc⟩ := alignBucket_instant h bucket
  rw [fits_iff h, ← hinstant] at hfits
  rw [timeline, haligned]
  change walk _ bucket stop aligned = _
  rw [walk_eq _ bucket stop _ aligned hutc rfl, if_pos hfits, seriesOf, hinstant]
  refine congrArg Except.ok (List.map_congr_left fun b hb => ?_)
  rw [get_counts ?_ (dvd_of_mem_ticks hb)]
  intro c hc
  obtain ⟨row, -, hrow⟩ := List.mem_filterMap.1 hc
  obtain ⟨t, -, rfl⟩ := Option.map_eq_some_iff.1 hrow
  exact dateTrunc_dvd bucket t

theorem timeline_overflow (h : start.offset = 0) (hfits : ¬Fits bucket start.instant stop.instant) :
    timeline db rows time wanted username start stop bucket = .error .overflow := by
  obtain ⟨aligned, haligned, hinstant, hutc⟩ := alignBucket_instant h bucket
  rw [fits_iff h, ← hinstant] at hfits
  rw [timeline, haligned]
  change walk _ bucket stop aligned = _
  rw [walk_eq _ bucket stop _ aligned hutc rfl, if_neg hfits]

/-- The buckets in milliseconds. -/
theorem ms_add {b : Int} (hb : (1000 : Int) ∣ b) :
    bucketEpochMs (b + bucket.resolution) = bucketEpochMs b + bucket.resolution / 1000 := by
  obtain ⟨k, rfl⟩ := hb
  have hresolution : bucket.resolution = 1000 * (bucket.resolution / 1000) := by cases bucket <;> rfl
  rw [bucketEpochMs, bucketEpochMs, hresolution, ← mul_add, Int.mul_tdiv_cancel_left _ (by decide),
    Int.mul_tdiv_cancel_left _ (by decide), Int.mul_ediv_cancel_left _ (by decide)]

theorem isChain_seriesOf (bucket : BucketName) (buckets : List Int) : ∀ (n : Nat) {start : Int}, (1000 : Int) ∣ start →
    ((ticks bucket.resolution start n).map fun b => (bucketEpochMs b, buckets.count b)).IsChain
      fun a b => b.1 = a.1 + bucket.resolution / 1000
  | 0, _, _ => List.isChain_nil
  | 1, start, _ => by
    rw [ticks_succ, ticks_zero]
    exact List.isChain_singleton _
  | n + 2, start, hstart => by
    have hresolution : (1000 : Int) ∣ bucket.resolution := by cases bucket <;> decide
    have ih := isChain_seriesOf bucket buckets (n + 1) (dvd_add hstart hresolution)
    rw [ticks_succ] at ih ⊢
    rw [ticks_succ]
    exact List.isChain_cons_cons.2 ⟨ms_add hstart, ih⟩

/-- **The series of a window counts its rows.** -/
theorem conserves_seriesOf {start stop : Int} (hkeys : (rows.map JobTimes.key).Nodup) :
    Conserves bucket time (matching db time wanted username start stop rows)
      (seriesOf bucket start stop (selectBuckets db time wanted username bucket start stop rows)) := by
  have hpos := resolution_pos bucket
  have hperm := @selectBuckets_perm db rows time wanted username bucket start stop hkeys
  have hticks : ∀ row ∈ matching db time wanted username start stop rows, ∀ t ∈ time row,
      dateTrunc bucket t ∈ ticks bucket.resolution (dateTrunc bucket start)
        (tickCount bucket.resolution (dateTrunc bucket start) stop) := by
    intro row hrow t ht
    obtain ⟨t', ht', hstart, hstop⟩ := time_of_mem_matching hrow
    obtain rfl : t' = t := Option.some.inj (ht'.symm.trans ht)
    exact floorTo_mem_ticks hpos hstart hstop
  have hbuckets : ∀ b ∈ selectBuckets db time wanted username bucket start stop rows,
      b ∈ ticks bucket.resolution (dateTrunc bucket start)
        (tickCount bucket.resolution (dateTrunc bucket start) stop) := by
    intro b hb
    obtain ⟨row, hrow, hrowTime⟩ := List.mem_filterMap.1 (hperm.mem_iff.1 hb)
    obtain ⟨t, ht, rfl⟩ := Option.map_eq_some_iff.1 hrowTime
    exact hticks row hrow t ht
  refine ⟨isChain_seriesOf bucket _ _ (dateTrunc_dvd bucket start), fun row hrow t ht => ?_, fun entry hentry => ?_, ?_⟩
  · rw [seriesOf, List.map_map]
    exact List.mem_map.2 ⟨_, hticks row hrow t ht, rfl⟩
  · obtain ⟨b, hb, rfl⟩ := List.mem_map.1 hentry
    dsimp only
    rw [hperm.count_eq, List.count_filterMap]
    refine List.countP_congr fun row hrow => ?_
    cases htime : time row with
    | none => simp
    | some t =>
      simp only [Option.map_some, beq_iff_eq, decide_eq_true_eq, Option.some_inj]
      exact ⟨fun hsame => congrArg bucketEpochMs hsame,
        bucketEpochMs_inj (dateTrunc_dvd bucket t) (dvd_of_mem_ticks hb)⟩
  · have hlength : (selectBuckets db time wanted username bucket start stop rows).length =
        (matching db time wanted username start stop rows).length := by
      rw [hperm.length_eq, List.length_filterMap_eq_countP, List.countP_eq_length]
      intro row hrow
      obtain ⟨t, ht, -⟩ := time_of_mem_matching hrow
      rw [ht]
      rfl
    have hsum := sum_countP id (nodup_ticks hpos (dateTrunc bucket start)
      (tickCount bucket.resolution (dateTrunc bucket start) stop)) hbuckets
    rw [← hlength, ← hsum, total, seriesOf, List.map_map]
    refine congrArg List.sum (List.map_congr_left fun b _ => ?_)
    rw [Function.comp_apply, List.count_eq_countP]
    rfl

end Series

/-! ## Histories -/

/-- The jobs that started, ended or were seen in a state in a window. -/
def submitted (db : Queries) (rows : List JobTimes) (username : Str) (start stop : Int) : List JobTimes :=
  matching db submissionTime (fun _ => true) username start stop rows

def completed (db : Queries) (rows : List JobTimes) (username : Str) (start stop : Int) : List JobTimes :=
  matching db completionTime (inStates db Jobs.terminalStates) username start stop rows

def seenIn (db : Queries) (rows : List JobTimes) (username : Str) (states : List Str)
    (start stop : Int) : List JobTimes :=
  matching db stateTime (inStates db states) username start stop rows

/-- Every series of a history counts its jobs, and so does every total. -/
structure HistoryConserves (db : Queries) (rows : List JobTimes) (username : Str) (start stop : Datetime)
    (history : UserHistory) : Prop where
  window : history.windowStart = start.isoformat ∧ history.windowEnd = stop.isoformat
  submissions : Conserves (windowBucket start stop) submissionTime
    (submitted db rows username start.instant stop.instant) history.submissions
  submittedJobs : history.submittedJobs = (submitted db rows username start.instant stop.instant).length
  completions : Conserves (windowBucket start stop) completionTime
    (completed db rows username start.instant stop.instant) history.completions
  completedJobs : history.completedJobs = (completed db rows username start.instant stop.instant).length
  stateSeries : List.Forall₂ (fun group entry => entry.1 = group.1 ∧ Conserves (windowBucket start stop) stateTime
    (seenIn db rows username group.2 start.instant stop.instant) entry.2) userHistoryStateGroups history.stateSeries
  stateTotals : List.Forall₂ (fun group entry => entry.1 = group.1 ∧
    entry.2 = (seenIn db rows username group.2 start.instant stop.instant).length)
      userHistoryStateGroups history.stateTotals

section History
variable {db : Queries} {rows : List JobTimes} {username : Str} {start stop : Datetime}

theorem resolve_window (h : start.instant < stop.instant) (clock : Datetime × Datetime) (rangeName : Option Str) :
    resolveHistoryWindowAndBucket clock rangeName (some start) (some stop) =
      .ok (start, stop, windowBucket start stop) :=
  if_neg (not_le.2 h)

theorem fits_of_lt {bucket : BucketName} (h : start.instant < stop.instant) :
    Fits bucket start.instant stop.instant ↔ InRange (dateTrunc bucket stop.instant + bucket.resolution) := by
  have hle : dateTrunc bucket start.instant ≤ stop.instant := (floorTo_le (resolution_pos bucket)).trans h.le
  exact ⟨fun hfits => hfits hle, fun hrange _ => hrange⟩

theorem history_ok (hkeys : (rows.map JobTimes.key).Nodup) (hutc : start.offset = 0) (h : start.instant < stop.instant)
    (hfits : Fits (windowBucket start stop) start.instant stop.instant) (clock : Datetime × Datetime)
      (rangeName : Option Str) :
    ∃ history, userMetricsHistory db rows username clock rangeName (some start) (some stop) = .ok history ∧
      HistoryConserves db rows username start stop history := by
  have hstate : ∀ states : List Str,
      stateTimeline db rows username states clock rangeName (some start) (some stop) =
        .ok (seriesOf (windowBucket start stop)
        start.instant stop.instant (selectBuckets db stateTime (inStates db states) username (windowBucket start stop)
          start.instant stop.instant rows)) := by
    intro states
    rw [stateTimeline, resolve_window h]
    exact timeline_ok hutc hfits
  have hseries : userHistoryStateGroups.mapM (fun group => do
      return (group.1, ← stateTimeline db rows username group.2 clock rangeName (some start) (some stop))) =
      Except.ok (userHistoryStateGroups.map fun group =>
        (group.1, seriesOf (windowBucket start stop) start.instant stop.instant
        (selectBuckets db stateTime (inStates db group.2) username (windowBucket start stop) start.instant
          stop.instant rows))) := by
    simp only [hstate, userHistoryStateGroups]
    rfl
  have hsubmissions : submissionTimeline db rows username clock rangeName (some start) (some stop) =
      .ok (seriesOf (windowBucket start stop) start.instant stop.instant
        (selectBuckets db submissionTime (fun _ => true) username (windowBucket start stop) start.instant
          stop.instant rows)) := by
    rw [submissionTimeline, resolve_window h]
    exact timeline_ok hutc hfits
  have hcompletions : completionTimeline db rows username clock rangeName (some start) (some stop) =
      .ok (seriesOf (windowBucket start stop) start.instant stop.instant
        (selectBuckets db completionTime (inStates db Jobs.terminalStates) username (windowBucket start stop)
          start.instant stop.instant rows)) := by
    rw [completionTimeline, resolve_window h]
    exact timeline_ok hutc hfits
  rw [userMetricsHistory, resolve_window h, Except.ok_bind]
  dsimp only
  rw [hsubmissions, Except.ok_bind, hcompletions, Except.ok_bind, hseries, Except.ok_bind]
  refine ⟨_, rfl, ?_⟩
  refine ⟨⟨rfl, rfl⟩, conserves_seriesOf hkeys, (conserves_seriesOf hkeys).total_eq, conserves_seriesOf hkeys,
    (conserves_seriesOf hkeys).total_eq, ?_, ?_⟩
  · exact List.forall₂_map_right_iff.2 (List.forall₂_same.2 fun group _ => ⟨rfl, conserves_seriesOf hkeys⟩)
  · dsimp only
    rw [List.map_map]
    exact List.forall₂_map_right_iff.2 (List.forall₂_same.2 fun group _ => ⟨rfl, (conserves_seriesOf hkeys).total_eq⟩)

theorem history_overflow (hutc : start.offset = 0) (h : start.instant < stop.instant)
    (hfits : ¬Fits (windowBucket start stop) start.instant stop.instant) (clock : Datetime × Datetime)
      (rangeName : Option Str) :
    userMetricsHistory db rows username clock rangeName (some start) (some stop) = .error .overflow := by
  have hsubmissions : submissionTimeline db rows username clock rangeName (some start) (some stop) =
      .error .overflow := by
    rw [submissionTimeline, resolve_window h]
    exact timeline_overflow hutc hfits
  rw [userMetricsHistory, resolve_window h, Except.ok_bind]
  dsimp only
  rw [hsubmissions, Except.error_bind]

/-- The bucket after the last one of a window begins before the year 10000. -/
def HasNext (start stop : Int) : Prop :=
  InRange (dateTrunc (durationBucket (stop - start)) stop + (durationBucket (stop - start)).resolution)

theorem history_window_iff (hkeys : (rows.map JobTimes.key).Nodup) (hutc : start.offset = 0)
    (h : start.instant < stop.instant) (clock : Datetime × Datetime) (rangeName : Option Str) :
    (∃ history, userMetricsHistory db rows username clock rangeName (some start) (some stop) = .ok history ∧
      HistoryConserves db rows username start stop history) ↔ HasNext start.instant stop.instant := by
  have hiff : Fits (windowBucket start stop) start.instant stop.instant ↔
      HasNext start.instant stop.instant := fits_of_lt h
  rw [← hiff]
  constructor
  · rintro ⟨history, hhistory, -⟩
    by_contra hfits
    rw [history_overflow hutc h hfits] at hhistory
    cases hhistory
  · intro hfits
    exact history_ok hkeys hutc h hfits clock rangeName

theorem resolve_range {rangeName : Str} {bucket : BucketName} {length : Int}
    (hrange : rangeBucket rangeName = some (bucket, length))
    (clock : Datetime × Datetime) : resolveHistoryWindowAndBucket clock (some rangeName) none none =
      (orHistoryError (addMicroseconds clock.1 (-length)) >>= fun start => .ok (start, clock.2, bucket)) := by
  have hname : rangeName ≠ [] := by
    rintro rfl
    cases hrange
  rw [resolveHistoryWindowAndBucket, hrange]
  · rfl
  · exact hname

/-- A window is resolved once more by each timeline, to itself. -/
theorem history_resolved {clock : Datetime × Datetime} {rangeName : Option Str} {first last : Option Datetime}
    {bucket : BucketName}
    (hresolve : resolveHistoryWindowAndBucket clock rangeName first last = .ok (start, stop, bucket))
      (h : start.instant < stop.instant) :
    userMetricsHistory db rows username clock rangeName first last =
      userMetricsHistory db rows username clock rangeName (some start) (some stop) := by
  rw [userMetricsHistory, userMetricsHistory, hresolve, resolve_window h]
  rfl

/-- A history by the name of a range is that of the window from the range before the first reading of the
clock to the second. -/
theorem history_range_iff (hkeys : (rows.map JobTimes.key).Nodup) {rangeName : Str} {bucket : BucketName} {length : Int}
    (hrange : rangeBucket rangeName = some (bucket, length)) (clock : Datetime × Datetime) :
    (∃ history start, userMetricsHistory db rows username clock (some rangeName) none none = .ok history ∧
      start.instant = clock.1.instant - length ∧ HistoryConserves db rows username start clock.2 history) ↔
    InRange (clock.1.instant - length) ∧ clock.1.instant - length < clock.2.instant ∧
      HasNext (clock.1.instant - length) clock.2.instant := by
  have hresolve := resolve_range hrange clock
  rw [sub_eq_add_neg]
  by_cases hin : InRange (clock.1.instant + -length)
  · obtain ⟨start, hstart, hinstant, hutc⟩ := addMicroseconds_ok hin
    rw [hstart] at hresolve
    rw [← hinstant]
    by_cases hlt : start.instant < clock.2.instant
    · have hwindow : (∃ history, userMetricsHistory db rows username clock (some rangeName) (some start)
          (some clock.2) = .ok history ∧
          HistoryConserves db rows username start clock.2 history) ↔ HasNext start.instant clock.2.instant :=
        history_window_iff hkeys hutc hlt clock (some rangeName)
      rw [← history_resolved hresolve hlt] at hwindow
      constructor
      · rintro ⟨history, start', hhistory, hinstant', hconserves⟩
        refine ⟨hinstant ▸ hin, hlt, ?_⟩
        by_contra hnext
        rw [history_resolved hresolve hlt, history_overflow hutc hlt fun hfits =>
          hnext ((fits_of_lt hlt).1 hfits)] at hhistory
        cases hhistory
      · rintro ⟨-, -, hnext⟩
        obtain ⟨history, hhistory, hconserves⟩ := hwindow.2 hnext
        exact ⟨history, start, hhistory, rfl, hconserves⟩
    · refine iff_of_false ?_ fun h => hlt h.2.1
      rintro ⟨history, start', hhistory, -⟩
      have hvalue : submissionTimeline db rows username clock (some rangeName) (some start) (some clock.2) =
          .error (.value "start must be earlier than end".toList) := by
        rw [submissionTimeline, resolveHistoryWindowAndBucket, if_pos (not_lt.1 hlt)]
        rfl
      rw [userMetricsHistory, hresolve] at hhistory
      change (submissionTimeline db rows username clock (some rangeName) (some start)
        (some clock.2) >>= _) = _ at hhistory
      rw [hvalue] at hhistory
      cases hhistory
  · rw [addMicroseconds_overflow hin] at hresolve
    refine iff_of_false ?_ fun h => hin h.1
    rintro ⟨history, start', hhistory, -⟩
    rw [userMetricsHistory, hresolve] at hhistory
    cases hhistory

theorem range_timeline_iff (hkeys : (rows.map JobTimes.key).Nodup) {rangeName : Str}
    {bucket : BucketName} {length : Int}
    (hrange : rangeBucket rangeName = some (bucket, length)) (clock : Datetime × Datetime) :
    (∃ series, submissionTimeline db rows username clock (some rangeName) none none = .ok series ∧
      Conserves bucket submissionTime (submitted db rows username (clock.1.instant - length) clock.2.instant) series) ↔
    InRange (clock.1.instant - length) ∧ Fits bucket (clock.1.instant - length) clock.2.instant := by
  rw [submissionTimeline, resolve_range hrange, sub_eq_add_neg]
  by_cases hin : InRange (clock.1.instant + -length)
  · obtain ⟨start, hstart, hinstant, hutc⟩ := addMicroseconds_ok hin
    rw [hstart, ← hinstant]
    change (∃ series, timeline db rows submissionTime (fun _ => true) username start clock.2
      bucket = .ok series ∧ _) ↔ _
    constructor
    · rintro ⟨series, hseries, -⟩
      refine ⟨hinstant ▸ hin, ?_⟩
      by_contra hfits
      rw [timeline_overflow hutc hfits] at hseries
      cases hseries
    · rintro ⟨-, hfits⟩
      exact ⟨_, timeline_ok hutc hfits, conserves_seriesOf hkeys⟩
  · rw [addMicroseconds_overflow hin]
    refine iff_of_false ?_ fun h => hin h.1
    rintro ⟨series, hseries, -⟩
    cases hseries

/-- **Series count their jobs.** A window has its history when the bucket after the last one begins before
the year 10000; so has a range by its name, which is resolved to a window, and so has a timeline of
submissions, in the buckets of its range. -/
theorem history_iff (db : Queries) (rows : List JobTimes) (hkeys : (rows.map JobTimes.key).Nodup) (username : Str) :
    (∀ (clock : Datetime × Datetime) (rangeName : Option Str) (start stop : Datetime),
      start.offset = 0 → stop.offset = 0 → start.instant < stop.instant →
      ((∃ history, userMetricsHistory db rows username clock rangeName (some start) (some stop) = .ok history ∧
        HistoryConserves db rows username start stop history) ↔ HasNext start.instant stop.instant)) ∧
    ∀ (clock : Datetime × Datetime) (rangeName : Str) (bucket : BucketName) (length : Int),
      rangeBucket rangeName = some (bucket, length) →
      ((∃ history start, userMetricsHistory db rows username clock (some rangeName) none none = .ok history ∧
        start.instant = clock.1.instant - length ∧ HistoryConserves db rows username start clock.2 history) ↔
      InRange (clock.1.instant - length) ∧ clock.1.instant - length < clock.2.instant ∧
        HasNext (clock.1.instant - length) clock.2.instant) ∧
      ((∃ series, submissionTimeline db rows username clock (some rangeName) none none = .ok series ∧
        Conserves bucket submissionTime (submitted db rows username (clock.1.instant - length)
          clock.2.instant) series) ↔
      InRange (clock.1.instant - length) ∧ Fits bucket (clock.1.instant - length) clock.2.instant) :=
  ⟨fun clock rangeName _ _ hutc _ hlt => history_window_iff hkeys hutc hlt clock rangeName,
    fun clock _ _ _ hrange => ⟨history_range_iff hkeys hrange clock, range_timeline_iff hkeys hrange clock⟩⟩

end History

/-- An hour of the last day of the year. -/
def lastDay (year hour minute : Nat) (h : 1 ≤ year ∧ year ≤ 9999) (hhour : hour < 24)
    (hminute : minute < 60) : Datetime where
  year := year
  month := 12
  day := 31
  hour := hour
  minute := minute
  second := 0
  microsecond := 0
  offset := 0
  year_le := h
  month_le := by decide
  day_le := ⟨by decide, Nat.le_refl 31⟩
  hour_lt := hhour
  minute_lt := hminute
  second_lt := zero_lt_minutes
  microsecond_lt := zero_lt_microseconds
  offset_lt := utc_lt

def lastDay2025 (hour minute : Nat) (hhour : hour < 24) (hminute : minute < 60) : Datetime :=
  lastDay 2025 hour minute (by decide) hhour hminute

def lastDay9999 (hour minute : Nat) (hhour : hour < 24) (hminute : minute < 60) : Datetime :=
  lastDay 9999 hour minute (by decide) hhour hminute

/-- One job that was submitted at 22:15. -/
def lateJob (user : Int) : JobTimes :=
  ⟨1, some 1767219300000000, none, none, some 1767219300000000, some "PENDING".toList, some user⟩

def oneUser : Queries := ⟨id, fun id => if id = 7 then some "alice".toList else none⟩

/-- Half an hour before midnight. -/
def lateClock : Datetime × Datetime :=
  (lastDay2025 23 30 (by decide) (by decide), lastDay2025 23 30 (by decide) (by decide))

/-- The history of two hours, and the history and the timeline of a day. -/
theorem history_iff_lateJob :
    (∃ history, userMetricsHistory oneUser [lateJob 7] "alice".toList lateClock none
      (some (lastDay2025 22 0 (by decide) (by decide))) (some lateClock.2) = .ok history ∧
      HistoryConserves oneUser [lateJob 7] "alice".toList (lastDay2025 22 0 (by decide) (by decide))
        lateClock.2 history) ∧
    (∃ history start, userMetricsHistory oneUser [lateJob 7] "alice".toList lateClock (some "day".toList)
      none none = .ok history ∧ start.instant = lateClock.1.instant - 86400000000 ∧
      HistoryConserves oneUser [lateJob 7] "alice".toList start lateClock.2 history) ∧
    (∃ series, submissionTimeline oneUser [lateJob 7] "alice".toList lateClock (some "day".toList)
      none none = .ok series ∧ Conserves .hour submissionTime
        (submitted oneUser [lateJob 7] "alice".toList (lateClock.1.instant - 86400000000) lateClock.2.instant) series) ∧
    submitted oneUser [lateJob 7] "alice".toList (lateClock.1.instant - 86400000000) lateClock.2.instant ≠ [] := by
  obtain ⟨hwindow, hranges⟩ := history_iff oneUser [lateJob 7] (List.nodup_singleton _) "alice".toList
  obtain ⟨hrange, htimeline⟩ := hranges lateClock "day" .hour 86400000000 (by decide)
  have hnext : HasNext (lastDay2025 22 0 (by decide) (by decide)).instant lateClock.2.instant := by
    unfold HasNext
    decide
  have hnextDay : HasNext (lateClock.1.instant - 86400000000) lateClock.2.instant := by
    unfold HasNext
    decide
  have hfits : Fits .hour (lateClock.1.instant - 86400000000) lateClock.2.instant := by
    unfold Fits
    decide
  refine ⟨(hwindow lateClock none _ _ rfl rfl (by decide)).2 hnext,
    hrange.2 ⟨by decide, by decide, hnextDay⟩, htimeline.2 ⟨by decide, hfits⟩, ?_⟩
  rw [submitted, matching, Ne, List.filter_eq_nil_iff, not_forall]
  refine ⟨lateJob 7, ?_⟩
  simp only [List.mem_singleton, forall_const]
  decide

/-- In the last hour before the year 10000 there is no next bucket: no history is returned. -/
theorem history_lastHour : ¬ ∃ history, userMetricsHistory oneUser [] "alice".toList
    (lastDay2025 0 0 (by decide) (by decide), lastDay2025 0 0 (by decide) (by decide)) none
    (some (lastDay9999 22 0 (by decide) (by decide)))
      (some (lastDay9999 23 30 (by decide) (by decide))) = .ok history := by
  have hfits : ¬Fits (windowBucket (lastDay9999 22 0 (by decide) (by decide))
      (lastDay9999 23 30 (by decide) (by decide)))
      (lastDay9999 22 0 (by decide) (by decide)).instant (lastDay9999 23 30 (by decide) (by decide)).instant := by
    unfold Fits
    decide
  rintro ⟨history, hhistory⟩
  rw [history_overflow rfl (by decide) hfits] at hhistory
  cases hhistory

end SlurmWeb.Analytics
