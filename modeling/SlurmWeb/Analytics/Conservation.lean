import SlurmWeb.Analytics.DailyStats
import SlurmWeb.Lib.Gather

/-!
# Laws of the daily aggregation (slurmweb/persistence/user_analytics_store.py)

The aggregation is one pass over the jobs. With exact numbers its figures depend neither on the order of
the jobs nor on how the days are put together.

| here | there |
| --- | --- |
| `completedRowsForRebuildDay` | `completed_rows_for_rebuild_day` (scripts/rebuild-user-tool.py:184) |
| `rebuildPayload` | the loop over the days of `rebuild` (scripts/rebuild-user-tool.py:478) |
| `repairPayload` | `rebuild` (scripts/repair-user-tool-daily-stats.py:198), as far as the payload |

* `aggregate_total` — the pass as groups of rows and as counters.
* `payload_perm`, `payload_append` — orders of the rows, and days apart.
* `aggregate_laws` — all of these, and the two scripts.
-/

namespace SlurmWeb.Analytics

open Strings Py Jobs Gather

/-- The operations of `F` are those of exact numbers, and none raises. -/
class ExactNumbers (F : Type) [Python F] [AddCommMonoid F] [LinearOrder F] : Prop where
  literal_zero : (Python.literal 0 : F) = 0
  add_eq : ∀ x y : F, Python.add x y = x + y
  lt_eq : ∀ x y : F, Python.lt x y = decide (x < y)
  le_eq : ∀ x y : F, Python.le x y = decide (x ≤ y)
  floatOfInt_ok : ∀ n, ∃ x : F, Python.floatOfInt n = .ok x
  quantize_ok : ∀ x : F, ∃ y : F, Python.quantize x = .ok y

instance : ExactNumbers ℚ where
  literal_zero := Nat.cast_zero
  add_eq _ _ := rfl
  lt_eq _ _ := rfl
  le_eq _ _ := rfl
  floatOfInt_ok n := ⟨n, rfl⟩
  quantize_ok x := ⟨quantizeRat x, rfl⟩

variable {F : Type} [Python F]

/-! ## One row -/

def rowKey (tool : DailySource F → Str) (row : DailySource F) : Option DailyKey :=
  match row.activityDate, row.userId with
  | some activityDate, some userId => some ⟨activityDate, userId, tool row⟩
  | _, _ => none

/-- The runtime that is added. -/
def runtimeValue (row : DailySource F) : Option F :=
  match runtimeSeconds row with
  | .ok value => positiveNumericValue value
  | .error _ => none

def Bucket.addRow (bucket : Bucket F) (row : DailySource F) : Bucket F :=
  match row.usedMemoryGb with
  | none => bucket
  | some memory => bucket.count memory (positiveNumericValue row.usedCpuCoresAvg) (runtimeValue row)

def identified (row : DailySource F) : Bool := row.activityDate.isSome && row.userId.isSome

def counted (row : DailySource F) : Bool := identified row && row.usedMemoryGb.isSome

/-- What a list of rows adds to the counters. -/
def counters (rows : List (DailySource F)) : AggregateStats where
  rowsSeen := rows.length
  rowsMissingIdentity := rows.countP fun row => !identified row
  rowsSkippedMemory := rows.countP fun row => identified row && row.usedMemoryGb.isNone
  cpuMissing := rows.countP fun row => counted row && (positiveNumericValue row.usedCpuCoresAvg).isNone
  rowsCounted := rows.countP counted
  runtimeMissing := rows.countP fun row => counted row && (runtimeValue row).isNone

def AggregateStats.plus (a b : AggregateStats) : AggregateStats where
  rowsSeen := a.rowsSeen + b.rowsSeen
  rowsMissingIdentity := a.rowsMissingIdentity + b.rowsMissingIdentity
  rowsSkippedMemory := a.rowsSkippedMemory + b.rowsSkippedMemory
  cpuMissing := a.cpuMissing + b.cpuMissing
  rowsCounted := a.rowsCounted + b.rowsCounted
  runtimeMissing := a.runtimeMissing + b.runtimeMissing

theorem counters_append (rows rows' : List (DailySource F)) :
    counters (rows ++ rows') = (counters rows).plus (counters rows') := by
  simp [counters, AggregateStats.plus]

theorem counters_perm {rows rows' : List (DailySource F)} (h : rows.Perm rows') : counters rows = counters rows' := by
  simp only [counters, h.length_eq, h.countP_eq]

/-- Every row is counted once. -/
theorem counters_sum (rows : List (DailySource F)) : (counters rows).rowsSeen =
    (counters rows).rowsMissingIdentity + (counters rows).rowsSkippedMemory + (counters rows).rowsCounted := by
  simp only [counters]
  induction rows with
  | nil => rfl
  | cons row rows ih =>
    simp only [List.length_cons, List.countP_cons]
    cases hidentified : identified row <;> cases hmemory :
      row.usedMemoryGb <;> simp [counted, hidentified, hmemory] <;> omega

theorem AggregateStats.plus_assoc (a b c : AggregateStats) : (a.plus b).plus c = a.plus (b.plus c) := by
  simp [AggregateStats.plus, Nat.add_assoc]

theorem AggregateStats.zero_plus (a : AggregateStats) : AggregateStats.plus ⟨0, 0, 0, 0, 0, 0⟩ a = a := by
  simp [AggregateStats.plus]

/-! ## The pass -/

section
variable [AddCommMonoid F] [LinearOrder F] [ExactNumbers F]

theorem elapsedSeconds_ok (usageStats : Value F) : ∃ value, elapsedSeconds usageStats = .ok value := by
  have hfloat : ∀ v : Value F, ∃ value, Py.orElse (v.toFloat.map some) none = .ok value := by
    intro v
    cases v with
    | bool b =>
      obtain ⟨x, hx⟩ := ExactNumbers.floatOfInt_ok (F := F) (if b then 1 else 0)
      exact ⟨some x, by rw [Value.toFloat, hx]; rfl⟩
    | int n =>
      obtain ⟨x, hx⟩ := ExactNumbers.floatOfInt_ok (F := F) n
      exact ⟨some x, by rw [Value.toFloat, hx]; rfl⟩
    | str s =>
      rw [Value.toFloat]
      cases Python.floatOfStr (F := F) s with
      | none => exact ⟨none, rfl⟩
      | some x => exact ⟨some x, rfl⟩
    | _ => exact ⟨_, rfl⟩
  unfold elapsedSeconds
  split
  · split
    · dsimp only
      split
      · exact ⟨none, rfl⟩
      · exact hfloat _
    · exact ⟨none, rfl⟩
  · exact ⟨none, rfl⟩

theorem runtimeSeconds_ok (row : DailySource F) : ∃ value, runtimeSeconds row = .ok value := by
  unfold runtimeSeconds
  split
  · rename_i start stop _ _
    split
    · obtain ⟨x, hx⟩ := ExactNumbers.floatOfInt_ok (F := F) (stop - start)
      exact ⟨_, by rw [hx]; rfl⟩
    · exact elapsedSeconds_ok _
  · exact elapsedSeconds_ok _

/-- A row goes to the bucket of its key, and is counted. -/
theorem aggregateRow_total (tool : DailySource F → Str) (groups : Groups F) (stats : AggregateStats)
    (row : DailySource F) : aggregateRow (fun row => .ok (tool row)) groups stats row =
      .ok (Gather.step (rowKey tool) Bucket.empty Bucket.addRow groups row, stats.plus (counters [row])) := by
  obtain ⟨runtime, hruntime⟩ := runtimeSeconds_ok row
  unfold aggregateRow Gather.step rowKey
  cases hdate : row.activityDate with
  | none => simp [counters, counted, identified, hdate, AggregateStats.plus]
  | some activityDate =>
    cases huser : row.userId with
    | none => simp [counters, counted, identified, huser, AggregateStats.plus]
    | some userId =>
      cases hmemory : row.usedMemoryGb with
      | none => simp [counters, counted, identified, hdate, huser, hmemory, AggregateStats.plus, Bucket.addRow]
      | some memory =>
        simp [counters, counted, identified, hdate, huser, hmemory, AggregateStats.plus, Bucket.addRow,
          hruntime, runtimeValue, missing, List.countP_cons]

theorem aggregateRows_total (tool : DailySource F → Str) (rows : List (DailySource F)) (groups : Groups F)
    (stats : AggregateStats) : aggregateRows (fun row => .ok (tool row)) groups stats rows =
      .ok (gather (rowKey tool) Bucket.empty Bucket.addRow groups rows, stats.plus (counters rows)) := by
  induction rows generalizing groups stats with
  | nil => simp [aggregateRows, gather, counters, AggregateStats.plus]
  | cons row rows ih =>
    rw [aggregateRows, aggregateRow_total, Except.ok_bind]
    dsimp only
    rw [ih, gather_cons, AggregateStats.plus_assoc, ← counters_append, List.singleton_append]

/-! ## Buckets -/

/-- What a row adds to the total of a figure: nothing when it is not counted. -/
def share (figure : DailySource F → Option F) (row : DailySource F) : F :=
  if row.usedMemoryGb.isSome then (figure row).getD 0 else 0

/-- A bucket in terms of its rows. -/
def bucketOf (rows : List (DailySource F)) : Bucket F where
  jobsCount := (rows.filterMap DailySource.usedMemoryGb).length
  memoryTotal := (rows.filterMap DailySource.usedMemoryGb).sum
  memoryValues := rows.filterMap DailySource.usedMemoryGb
  cpuTotal := (rows.map (share fun row => positiveNumericValue row.usedCpuCoresAvg)).sum
  runtimeTotal := (rows.map (share runtimeValue)).sum

theorem addTo_eq (total : F) (value : Option F) : addTo total value = total + value.getD 0 := by
  cases value with
  | none => exact (add_zero total).symm
  | some value => exact ExactNumbers.add_eq total value

theorem bucketOf_append (rows : List (DailySource F)) (row : DailySource F) :
    bucketOf (rows ++ [row]) = (bucketOf rows).addRow row := by
  cases hmemory : row.usedMemoryGb with
  | none => simp [bucketOf, Bucket.addRow, hmemory, share]
  | some memory =>
    simp [bucketOf, Bucket.addRow, Bucket.count, hmemory, share, addTo_eq, ExactNumbers.add_eq]

theorem foldl_addRow (rows : List (DailySource F)) : rows.foldl Bucket.addRow Bucket.empty = bucketOf rows := by
  induction rows using List.reverseRecOn with
  | nil => simp [bucketOf, Bucket.empty, ExactNumbers.literal_zero]
  | append_singleton rows row ih => rw [List.foldl_append, ih, bucketOf_append, List.foldl_cons, List.foldl_nil]

theorem maximum_eq_max? (l : List F) : maximum l = l.max? := by
  cases l with
  | nil => rfl
  | cons a l =>
    rw [List.max?_cons', maximum]
    refine congrArg some (List.foldl_ext _ _ _ fun m v _ => ?_)
    simp only [ExactNumbers.lt_eq, decide_eq_true_eq, max_def_lt]

theorem maximum_perm {l l' : List F} (h : l.Perm l') : maximum l = maximum l' := by
  rw [maximum_eq_max?, maximum_eq_max?]
  exact List.max?_eq_of_cofinal (fun a ha => ⟨a, h.mem_iff.1 ha, le_rfl⟩) fun b hb => ⟨b, h.mem_iff.2 hb, le_rfl⟩

theorem median_perm {l l' : List F} (h : l.Perm l') : median l = median l' := by
  have hsort : ∀ l : List F, l.insertionSort (fun a b => Python.le a b = true) = l.insertionSort (· ≤ ·) := by
    intro l
    induction l with
    | nil => rfl
    | cons a l ih =>
      rw [List.insertionSort_cons, List.insertionSort_cons, ih]
      simp only [ExactNumbers.le_eq, decide_eq_true_eq]
  have hperm : (l.insertionSort (· ≤ ·)).Perm (l'.insertionSort (· ≤ ·)) :=
    (List.perm_insertionSort _ _).trans (h.trans (List.perm_insertionSort _ _).symm)
  have hsame := hperm.eq_of_pairwise' (List.pairwise_insertionSort _ _) (List.pairwise_insertionSort _ _)
  unfold median
  rw [hsort, hsort, hsame]

/-- The figures of a bucket do not depend on the order of its rows. -/
theorem payload_bucketOf_perm {rows rows' : List (DailySource F)} (h : rows.Perm rows') :
    (bucketOf rows).payload = (bucketOf rows').payload := by
  have hmemories : (rows.filterMap DailySource.usedMemoryGb).Perm (rows'.filterMap DailySource.usedMemoryGb) :=
    h.filterMap _
  have hcpus := (h.map (share fun row => positiveNumericValue row.usedCpuCoresAvg)).sum_eq
  have hruntimes := (h.map (share (runtimeValue (F := F)))).sum_eq
  simp only [Bucket.payload, bucketOf, hmemories.sum_eq, hmemories.length_eq, maximum_perm hmemories,
    median_perm hmemories, hcpus, hruntimes]

theorem roundMetric_ok (value : Option F) : ∃ x, roundMetric value = .ok x := by
  cases value with
  | none => exact ⟨none, rfl⟩
  | some value =>
    obtain ⟨x, hx⟩ := ExactNumbers.quantize_ok value
    exact ⟨some x, by rw [roundMetric, hx]; rfl⟩

theorem avg_ok (total : F) (samples : Nat) : ∃ x, avg total samples = .ok x := by
  rw [avg]
  split
  · exact ⟨none, rfl⟩
  · obtain ⟨x, hx⟩ := ExactNumbers.floatOfInt_ok (F := F) samples
    exact ⟨_, by rw [hx]; rfl⟩

theorem payload_ok (bucket : Bucket F) : ∃ stat, bucket.payload = .ok stat ∧ stat.jobsCount = bucket.jobsCount := by
  obtain ⟨memory, hmemory⟩ := avg_ok bucket.memoryTotal bucket.memoryValues.length
  obtain ⟨avgMemory, havgMemory⟩ := roundMetric_ok memory
  obtain ⟨maxMemory, hmaxMemory⟩ := roundMetric_ok (maximum bucket.memoryValues)
  obtain ⟨medianMemory, hmedianMemory⟩ := roundMetric_ok (median bucket.memoryValues)
  obtain ⟨cpu, hcpu⟩ := avg_ok bucket.cpuTotal bucket.jobsCount
  obtain ⟨avgCpu, havgCpu⟩ := roundMetric_ok cpu
  obtain ⟨runtime, hruntime⟩ := avg_ok bucket.runtimeTotal bucket.jobsCount
  obtain ⟨avgRuntime, havgRuntime⟩ := roundMetric_ok runtime
  refine ⟨⟨bucket.jobsCount, avgMemory, maxMemory, medianMemory, avgCpu, avgRuntime⟩, ?_, rfl⟩
  simp only [Bucket.payload, hmemory, Except.ok_bind, havgMemory, hmaxMemory, hmedianMemory, hcpu, havgCpu,
    hruntime, havgRuntime, Except.pure_eq_ok]

/-! ## The payload -/

/-- The payload is one row for each bucket with jobs. -/
theorem payloadOf_ok (entries : List (DailyKey × Bucket F)) : ∃ payload, payloadOf entries = .ok payload ∧
    List.Forall₂ (fun entry item => item.1 = entry.1 ∧ entry.2.payload = .ok item.2 ∧
      item.2.jobsCount = entry.2.jobsCount) (entries.filter fun entry => entry.2.jobsCount ≠ 0) payload := by
  have hreturns : ∀ entry ∈ entries.filter (fun entry => entry.2.jobsCount ≠ 0), ∃ item : DailyKey × DailyStat F,
      item.1 = entry.1 ∧ entry.2.payload = .ok item.2 ∧ item.2.jobsCount = entry.2.jobsCount := by
    intro entry _
    obtain ⟨stat, hstat, hjobs⟩ := payload_ok entry.2
    exact ⟨(entry.1, stat), rfl, hstat, hjobs⟩
  obtain ⟨payload, hpayload⟩ := List.exists_forall₂ hreturns
  refine ⟨payload, Except.mapM_eq_ok.2 (hpayload.imp ?_), hpayload⟩
  rintro entry ⟨key, stat⟩ ⟨hkey, hstat, -⟩
  rw [hstat, Except.ok_bind, ← hkey]
  rfl

omit [AddCommMonoid F] [LinearOrder F] [ExactNumbers F] in
theorem payloadOf_append (entries entries' : List (DailyKey × Bucket F))
    {payload payload' : List (DailyKey × DailyStat F)}
    (h : payloadOf entries = .ok payload) (h' : payloadOf entries' = .ok payload') :
    payloadOf (entries ++ entries') = .ok (payload ++ payload') := by
  rw [payloadOf, List.filter_append]
  exact Except.mapM_eq_ok.2 (List.rel_append (Except.mapM_eq_ok.1 h) (Except.mapM_eq_ok.1 h'))

def groupsOf (tool : DailySource F → Str) (rows : List (DailySource F)) : Groups F :=
  gather (rowKey tool) Bucket.empty Bucket.addRow ∅ rows

/-- **The pass as groups of rows and as counters.** -/
theorem aggregate_total (tool : DailySource F → Str) (rows : List (DailySource F)) :
    ∃ payload, aggregate (fun row => .ok (tool row)) rows = .ok (payload, counters rows) ∧
      payloadOf (groupsOf tool rows).entries = .ok payload ∧
      List.Forall₂ (fun entry item => item.1 = entry.1 ∧ entry.2.payload = .ok item.2 ∧
        item.2.jobsCount = entry.2.jobsCount)
        ((groupsOf tool rows).entries.filter fun entry => entry.2.jobsCount ≠ 0) payload := by
  obtain ⟨payload, hpayload, hitems⟩ := payloadOf_ok (groupsOf tool rows).entries
  refine ⟨payload, ?_, hpayload, hitems⟩
  rw [aggregate, aggregateRows_total, Except.ok_bind, AggregateStats.zero_plus]
  dsimp only
  rw [← groupsOf, hpayload]
  rfl

variable {tool : DailySource F → Str} {rows rows' : List (DailySource F)}
    {payload payload' : List (DailyKey × DailyStat F)}

/-- The rows that count for a key. -/
theorem mem_payload (h : payloadOf (groupsOf tool rows).entries = .ok payload) {key : DailyKey} {stat : DailyStat F} :
    (key, stat) ∈ payload ↔ (bucketOf (ofKey (rowKey tool) key rows)).jobsCount ≠ 0 ∧
      (bucketOf (ofKey (rowKey tool) key rows)).payload = .ok stat := by
  have hitems := Except.mapM_eq_ok.1 h
  have hentry : ∀ bucket, (key, bucket) ∈ (groupsOf tool rows).entries ↔
      ofKey (rowKey tool) key rows ≠ [] ∧ bucket = bucketOf (ofKey (rowKey tool) key rows) := by
    intro bucket
    rw [groupsOf, mem_gather, foldl_addRow]
  constructor
  · intro hmem
    obtain ⟨⟨key', bucket⟩, hbucket, hitem⟩ := hitems.exists_left _ hmem
    obtain ⟨stat', hstat, hitem⟩ := Except.bind_eq_ok.1 hitem
    obtain ⟨rfl, rfl⟩ := Prod.mk.inj (Except.ok.inj hitem)
    obtain ⟨hbucket, hjobs⟩ := List.mem_filter.1 hbucket
    have hsame := ((hentry bucket).1 hbucket).2
    rw [← hsame]
    exact ⟨of_decide_eq_true hjobs, hstat⟩
  · rintro ⟨hjobs, hstat⟩
    have hne : ofKey (rowKey tool) key rows ≠ [] := by
      intro hnil
      rw [hnil] at hjobs
      exact hjobs rfl
    obtain ⟨item, hmem, hitem⟩ := hitems.exists_right _
      (List.mem_filter.2 ⟨(hentry _).2 ⟨hne, rfl⟩, by simpa using hjobs⟩)
    rw [hstat] at hitem
    cases hitem
    exact hmem

omit [AddCommMonoid F] [LinearOrder F] [ExactNumbers F] in
/-- **Keys are distinct.** -/
theorem payload_nodup (h : payloadOf (groupsOf tool rows).entries = .ok payload) : (payload.map Prod.fst).Nodup := by
  rw [payloadOf_keys h]
  exact (List.Sublist.map Prod.fst List.filter_sublist).nodup (groupsOf tool rows).nodup

/-- **The order of the rows does not matter.** -/
theorem payload_perm (hrows : rows.Perm rows') (h : payloadOf (groupsOf tool rows).entries = .ok payload)
    (h' : payloadOf (groupsOf tool rows').entries = .ok payload') : payload.Perm payload' := by
  refine (List.perm_ext_iff_of_nodup (payload_nodup h).of_map (payload_nodup h').of_map).2 ?_
  rintro ⟨key, stat⟩
  have hkey := @ofKey_perm _ _ _ (rowKey tool) _ _ hrows key
  have hjobs : (bucketOf (ofKey (rowKey tool) key rows)).jobsCount =
      (bucketOf (ofKey (rowKey tool) key rows')).jobsCount :=
    (hkey.filterMap _).length_eq
  rw [mem_payload h, mem_payload h', hjobs, payload_bucketOf_perm hkey]

omit [AddCommMonoid F] [LinearOrder F] [ExactNumbers F] in
/-- **Days apart are put one after the other.** -/
theorem payload_append (hdates : ∀ row ∈ rows, ∀ row' ∈ rows', ∀ date, row.activityDate = some date →
    row'.activityDate ≠ some date)
    (h : payloadOf (groupsOf tool rows).entries = .ok payload)
      (h' : payloadOf (groupsOf tool rows').entries = .ok payload') :
    payloadOf (groupsOf tool (rows ++ rows')).entries = .ok (payload ++ payload') := by
  have hdate : ∀ {row : DailySource F} {key : DailyKey}, rowKey tool row = some key →
      row.activityDate = some key.activityDate := by
    intro row key hkey
    rw [rowKey] at hkey
    split at hkey
    · cases hkey
      assumption
    · cases hkey
  have hentries : (groupsOf tool (rows ++ rows')).entries = (groupsOf tool rows).entries ++
      (groupsOf tool rows').entries := by
    rw [groupsOf, gather, List.foldl_append, ← gather, ← gather]
    refine gather_append (List.append_nil _).symm ?_
    intro row' hrow' key hkey' hmem
    obtain ⟨row, hrow, hkey⟩ := mem_keys_gather.1 hmem
    exact hdates row hrow row' hrow' _ (hdate hkey) (hdate hkey')
  rw [hentries]
  exact payloadOf_append _ _ h h'

omit [AddCommMonoid F] [LinearOrder F] [ExactNumbers F] in
theorem jobsCount_addRow (bucket : Bucket F) (row : DailySource F) :
    (bucket.addRow row).jobsCount = bucket.jobsCount + if row.usedMemoryGb.isSome then 1 else 0 := by
  cases h : row.usedMemoryGb <;> simp [Bucket.addRow, h, Bucket.count]

omit [Python F] [AddCommMonoid F] [LinearOrder F] [ExactNumbers F] in
/-- Buckets without jobs have no row. -/
theorem sum_filter_jobs (entries : List (DailyKey × Bucket F)) :
    ((entries.filter fun entry => entry.2.jobsCount ≠ 0).map fun entry => entry.2.jobsCount).sum =
      (entries.map fun entry => entry.2.jobsCount).sum := by
  induction entries with
  | nil => rfl
  | cons entry entries ih =>
    rw [List.filter_cons, List.map_cons, List.sum_cons, ← ih]
    by_cases hzero : entry.2.jobsCount = 0
    · simp [hzero]
    · simp [hzero]

/-- **Every counted row is in one row of the payload.** -/
theorem payload_sum (h : payloadOf (groupsOf tool rows).entries = .ok payload) :
    (payload.map fun item => item.2.jobsCount).sum = rows.countP counted := by
  obtain ⟨payload', hpayload', hitems⟩ := payloadOf_ok (groupsOf tool rows).entries
  obtain rfl : payload' = payload := Except.ok.inj (hpayload'.symm.trans h)
  have hjobs : payload'.map (fun item => item.2.jobsCount) =
      ((groupsOf tool rows).entries.filter fun entry => entry.2.jobsCount ≠ 0).map fun entry => entry.2.jobsCount := by
    clear h hpayload'
    generalize (groupsOf tool rows).entries.filter _ = counted at hitems
    induction hitems with
    | nil => rfl
    | cons hitem _ ih => rw [List.map_cons, List.map_cons, ih, hitem.2.2]
  have hsum := @sum_gather _ _ _ Nat _ (rowKey tool) Bucket.empty Bucket.addRow _ (fun bucket : Bucket F =>
    bucket.jobsCount) _ rfl jobsCount_addRow rows ∅
  rw [hjobs, sum_filter_jobs, groupsOf, hsum]
  simp only [EmptyCollection.emptyCollection, Dict.empty, List.map_nil, List.sum_nil, zero_add]
  clear hsum hjobs hitems hpayload' h
  induction rows with
  | nil => rfl
  | cons row rows ih =>
    rw [List.map_cons, List.sum_cons, ih, List.countP_cons, weight, rowKey, counted, identified]
    cases row.activityDate <;> cases row.userId <;> cases row.usedMemoryGb <;> simp [Nat.add_comm]

end

/-! ## The scripts -/

section
variable [DecidableEq F] (classify : DailySource F → Except Py.Error Str) (upper : Str → Str)
  -- the names in `users`, and the `--user` of a script
  (users : Int → Option Str) (username : Option Str)

/-- `while cursor <= end_date` -/
def datesFrom (start stop : Int) : List Int := (List.range (stop + 1 - start).toNat).map fun i :
  Nat => start + (i : Int)

def ofUser (row : DailySource F) : Bool :=
  match username with
  | none | some [] => true
  | some name => row.userId.bind users == some name

/-- `completed_job_rows_for_activity_date(activity_date, username)` (jobs_store.py:985) -/
def completedUserRows (date : Int) (snapshots : Table F) : List (DailySource F) :=
  (completedJobRows upper date snapshots).filter (ofUser users username)

/-- `completed_rows_for_rebuild_day` (rebuild-user-tool.py:184) -/
def completedRowsForRebuildDay (userId : Option Int) (date : Int) (snapshots : Table F) : List (DailySource F) :=
  ((completedUserRows upper users username date snapshots).filter fun row => userId.all fun id =>
    row.userId == some id).map
    fun row => { row with activityDate := some date }

/-- One aggregation for each day (rebuild-user-tool.py:478). -/
def rebuildPayload (userId : Option Int) (first last : Int) (snapshots : Table F) :
    Except Py.Error (List (DailyKey × DailyStat F)) := do
  let payloads ← (datesFrom first last).mapM fun date => do
    let (payload, _) ← aggregate classify (completedRowsForRebuildDay upper users username userId date snapshots)
    return payload
  return payloads.flatten

/-- One aggregation of all days (repair-user-tool-daily-stats.py:213). -/
def repairPayload (start stop : Int) (snapshots : Table F) : Except Py.Error (List (DailyKey × DailyStat F)) := do
  let rows := (datesFrom start stop).flatMap fun date => completedUserRows upper users username date snapshots
  let (payload, _) ← aggregate classify rows
  return payload

end

theorem datesFrom_nodup (start stop : Int) : (datesFrom start stop).Nodup :=
  List.nodup_range.map fun i j (h : start + (i : Int) = start + (j : Int)) => by omega

section
variable [DecidableEq F] {upper : Str → Str} {users : Int → Option Str} {username : Option Str}

theorem completedUserRows_date {date : Int} {snapshots : Table F} :
    ∀ row ∈ completedUserRows upper users username date snapshots, row.activityDate = some date := by
  intro row hrow
  obtain ⟨record, -, rfl⟩ := List.mem_map.1 (List.mem_of_mem_filter hrow)
  rfl

/-- Without `--user-id` the rows of a day are those of the day. -/
theorem completedRowsForRebuildDay_none {date : Int} {snapshots : Table F} :
    completedRowsForRebuildDay upper users username none date snapshots = completedUserRows upper users
      username date snapshots := by
  have hall : (completedUserRows upper users username date snapshots).filter
      (fun row => Option.all (fun id => row.userId == some id) none) =
      completedUserRows upper users username date snapshots := List.filter_eq_self.2 fun _ _ => rfl
  rw [completedRowsForRebuildDay, hall]
  conv_rhs => rw [← List.map_id (completedUserRows upper users username date snapshots)]
  refine List.map_congr_left fun row hrow => ?_
  have hdate := completedUserRows_date row hrow
  rw [← hdate]
  rfl

variable {tool : DailySource F → Str}

omit [DecidableEq F] in
/-- Days one by one, and all days at once. -/
theorem payloadOf_days {rowsOf : Int → List (DailySource F)}
    (hrows : ∀ date, ∀ row ∈ rowsOf date, row.activityDate = some date) :
    ∀ {dates : List Int} {payloads : List (List (DailyKey × DailyStat F))}, dates.Nodup →
      List.Forall₂ (fun date payload => payloadOf (groupsOf tool (rowsOf date)).entries = .ok payload) dates payloads →
      payloadOf (groupsOf tool (dates.flatMap rowsOf)).entries = .ok payloads.flatten
  | [], _, _, .nil => rfl
  | date :: dates, _, hnodup, .cons hday hrest => by
    rw [List.nodup_cons] at hnodup
    rw [List.flatMap_cons, List.flatten_cons]
    refine payload_append ?_ hday (payloadOf_days hrows hnodup.2 hrest)
    intro row hrow row' hrow' d hd hd'
    obtain ⟨date', hmem, hrow'⟩ := List.mem_flatMap.1 hrow'
    have hsame := Option.some.inj ((hrows date row hrow).symm.trans hd)
    have hsame' := Option.some.inj ((hrows date' row' hrow').symm.trans hd')
    exact hnodup.1 (hsame.trans hsame'.symm ▸ hmem)

variable [AddCommMonoid F] [LinearOrder F] [ExactNumbers F]

theorem rebuild_eq_repair (first last : Int) (snapshots : Table F) :
    rebuildPayload (fun row => .ok (tool row)) upper users username none first last snapshots =
      repairPayload (fun row => .ok (tool row)) upper users username first last snapshots := by
  have hdays : ∀ date ∈ datesFrom first last, ∃ payload : List (DailyKey × DailyStat F),
      payloadOf (groupsOf tool (completedUserRows upper users username date snapshots)).entries = .ok payload := by
    intro date _
    obtain ⟨payload, -, hpayload, -⟩ := aggregate_total tool (completedUserRows upper users username date snapshots)
    exact ⟨payload, hpayload⟩
  obtain ⟨payloads, hpayloads⟩ := List.exists_forall₂ hdays
  have hmapM : (datesFrom first last).mapM (fun date => do
      let (payload, _) ← aggregate (fun row => .ok (tool row))
        (completedRowsForRebuildDay upper users username none date snapshots)
      return payload) = .ok payloads := by
    refine Except.mapM_eq_ok.2 (hpayloads.imp fun date payload hpayload => ?_)
    obtain ⟨payload', haggregate, hpayload', -⟩ :=
      aggregate_total tool (completedUserRows upper users username date snapshots)
    rw [completedRowsForRebuildDay_none, haggregate, ← Except.ok.inj (hpayload'.symm.trans hpayload)]
    rfl
  obtain ⟨payload, haggregate, hpayload, -⟩ := aggregate_total tool
    ((datesFrom first last).flatMap fun date => completedUserRows upper users username date snapshots)
  have hall := payloadOf_days (fun _ => completedUserRows_date) (datesFrom_nodup first last) hpayloads
  rw [rebuildPayload, hmapM, repairPayload, haggregate, Except.ok.inj (hpayload.symm.trans hall)]
  rfl

/-- **The laws of the aggregation.** Every row is counted once, keys are distinct, each with the figures of
its rows, the counts of jobs add up to the rows counted; the order of the rows does not matter, lists of
other dates are put one after the other, and so the two scripts compute the same rows. -/
theorem aggregate_laws (tool : DailySource F → Str) :
    (∀ rows, ∃ payload stats, aggregate (fun row => .ok (tool row)) rows = .ok (payload, stats) ∧
      stats = counters rows ∧
      stats.rowsSeen = stats.rowsMissingIdentity + stats.rowsSkippedMemory + stats.rowsCounted ∧
      (∀ key stat, (key, stat) ∈ payload ↔ (bucketOf (ofKey (rowKey tool) key rows)).jobsCount ≠ 0 ∧
        (bucketOf (ofKey (rowKey tool) key rows)).payload = .ok stat) ∧
      (payload.map Prod.fst).Nodup ∧ (payload.map fun item => item.2.jobsCount).sum = stats.rowsCounted) ∧
    (∀ rows rows' payload stats payload' stats', rows.Perm rows' →
      aggregate (fun row => .ok (tool row)) rows = .ok (payload, stats) →
      aggregate (fun row => .ok (tool row)) rows' = .ok (payload', stats') → stats = stats' ∧ payload.Perm payload') ∧
    (∀ rows rows' payload stats payload' stats',
      (∀ row ∈ rows, ∀ row' ∈ rows', ∀ date, row.activityDate = some date → row'.activityDate ≠ some date) →
      aggregate (fun row => .ok (tool row)) rows = .ok (payload, stats) →
      aggregate (fun row => .ok (tool row)) rows' = .ok (payload', stats') →
      aggregate (fun row => .ok (tool row)) (rows ++ rows') = .ok (payload ++ payload', stats.plus stats')) ∧
    ∀ (upper : Str → Str) (users : Int → Option Str) (username : Option Str) (first last : Int) (snapshots : Table F),
      rebuildPayload (fun row => .ok (tool row)) upper users username none first last snapshots =
        repairPayload (fun row => .ok (tool row)) upper users username first last snapshots := by
  have hout : ∀ {rows payload stats}, aggregate (fun row => .ok (tool row)) rows = .ok (payload, stats) →
      stats = counters rows ∧ payloadOf (groupsOf tool rows).entries = .ok payload := by
    intro rows payload stats h
    obtain ⟨payload', haggregate, hpayload, -⟩ := aggregate_total tool rows
    cases Except.ok.inj (haggregate.symm.trans h)
    exact ⟨rfl, hpayload⟩
  refine ⟨fun rows => ?_, ?_, ?_, fun _ _ _ => rebuild_eq_repair⟩
  · obtain ⟨payload, haggregate, hpayload, -⟩ := aggregate_total tool rows
    exact ⟨payload, _, haggregate, rfl, counters_sum rows, fun _ _ => mem_payload hpayload, payload_nodup hpayload,
      payload_sum hpayload⟩
  · intro rows rows' payload stats payload' stats' hperm h h'
    obtain ⟨rfl, hpayload⟩ := hout h
    obtain ⟨rfl, hpayload'⟩ := hout h'
    exact ⟨counters_perm hperm, payload_perm hperm hpayload hpayload'⟩
  · intro rows rows' payload stats payload' stats' hdates h h'
    obtain ⟨rfl, hpayload⟩ := hout h
    obtain ⟨rfl, hpayload'⟩ := hout h'
    obtain ⟨all, haggregate, hall, -⟩ := aggregate_total tool (rows ++ rows')
    rw [haggregate, counters_append, Except.ok.inj (hall.symm.trans (payload_append hdates hpayload hpayload'))]

end

/-- A job of a user on a day, without a command and without figures of its usage but the memory. -/
def plainJob (activityDate userId : Int) (memory : Option ℚ) : DailySource ℚ where
  activityDate := some activityDate
  userId := some userId
  jobName := .none
  command := .none
  usedMemoryGb := memory
  usedCpuCoresAvg := none
  startTime := none
  endTime := none
  usageStats := .none

/-- Two jobs of a day, one of them without a figure of its memory, and one of the next day. -/
def firstDay : List (DailySource ℚ) := [plainJob 0 1 (some 2), plainJob 0 1 none]

def nextDay : List (DailySource ℚ) := [plainJob 1 1 (some 3)]

def plainTool (_ : DailySource ℚ) : Str := "unknown"

theorem aggregate_laws_plain : ∃ first next all turned,
    aggregate (fun row => .ok (plainTool row)) firstDay = .ok (first, counters firstDay) ∧
    aggregate (fun row => .ok (plainTool row)) nextDay = .ok (next, counters nextDay) ∧
    aggregate (fun row => .ok (plainTool row)) (firstDay ++ nextDay) = .ok (all, counters (firstDay ++ nextDay)) ∧
    all = first ++ next ∧ (all.map fun item => item.2.jobsCount).sum = 2 ∧
    aggregate (fun row => .ok (plainTool row)) (nextDay ++ firstDay) = .ok (turned, counters (nextDay ++ firstDay)) ∧
    all.Perm turned := by
  obtain ⟨htotal, hperm, happend, -⟩ := aggregate_laws plainTool
  obtain ⟨first, _, hfirst, rfl, -⟩ := htotal firstDay
  obtain ⟨next, _, hnext, rfl, -⟩ := htotal nextDay
  obtain ⟨all, _, hall, rfl, -, -, -, hsum⟩ := htotal (firstDay ++ nextDay)
  obtain ⟨turned, _, hturned, rfl, -⟩ := htotal (nextDay ++ firstDay)
  have hdates : ∀ row ∈ firstDay, ∀ row' ∈ nextDay, ∀ date, row.activityDate = some date →
      row'.activityDate ≠ some date := by
    simp [firstDay, nextDay, plainJob]
  have hconcat := happend firstDay nextDay first _ next _ hdates hfirst hnext
  refine ⟨first, next, all, turned, hfirst, hnext, hall, ?_, ?_, hturned, ?_⟩
  · exact congrArg Prod.fst (Except.ok.inj (hall.symm.trans hconcat))
  · rw [hsum]
    rfl
  · exact (hperm _ _ all _ turned _ List.perm_append_comm hall hturned).2

end SlurmWeb.Analytics
