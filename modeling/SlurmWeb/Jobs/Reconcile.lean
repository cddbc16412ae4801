import SlurmWeb.Jobs.Pending

/-!
# Stored records and the details of their jobs (slurmweb/persistence/jobs_store.py)

Three paths ask slurmrestd for the details of a stored job and merge them into its record: the
reconciliation of records that left the job list, the enrichment of a record that is read, and the
usage backfill. Each checks the submission time of the details; none checks the job id.

| here | there |
| --- | --- |
| `completeMissingJob` | `_complete_missing_job` (:1441) |
| `refreshMissingActiveJob` | `_refresh_missing_active_job` (:1133) |
| `reconcileRows`, `reconcile` | `_reconcile_missing_active_jobs` (:1111) |
| `maybeEnrichRecord` | `_maybe_enrich_record` (:1409), up to its `_flush_chunk([row])` |
| `applyUsageDetail` | `_apply_usage_detail` (:1252) |

* `refresh_spec`, `reconcileRows_spec` — what becomes of a missing record.
* `reconcile_iff`, `enrich_iff`, `apply_iff` — when each path keeps to data of the record's own job.
-/

namespace SlurmWeb.Jobs

open Strings Py

variable {F : Type} [Python F]

/-! ## Records -/

/-- A row of `job_snapshots`: the columns `job_id` and `submit_time` are never null. -/
structure Record (F : Type) where
  row : Row F
  jobId : Int
  submitTime : DateTime
  hasId : row.jobId = .int jobId
  hasTime : row.submitTime = some submitTime

def Record.key (record : Record F) : JobKey F := (.int record.jobId, some record.submitTime)

theorem Record.rowKey_eq (record : Record F) : rowKey record.row = .ok record.key := by
  simp [rowKey, record.hasId, record.hasTime, Value.hash, Record.key]

/-- What `slurmrestd.job` answers: an exception, a not-found error, or a JSON object. -/
inductive Lookup (F : Type)
  | failed
  | notFound
  | found (job : Payload F)

/-- `_complete_missing_job` (:1441) -/
def completeMissingJob (record : Row F) (observedAt : DateTime) : Row F :=
  { record with
    jobState := some "COMPLETED"
    stateReason := record.stateReason.or (.str "Job missing from active queue and detail lookup")
    endTime := record.endTime.or (some observedAt) }

/-- `not row["job_id"] or not row["submit_time"]` -/
def missingKey (row : Row F) : Bool := !row.jobId.truthy || row.submitTime.isNone

/-- What `_refresh_missing_active_job` returns: `_LOOKUP_FAILED`, `None`, or a row. -/
inductive Refreshed (F : Type)
  | lookupFailed
  | gone
  | row (row : Row F)

/-- `_refresh_missing_active_job` (:1133) -/
def refreshMissingActiveJob (record : Record F) (lookup : Lookup F) : Except Py.Error (Refreshed F) :=
  match lookup with
  | .failed => return .lookupFailed
  | .notFound => return .gone
  | .found job => do
    let row ← extractDetail job record.row
    if missingKey row then return .lookupFailed
    else if row.submitTime ≠ record.row.submitTime then return .gone
    else return .row row

/-- The loop of `_reconcile_missing_active_jobs` (:1119), each record with the answer of its lookup. -/
def reconcileRows (current : List (JobKey F)) (observedAt : DateTime) [DecidableEq F] :
    List (Record F × Lookup F) → Except Py.Error (List (Origin × Row F))
  | [] => return []
  | (record, lookup) :: records => do
    if record.key ∈ current then reconcileRows current observedAt records
    else match ← refreshMissingActiveJob record lookup with
      | .lookupFailed => reconcileRows current observedAt records
      | .gone =>
        return (.completed, completeMissingJob record.row observedAt) :: (← reconcileRows current observedAt records)
      | .row row => return (.detail, row) :: (← reconcileRows current observedAt records)

/-- `_reconcile_missing_active_jobs` (:1111): the rows it puts into the pending map. -/
def reconcile (current : List (JobKey F)) (observedAt : DateTime) [DecidableEq F]
    (records : List (Record F × Lookup F)) : List (KeyedRow F) :=
  match reconcileRows current observedAt records with
  | .ok rows => (assigned rows).1
  | .error _ => []

/-- `_needs_detail_enrichment` (:1173) -/
def needsDetailEnrichment (record : Row F) : Bool :=
  record.eligibleTime.isNone || record.lastSchedEvaluationTime.isNone || record.tresRequested.isNone ||
    record.tresAllocated.isNone || record.usedMemoryGb.isNone || record.usageStats.isNone ||
    record.usedCpuCoresAvg.isNone

/-- `_maybe_enrich_record` (:1409): the row it hands to `_flush_chunk`. -/
def maybeEnrichRecord (record : Record F) (lookup : Lookup F) : Except Py.Error (Option (Row F)) :=
  if !needsDetailEnrichment record.row then return none
  else match lookup with
    | .failed | .notFound => return none
    | .found job => do
      let row ← extractDetail job record.row
      if missingKey row then return none
      else if row.submitTime ≠ record.row.submitTime then return none
      else return some row

/-- What `_apply_usage_detail` returns. -/
structure UsageDecision (F : Type) where
  canUpdate : Bool
  reason : Str
  newMemory : Option F
  newCpu : Option F

/-- `_apply_usage_detail` (:1252) -/
def applyUsageDetail (snapshot : Record F) (detail : Payload F) : Except Py.Error (UsageDecision F) := do
  let row ← extractDetail detail snapshot.row
  if missingKey row then return ⟨false, "missing_detail_key", none, none⟩
  else if row.submitTime ≠ snapshot.row.submitTime then return ⟨false, "submit_time_mismatch", none, none⟩
  else do
    let newMemory ← roundMetric row.usedMemoryGb
    let newCpu ← roundMetric row.usedCpuCoresAvg
    let memoryUpdate := snapshot.row.usedMemoryGb.isNone && newMemory.isSome
    let cpuUpdate := snapshot.row.usedCpuCoresAvg.isNone && newCpu.isSome
    if !memoryUpdate && !cpuUpdate then
      if snapshot.row.usedMemoryGb.isNone && newMemory.isNone then
        return ⟨false, "missing_used_memory_gb", newMemory, newCpu⟩
      else if snapshot.row.usedCpuCoresAvg.isNone && newCpu.isNone then
        return ⟨false, "missing_used_cpu_cores_avg", newMemory, newCpu⟩
      else return ⟨false, "no_usage_updates", newMemory, newCpu⟩
    else return ⟨true, "ok", newMemory, newCpu⟩

/-! ## Whose job a payload is of -/

/-- The payload's `job_id`, when present, is the record's. -/
def OwnJob (record : Record F) (job : Payload F) : Prop :=
  ∀ id, Value.lookup job "job_id" = some id → id.hash = .ok (.int record.jobId)

/-- The payload's submission time, when present, is the record's. -/
def OwnTime (record : Record F) (job : Payload F) : Prop :=
  ∀ time, payloadSubmitTime job = .ok (some time) → time = record.submitTime

/-- The row has a job id: the payload's, when present, else the record's. -/
def hasId (record : Record F) (job : Payload F) : Bool := (Value.getOr job "job_id" record.row.jobId).truthy

theorem ownJob_iff {record : Record F} {job : Payload F} :
    OwnJob record job ↔ (Value.getOr job "job_id" record.row.jobId).hash = .ok (.int record.jobId) := by
  unfold OwnJob Value.getOr
  cases Value.lookup job "job_id" with
  | none => simp [record.hasId, Value.hash]
  | some id => simp

/-- The row `_extract_detail` makes, as the checks see it. -/
theorem detail_checks {record : Record F} {job : Payload F} {row : Row F} (h : extractDetail job record.row = .ok row) :
    missingKey row = !hasId record job ∧ (row.submitTime = record.row.submitTime ↔ OwnTime record job) ∧
      (OwnTime record job → rowKey row = do return (← (Value.getOr job "job_id" record.row.jobId).hash,
        some record.submitTime)) := by
  obtain ⟨hid, ⟨time, htime, hsubmit⟩, -⟩ := extractDetail_spec h
  rw [record.hasTime] at hsubmit ⊢
  have hown : row.submitTime = some record.submitTime ↔ OwnTime record job := by
    rw [hsubmit, OwnTime, htime]
    cases time <;> simp
  refine ⟨?_, hown, fun ht => ?_⟩
  · rw [missingKey, hid, hasId, hsubmit]
    cases time <;> simp
  · rw [rowKey, hid, hown.2 ht]

/-! ## Reconciliation -/

/-- The lookup gave nothing to go by: it failed, or the details lack a job id. -/
def lookupFailed (record : Record F) : Lookup F → Bool
  | .failed => true
  | .notFound => false
  | .found job => !hasId record job

/-- No details, or details of another submission. -/
def Gone (record : Record F) (lookup : Lookup F) : Prop :=
  lookup = .notFound ∨ ∃ job, lookup = .found job ∧ ¬ OwnTime record job

theorem refresh_returns_iff (record : Record F) (lookup : Lookup F) :
    (refreshMissingActiveJob record lookup).Returns ↔ ∀ job, lookup = .found job → WellFormed job := by
  cases lookup with
  | found job =>
    simp only [refreshMissingActiveJob, Lookup.found.injEq, forall_eq']
    rw [Except.returns_bind_const (p := True), and_true, extractDetail_returns_iff]
    intro row _
    split
    · simp
    · split <;> simp
  | _ => simp [refreshMissingActiveJob]

/-- What becomes of a missing record. -/
theorem refresh_spec {record : Record F} {lookup : Lookup F} {r : Refreshed F}
    (h : refreshMissingActiveJob record lookup = .ok r) :
    match r with
    | .lookupFailed => lookupFailed record lookup = true
    | .gone => lookupFailed record lookup = false ∧ Gone record lookup
    | .row row => lookupFailed record lookup = false ∧
        ∃ job, lookup = .found job ∧ extractDetail job record.row = .ok row ∧ OwnTime record job := by
  cases lookup with
  | failed => cases h; rfl
  | notFound => cases h; exact ⟨rfl, .inl rfl⟩
  | found job =>
    obtain ⟨row, hrow, h⟩ := Except.bind_eq_ok.1 h
    obtain ⟨hkey, htime, -⟩ := detail_checks hrow
    split at h
    next hmissing => cases h; simpa [lookupFailed, hkey] using hmissing
    next hmissing =>
      have hfound : lookupFailed record (.found job) = false := by simpa [lookupFailed, hkey] using hmissing
      split at h
      next hne => cases h; exact ⟨hfound, .inr ⟨job, rfl, mt htime.2 hne⟩⟩
      next heq => cases h; exact ⟨hfound, job, rfl, hrow, htime.1 (not_not.1 heq)⟩

variable [DecidableEq F]

/-- A record that is missing from the current jobs and whose lookup did not fail. -/
def due (current : List (JobKey F)) (p : Record F × Lookup F) : Bool :=
  decide (p.1.key ∉ current) && !lookupFailed p.1 p.2

/-- The row the pass makes of a due record. -/
def Answers (observedAt : DateTime) (p : Record F × Lookup F) (q : Origin × Row F) : Prop :=
  q = (.completed, completeMissingJob p.1.row observedAt) ∧ Gone p.1 p.2 ∨
    ∃ job, p.2 = .found job ∧ q.1 = .detail ∧ extractDetail job p.1.row = .ok q.2 ∧ OwnTime p.1 job

/-- Every payload the pass looks at can be read. -/
def Readable (current : List (JobKey F)) (records : List (Record F × Lookup F)) : Prop :=
  ∀ p ∈ records, p.1.key ∉ current → ∀ job, p.2 = .found job → WellFormed job

theorem reconcileRows_returns_iff (current : List (JobKey F)) (observedAt : DateTime) :
    ∀ records : List (Record F × Lookup F),
      (reconcileRows current observedAt records).Returns ↔ Readable current records
  | [] => by simp [reconcileRows, Readable]
  | (record, lookup) :: records => by
    have ih := reconcileRows_returns_iff current observedAt records
    have hcons : Readable current ((record, lookup) :: records) ↔
        (record.key ∉ current → ∀ job, lookup = .found job → WellFormed job) ∧ Readable current records := by
      simp [Readable]
    rw [hcons, ← ih, reconcileRows]
    split
    next h => simp [h]
    next h =>
      rw [Except.returns_bind_const (p := (reconcileRows current observedAt records).Returns), refresh_returns_iff]
      · simp [h]
      · intro r _
        cases r with
        | lookupFailed => rfl
        | _ => rw [Except.returns_bind_const (p := True) fun _ _ => by simp, and_true]

theorem reconcileRows_spec {current : List (JobKey F)} {observedAt : DateTime} :
    ∀ {records : List (Record F × Lookup F)} {rows : List (Origin × Row F)},
      reconcileRows current observedAt records = .ok rows →
        List.Forall₂ (Answers observedAt) (records.filter (due current)) rows
  | [], _, h => by
    cases h
    exact .nil
  | (record, lookup) :: records, rows, h => by
    rw [reconcileRows] at h
    split at h
    next hmem =>
      rw [List.filter_cons_of_neg (by simp [due, hmem])]
      exact reconcileRows_spec h
    next hmem =>
      obtain ⟨r, hr, h⟩ := Except.bind_eq_ok.1 h
      have hspec := refresh_spec hr
      cases r with
      | lookupFailed =>
        rw [List.filter_cons_of_neg (by simp [due, show lookupFailed record lookup = true from hspec])]
        exact reconcileRows_spec h
      | gone =>
        obtain ⟨rest, hrest, h⟩ := Except.bind_eq_ok.1 h
        cases h
        rw [List.filter_cons_of_pos (by simp [due, hmem, hspec.1])]
        exact .cons (.inl ⟨rfl, hspec.2⟩) (reconcileRows_spec hrest)
      | row row =>
        obtain ⟨rest, hrest, h⟩ := Except.bind_eq_ok.1 h
        cases h
        rw [List.filter_cons_of_pos (by simp [due, hmem, hspec.1])]
        obtain ⟨job, hjob, hrow, htime⟩ := hspec.2
        exact .cons (.inr ⟨job, hjob, rfl, hrow, htime⟩) (reconcileRows_spec hrest)

/-- A keyed row of a row that was to be queued. -/
def KeyedFrom (q : Origin × Row F) (r : KeyedRow F) : Prop := r.origin = q.1 ∧ r.row = q.2

omit [DecidableEq F] in
theorem keyed_spec {origin : Origin} {row : Row F} {r : KeyedRow F} (h : keyed origin row = .ok r) :
    KeyedFrom (origin, row) r := by
  unfold keyed at h
  split at h
  · cases h; exact ⟨rfl, rfl⟩
  · cases h

omit [DecidableEq F] in
theorem keyed_returns_iff {origin : Origin} {row : Row F} : (keyed origin row).Returns ↔ (rowKey row).Returns := by
  unfold keyed
  split
  next key h => simp [h]
  next e h => simp [h]

omit [DecidableEq F] in
/-- The rows assigned are the first of those given. -/
theorem assigned_spec : ∀ rows : List (Origin × Row F),
    List.Forall₂ KeyedFrom (rows.take (assigned rows).1.length) (assigned rows).1
  | [] => .nil
  | (origin, row) :: rows => by
    unfold assigned
    cases h : keyed origin row with
    | ok r => exact .cons (keyed_spec h) (assigned_spec rows)
    | error e => exact .nil

omit [DecidableEq F] in
/-- All of them when every row has a key. -/
theorem assigned_all : ∀ {rows : List (Origin × Row F)}, (∀ q ∈ rows, (rowKey q.2).Returns) →
    List.Forall₂ KeyedFrom rows (assigned rows).1
  | [], _ => .nil
  | (origin, row) :: rows, h => by
    obtain ⟨r, hr⟩ := keyed_returns_iff.2 (h (origin, row) List.mem_cons_self)
    rw [assigned, hr]
    exact .cons (keyed_spec hr) (assigned_all fun q hq => h q (List.mem_cons_of_mem _ hq))

/-- The queued row is the record's, and made of the record's own data. -/
structure BuiltFrom (observedAt : DateTime) (p : Record F × Lookup F) (r : KeyedRow F) : Prop where
  key : r.key = p.1.key
  source : r.row = completeMissingJob p.1.row observedAt ∨
    ∃ job, p.2 = .found job ∧ extractDetail job p.1.row = .ok r.row ∧ OwnJob p.1 job ∧ OwnTime p.1 job

/-- One row for each due record, made of its own data, and no others. -/
def OwnRows (current : List (JobKey F)) (observedAt : DateTime) (records : List (Record F × Lookup F)) : Prop :=
  List.Forall₂ (BuiltFrom observedAt) (records.filter (due current)) (reconcile current observedAt records)

omit [DecidableEq F] in
theorem rowKey_completed (record : Record F) (observedAt : DateTime) :
    rowKey (completeMissingJob record.row observedAt) = .ok record.key := record.rowKey_eq

omit [DecidableEq F] in
/-- A row of the record's own details has the record's key, and conversely. -/
theorem rowKey_detail {record : Record F} {job : Payload F} {row : Row F} (h : extractDetail job record.row = .ok row)
    (htime : OwnTime record job) : rowKey row = .ok record.key ↔ OwnJob record job := by
  rw [(detail_checks h).2.2 htime, ownJob_iff, Record.key]
  cases (Value.getOr job "job_id" record.row.jobId).hash <;> simp

/-- Details that pass the checks are of the record's own job. -/
def OwnDetails (record : Record F) (lookup : Lookup F) : Prop :=
  ∀ job, lookup = .found job → OwnTime record job → OwnJob record job

/-- **Reconciliation keeps to the records' own data** exactly when nothing is due, or every payload can
be read and those of the right submission carry the right job id. -/
theorem reconcile_iff (current : List (JobKey F)) (observedAt : DateTime) (records : List (Record F × Lookup F)) :
    OwnRows current observedAt records ↔ (∀ p ∈ records, due current p = false) ∨
      (Readable current records ∧ ∀ p ∈ records, due current p = true → OwnDetails p.1 p.2) := by
  have hfilter : (∀ p ∈ records, due current p = false) ↔ records.filter (due current) = [] := by
    simp [List.filter_eq_nil_iff]
  rw [hfilter, OwnRows]
  unfold reconcile
  cases hrows : reconcileRows current observedAt records with
  | error e =>
    have hunread : ¬ Readable current records := by
      rw [← reconcileRows_returns_iff current observedAt, hrows]
      exact Except.not_returns_error e
    rw [List.forall₂_nil_right_iff]
    exact ⟨.inl, fun h => h.resolve_right fun h => hunread h.1⟩
  | ok rows =>
    have hread : Readable current records := by
      rw [← reconcileRows_returns_iff current observedAt, hrows]
      exact Except.returns_ok rows
    have hanswers := reconcileRows_spec hrows
    constructor
    · intro hown
      refine .inr ⟨hread, fun p hp hdue job hjob htime => ?_⟩
      -- as many rows are assigned as are due, so none is dropped
      have hlength : (assigned rows).1.length = rows.length := by
        rw [← hown.length_eq, hanswers.length_eq]
      have hassigned := assigned_spec rows
      rw [hlength, List.take_length] at hassigned
      obtain ⟨q, r, hq, hr, hbuilt⟩ := hanswers.exists_mid hassigned hown p (List.mem_filter.2 ⟨hp, hdue⟩)
      rcases hq with ⟨-, hnot | ⟨job', hjob', hother⟩⟩ | ⟨job', hjob', -, hrow, -⟩
      · cases hjob.symm.trans hnot
      · cases hjob.symm.trans hjob'
        exact absurd htime hother
      · cases hjob.symm.trans hjob'
        refine (rowKey_detail hrow htime).1 ?_
        rw [← hr.2, r.hashed, hbuilt.key]
    · intro hcond
      have hdetails : ∀ p ∈ records, due current p = true → OwnDetails p.1 p.2 := by
        rcases hcond with hnone | ⟨-, hdetails⟩
        · intro p hp hdue
          have : p ∈ records.filter (due current) := List.mem_filter.2 ⟨hp, hdue⟩
          rw [hnone] at this
          cases this
        · exact hdetails
      have hkeys : List.Forall₂ (fun p q => rowKey q.2 = .ok p.1.key ∧ Answers observedAt p q)
          (records.filter (due current)) rows := by
        refine hanswers.imp_mem fun p hp q hq => ⟨?_, hq⟩
        rcases hq with ⟨rfl, -⟩ | ⟨job, hjob, -, hrow, htime⟩
        · exact rowKey_completed p.1 observedAt
        · obtain ⟨hp, hdue⟩ := List.mem_filter.1 hp
          exact (rowKey_detail hrow htime).2 (hdetails p hp hdue job hjob htime)
      have hassigned := assigned_all fun q hq => by
        obtain ⟨p, -, hkey, -⟩ := hkeys.exists_left q hq
        exact ⟨_, hkey⟩
      refine hkeys.comp hassigned fun p q r ⟨hkey, hq⟩ hr => ?_
      have hrkey : r.key = p.1.key := Except.ok.inj (r.hashed.symm.trans (hr.2 ▸ hkey))
      rcases hq with ⟨rfl, -⟩ | ⟨job, hjob, -, hrow, htime⟩
      · exact ⟨hrkey, .inl hr.2⟩
      · exact ⟨hrkey, .inr ⟨job, hjob, hr.2 ▸ hrow, (rowKey_detail hrow htime).1 hkey, htime⟩⟩

/-! ## Enrichment and usage backfill -/

section Single

omit [DecidableEq F]

/-- A payload that passes the checks the code makes. -/
structure PassesChecks (record : Record F) (job : Payload F) : Prop where
  readable : WellFormed job
  keyed : hasId record job = true
  submission : OwnTime record job

/-- The details are the record's own, and the row made of them has its key. -/
structure OwnRow (record : Record F) (job : Payload F) (row : Row F) : Prop where
  ownJob : OwnJob record job
  ownTime : OwnTime record job
  key : rowKey row = .ok record.key

theorem enrich_some_iff {record : Record F} {lookup : Lookup F} {row : Row F} :
    maybeEnrichRecord record lookup = .ok (some row) ↔ needsDetailEnrichment record.row = true ∧
      ∃ job, lookup = .found job ∧ extractDetail job record.row = .ok row ∧ PassesChecks record job := by
  unfold maybeEnrichRecord
  cases needsDetailEnrichment record.row with
  | false => simp
  | true =>
    cases lookup with
    | found job =>
      simp only [Bool.not_true, Bool.false_eq_true, if_false, Except.bind_eq_ok, Lookup.found.injEq, true_and,
        exists_eq_left']
      constructor
      · rintro ⟨row', hrow, h⟩
        obtain ⟨hkey, htime, -⟩ := detail_checks hrow
        split at h
        · cases h
        next hmissing =>
          split at h
          · cases h
          next hsubmit =>
            cases h
            refine ⟨hrow, (extractDetail_returns_iff job record.row).1 ⟨_, hrow⟩, ?_, htime.1 (not_not.1 hsubmit)⟩
            simpa [hkey] using hmissing
      · rintro ⟨hrow, hchecks⟩
        obtain ⟨hkey, htime, -⟩ := detail_checks hrow
        refine ⟨row, hrow, ?_⟩
        rw [if_neg (by simp [hkey, hchecks.keyed]), if_neg (not_not.2 (htime.2 hchecks.submission))]
        rfl
    | _ => simp

/-- What enrichment writes is the record's own exactly when details that pass the checks are. -/
theorem enrich_iff (record : Record F) (lookup : Lookup F) :
    (∀ row, maybeEnrichRecord record lookup = .ok (some row) → ∃ job, lookup = .found job ∧ OwnRow record job row) ↔
      ∀ job, needsDetailEnrichment record.row = true → lookup = .found job → PassesChecks record job →
        OwnJob record job := by
  constructor
  · intro h job hneeds hjob hchecks
    obtain ⟨row, hrow⟩ := (extractDetail_returns_iff job record.row).2 hchecks.readable
    obtain ⟨job', hjob', hown⟩ := h row (enrich_some_iff.2 ⟨hneeds, job, hjob, hrow, hchecks⟩)
    cases hjob.symm.trans hjob'
    exact hown.ownJob
  · intro h row hrow
    obtain ⟨hneeds, job, hjob, hdetail, hchecks⟩ := enrich_some_iff.1 hrow
    have hown := h job hneeds hjob hchecks
    exact ⟨job, hjob, hown, hchecks.submission, (rowKey_detail hdetail hchecks.submission).2 hown⟩

/-- The payload has a usage value the snapshot lacks. -/
def HasUpdate (snapshot : Record F) (detail : Payload F) : Prop :=
  ∃ usage memory cpu, usageStats detail = .ok usage ∧ roundMetric usage.usedMemoryGb = .ok memory ∧
    roundMetric usage.usedCpuCoresAvg = .ok cpu ∧
    ((snapshot.row.usedMemoryGb = none ∧ memory.isSome = true) ∨
      (snapshot.row.usedCpuCoresAvg = none ∧ cpu.isSome = true))

theorem apply_accepted_iff {snapshot : Record F} {detail : Payload F} :
    (∃ d, applyUsageDetail snapshot detail = .ok d ∧ d.canUpdate = true) ↔
      PassesChecks snapshot detail ∧ HasUpdate snapshot detail := by
  unfold applyUsageDetail
  simp only [Except.bind_eq_ok]
  constructor
  · rintro ⟨d, ⟨row, hrow, h⟩, hd⟩
    obtain ⟨hkey, htime, -⟩ := detail_checks hrow
    obtain ⟨-, -, usage, husage, hmemory, hcpu⟩ := extractDetail_spec hrow
    split at h
    · cases h; cases hd
    next hmissing =>
      split at h
      · cases h; cases hd
      next hsubmit =>
        refine ⟨⟨(extractDetail_returns_iff _ _).1
          ⟨_, hrow⟩, by simpa [hkey] using hmissing, htime.1 (not_not.1 hsubmit)⟩, ?_⟩
        obtain ⟨memory, hm, h⟩ := Except.bind_eq_ok.1 h
        obtain ⟨cpu, hc, h⟩ := Except.bind_eq_ok.1 h
        refine ⟨usage, memory, cpu, husage, hmemory ▸ hm, hcpu ▸ hc, ?_⟩
        split at h
        · split at h
          · cases h; cases hd
          · split at h <;> (cases h; cases hd)
        next hupdate => simpa [or_iff_not_imp_left, Option.isSome_iff_ne_none] using hupdate
  · rintro ⟨hchecks, usage, memory, cpu, husage, hm, hc, hupdate⟩
    obtain ⟨row, hrow⟩ := (extractDetail_returns_iff detail snapshot.row).2 hchecks.readable
    obtain ⟨hkey, htime, -⟩ := detail_checks hrow
    obtain ⟨-, -, usage', husage', hmemory, hcpu⟩ := extractDetail_spec hrow
    cases husage.symm.trans husage'
    refine ⟨⟨true, "ok", memory, cpu⟩, ⟨row, hrow, ?_⟩, rfl⟩
    rw [if_neg (by simp [hkey, hchecks.keyed]), if_neg (not_not.2 (htime.2 hchecks.submission)), hmemory, hcpu, hm, hc]
    simp only [Except.ok_bind]
    rw [if_neg (by simpa [or_iff_not_imp_left, Option.isSome_iff_ne_none] using hupdate)]
    rfl

/-- What the backfill accepts is the snapshot's own exactly when details that pass the checks and
bring an update are. -/
theorem apply_iff (snapshot : Record F) (detail : Payload F) :
    (∀ d, applyUsageDetail snapshot detail = .ok d → d.canUpdate = true →
        ∃ row, extractDetail detail snapshot.row = .ok row ∧ OwnRow snapshot detail row) ↔
      (PassesChecks snapshot detail → HasUpdate snapshot detail → OwnJob snapshot detail) := by
  constructor
  · intro h hchecks hupdate
    obtain ⟨d, hd, haccepted⟩ := apply_accepted_iff.2 ⟨hchecks, hupdate⟩
    obtain ⟨row, -, hown⟩ := h d hd haccepted
    exact hown.ownJob
  · intro h d hd haccepted
    obtain ⟨hchecks, hupdate⟩ := apply_accepted_iff.1 ⟨d, hd, haccepted⟩
    obtain ⟨row, hrow⟩ := (extractDetail_returns_iff detail snapshot.row).2 hchecks.readable
    have hown := h hchecks hupdate
    exact ⟨row, hrow, hown, hchecks.submission, (rowKey_detail hrow hchecks.submission).2 hown⟩

end Single

/-- **Own data**, on each of the three paths. -/
theorem own_payload_iff (current : List (JobKey F)) (observedAt : DateTime) (records : List (Record F × Lookup F))
    (record : Record F) (lookup : Lookup F) (detail : Payload F) :
    (OwnRows current observedAt records ↔ (∀ p ∈ records, due current p = false) ∨
      (Readable current records ∧ ∀ p ∈ records, due current p = true → OwnDetails p.1 p.2)) ∧
    ((∀ row, maybeEnrichRecord record lookup = .ok (some row) → ∃ job, lookup = .found job ∧ OwnRow record job row) ↔
      ∀ job, needsDetailEnrichment record.row = true → lookup = .found job →
        PassesChecks record job → OwnJob record job) ∧
    ((∀ d, applyUsageDetail record detail = .ok d → d.canUpdate = true →
        ∃ row, extractDetail detail record.row = .ok row ∧ OwnRow record detail row) ↔
      (PassesChecks record detail → HasUpdate record detail → OwnJob record detail)) :=
  ⟨reconcile_iff current observedAt records, enrich_iff record lookup, apply_iff record detail⟩

/-- A running task of a job array, submitted one second after the epoch. -/
def arrayTask : Record ℚ := ⟨bareRow 7 1000000 "RUNNING", 7, 1000000, rfl, rfl⟩

/-- The details of another task of the array. -/
def siblingDetail : Payload ℚ :=
  [("job_id", .int 8), ("state", .dict [("current", .list [.str "COMPLETED"])]),
    ("time", .dict [("submission", .int 1)])]

theorem arrayTask_due : due [] (arrayTask, .found siblingDetail) = true := by decide

theorem siblingDetail_time : OwnTime arrayTask siblingDetail := by
  have h : payloadSubmitTime siblingDetail = .ok (some 1000000) := by rfl
  intro time ht
  cases h.symm.trans ht
  rfl

theorem siblingDetail_job : ¬ OwnJob arrayTask siblingDetail := by
  intro h
  have hid := h (.int 8) (by rfl)
  cases hid

/-- The task that left the queue is given its sibling's row. -/
theorem sibling_row_queued : ¬ OwnRows [] 0 [(arrayTask, .found siblingDetail)] := by
  rw [reconcile_iff]
  rintro (hnone | ⟨-, hown⟩)
  · exact absurd arrayTask_due (by simp [hnone _ List.mem_cons_self])
  · exact siblingDetail_job (hown _ List.mem_cons_self arrayTask_due siblingDetail rfl siblingDetail_time)

end SlurmWeb.Jobs
