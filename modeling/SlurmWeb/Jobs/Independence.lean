import SlurmWeb.Jobs.Reconcile

/-!
# One job's details and the other jobs (slurmweb/persistence/jobs_store.py)

The reconciliation pass and the usage backfill guard the network lookup of each job, and nothing
after it: an exception of the extraction leaves the loop, with nothing queued or committed. A row
whose job id has no hash ends `_queue_rows` where it stands.

| here | there |
| --- | --- |
| `backfillRows` | the loop of `backfill_usage_fields` (:1337) |
| `backfillUsageFields` | :1306, with its commit or rollback |

* `reconcile_cons` — a pass over readable records, record by record.
* `reconcile_alone_iff`, `backfill_alone_iff` — when a pass does what it does on each record alone.
-/

namespace SlurmWeb.Jobs

open Strings Py

variable {F : Type} [Python F]

/-! ## The backfill -/

structure Report where
  scanned : Nat
  updated : Nat
  skipped : Nat
deriving DecidableEq

def Report.zero : Report := ⟨0, 0, 0⟩

def Report.add (a b : Report) : Report := ⟨a.scanned + b.scanned, a.updated + b.updated, a.skipped + b.skipped⟩

/-- The fields the backfill sets, where they are missing. -/
def Record.withUsage (snapshot : Record F) (memory cpu : Option F) : Record F :=
  { snapshot with
    row := { snapshot.row with
      usedMemoryGb := snapshot.row.usedMemoryGb.or memory
      usedCpuCoresAvg := snapshot.row.usedCpuCoresAvg.or cpu }
    hasId := snapshot.hasId, hasTime := snapshot.hasTime }

/-- The loop of `backfill_usage_fields` (:1337): the counts, and the snapshots in the session. -/
def backfillRows (dryRun : Bool) (report : Report) :
    List (Record F × Lookup F) → Except Py.Error (Report × List (Record F))
  | [] => return (report, [])
  | (snapshot, lookup) :: records => do
    match lookup with
    | .failed | .notFound =>
      let (total, rows) ← backfillRows dryRun (report.add ⟨1, 0, 1⟩) records
      return (total, snapshot :: rows)
    | .found detail =>
      let decision ← applyUsageDetail snapshot detail
      if !decision.canUpdate then
        let (total, rows) ← backfillRows dryRun (report.add ⟨1, 0, 1⟩) records
        return (total, snapshot :: rows)
      else
        let (total, rows) ← backfillRows dryRun (report.add ⟨1, 1, 0⟩) records
        return (total, (if dryRun then snapshot else snapshot.withUsage decision.newMemory decision.newCpu) :: rows)

/-- `backfill_usage_fields` (:1306): what it reports, and the rows of the database afterwards. -/
def backfillUsageFields (dryRun : Bool) (records : List (Record F × Lookup F)) :
    Except Py.Error Report × List (Record F) :=
  match backfillRows dryRun .zero records with
  | .ok (report, rows) => (.ok report, rows)
  | .error e => (.error e, records.map Prod.fst)

/-- What a call that raised has counted. -/
def reported (result : Except Py.Error Report) : Report :=
  match result with
  | .ok report => report
  | .error _ => .zero

/-! ## The reconciliation, record by record -/

section Reconciliation

variable [DecidableEq F] (current : List (JobKey F)) (observedAt : DateTime)

/-- The pass queues what it queues for each record alone. -/
def ReconcilesAlone (records : List (Record F × Lookup F)) : Prop :=
  reconcile current observedAt records = records.flatMap fun p => reconcile current observedAt [p]

/-- The details the pass would use carry a job id without a hash. -/
def Unhashable (p : Record F × Lookup F) : Prop :=
  ∃ job, p.2 = .found job ∧ OwnTime p.1 job ∧ ¬ (Value.getOr job "job_id" p.1.row.jobId).hash.Returns

/-- A record whose details end the queueing. -/
def Blocks (p : Record F × Lookup F) : Prop := due current p = true ∧ Unhashable p

/-- A record that has a row queued. -/
def Queues (p : Record F × Lookup F) : Prop := due current p = true ∧ Readable current [p] ∧ ¬ Unhashable p

variable {current observedAt}

omit [DecidableEq F] in
theorem readable_cons {p : Record F × Lookup F} {records : List (Record F × Lookup F)} :
    Readable current (p :: records) ↔ Readable current [p] ∧ Readable current records := by
  simp [Readable]

theorem reconcile_unreadable {records : List (Record F × Lookup F)} (h : ¬ Readable current records) :
    reconcile current observedAt records = [] := by
  rw [← reconcileRows_returns_iff current observedAt, Except.not_returns_iff] at h
  obtain ⟨e, he⟩ := h
  rw [reconcile, he]

/-- The rows of one record, before those of the others. -/
theorem reconcileRows_cons {p : Record F × Lookup F} {records : List (Record F × Lookup F)}
    {rows : List (Origin × Row F)} (h : reconcileRows current observedAt (p :: records) = .ok rows) :
    ∃ first rest, reconcileRows current observedAt [p] = .ok first ∧
      reconcileRows current observedAt records = .ok rest ∧ rows = first ++ rest := by
  obtain ⟨record, lookup⟩ := p
  rw [reconcileRows] at h
  rw [reconcileRows, reconcileRows]
  split at h
  next hmem => exact ⟨[], rows, by simp [hmem], h, rfl⟩
  next hmem =>
    obtain ⟨r, hr, h⟩ := Except.bind_eq_ok.1 h
    simp only [if_neg hmem, hr, Except.ok_bind]
    cases r with
    | lookupFailed => exact ⟨[], rows, rfl, h, rfl⟩
    | gone =>
      obtain ⟨rest, hrest, h⟩ := Except.bind_eq_ok.1 h
      cases h
      exact ⟨_, rest, rfl, hrest, rfl⟩
    | row row =>
      obtain ⟨rest, hrest, h⟩ := Except.bind_eq_ok.1 h
      cases h
      exact ⟨_, rest, rfl, hrest, rfl⟩

variable (observedAt) in
/-- A readable record has one row when it is due, with a key unless the details' job id has no hash. -/
theorem reconcileRows_one {p : Record F × Lookup F} (h : Readable current [p]) :
    (due current p = false ∧ reconcileRows current observedAt [p] = .ok []) ∨
      (due current p = true ∧ ∃ q, reconcileRows current observedAt [p] = .ok [q] ∧
        ((rowKey q.2).Returns ↔ ¬ Unhashable p)) := by
  obtain ⟨rows, hrows⟩ := (reconcileRows_returns_iff current observedAt [p]).2 h
  have hspec := reconcileRows_spec hrows
  cases hdue : due current p with
  | false =>
    rw [List.filter_cons_of_neg (by simp [hdue]), List.filter_nil] at hspec
    cases hspec
    exact .inl ⟨rfl, hrows⟩
  | true =>
    rw [List.filter_cons_of_pos hdue, List.filter_nil] at hspec
    cases hspec with
    | @cons _ q _ _ hq htail =>
      cases htail
      refine .inr ⟨rfl, q, hrows, ?_⟩
      rcases hq with ⟨rfl, hgone⟩ | ⟨job, hjob, -, hrow, htime⟩
      · rw [rowKey_completed]
        simp only [Except.returns_ok, true_iff]
        rintro ⟨job, hjob, htime, -⟩
        rcases hgone with hnot | ⟨job', hjob', hother⟩
        · cases hjob.symm.trans hnot
        · cases hjob.symm.trans hjob'
          exact hother htime
      · have hunhashable : Unhashable p ↔ ¬ (Value.getOr job "job_id" p.1.row.jobId).hash.Returns := by
          constructor
          · rintro ⟨job', hjob', -, h⟩
            cases hjob.symm.trans hjob'
            exact h
          · exact fun h => ⟨job, hjob, htime, h⟩
        rw [(detail_checks hrow).2.2 htime, hunhashable, not_not]
        exact (Except.returns_bind_const (p := True) fun _ _ => by simp).trans (iff_of_eq (and_true _))

variable (observedAt) in
/-- A record alone: its row, unless it blocks or cannot be read. -/
theorem reconcile_one (p : Record F × Lookup F) :
    (Queues current p → ∃ r, reconcile current observedAt [p] = [r]) ∧
      (¬ Queues current p → reconcile current observedAt [p] = []) := by
  by_cases hread : Readable current [p]
  · rcases reconcileRows_one observedAt hread with ⟨hdue, hrows⟩ | ⟨hdue, q, hrows, hkey⟩
    · have hnot : ¬ Queues current p := fun h => by rw [h.1] at hdue; cases hdue
      exact ⟨fun h => absurd h hnot, fun _ => by rw [reconcile, hrows]; rfl⟩
    · rw [reconcile, hrows]
      dsimp only [assigned]
      constructor
      · intro hqueues
        obtain ⟨r, hr⟩ := keyed_returns_iff.2 (hkey.2 hqueues.2.2)
        exact ⟨r, by rw [hr]⟩
      · intro hnot
        have hunhashable : ¬ (rowKey q.2).Returns := fun h => hnot ⟨hdue, hread, hkey.1 h⟩
        rw [← keyed_returns_iff, Except.not_returns_iff] at hunhashable
        obtain ⟨e, he⟩ := hunhashable
        rw [he]
  · exact ⟨fun h => absurd h.2.1 hread, fun _ => reconcile_unreadable hread⟩

/-- A pass over readable records: a record that blocks ends it. -/
theorem reconcile_cons {p : Record F × Lookup F} {records : List (Record F × Lookup F)}
    (hread : Readable current (p :: records)) :
    (Blocks current p → reconcile current observedAt (p :: records) = []) ∧
      (¬ Blocks current p → reconcile current observedAt (p :: records) =
        reconcile current observedAt [p] ++ reconcile current observedAt records) := by
  obtain ⟨rows, hrows⟩ := (reconcileRows_returns_iff current observedAt _).2 hread
  obtain ⟨first, rest, hfirst, hrest, rfl⟩ := reconcileRows_cons hrows
  simp only [reconcile, hrows, hfirst, hrest]
  rcases reconcileRows_one observedAt (readable_cons.1 hread).1 with ⟨hdue, hone⟩ | ⟨hdue, q, hone, hkey⟩
  · cases hfirst.symm.trans hone
    refine ⟨fun h => ?_, fun _ => rfl⟩
    rw [h.1] at hdue
    cases hdue
  · cases hfirst.symm.trans hone
    simp only [assigned, List.singleton_append]
    constructor
    · intro hblocks
      have hunhashable : ¬ (rowKey q.2).Returns := fun h => hkey.1 h hblocks.2
      rw [← keyed_returns_iff, Except.not_returns_iff] at hunhashable
      obtain ⟨e, he⟩ := hunhashable
      rw [he]
    · intro hblocks
      obtain ⟨r, hr⟩ := keyed_returns_iff.2 (hkey.2 fun h => hblocks ⟨hdue, h⟩)
      rw [hr]
      rfl

theorem flatMap_alone_eq_nil (records : List (Record F × Lookup F)) :
    (records.flatMap fun p => reconcile current observedAt [p]) = [] ↔ ∀ p ∈ records, ¬ Queues current p := by
  rw [List.flatMap_eq_nil_iff]
  refine forall₂_congr fun p _ => ?_
  constructor
  · intro hnil hqueues
    obtain ⟨r, hr⟩ := (reconcile_one observedAt p).1 hqueues
    rw [hr] at hnil
    cases hnil
  · exact (reconcile_one observedAt p).2

/-- **A pass treats its records as it treats each alone** exactly when none would be queued, or all can
be read and none that would be queued comes after one that blocks. -/
theorem reconcile_alone_iff (records : List (Record F × Lookup F)) :
    ReconcilesAlone current observedAt records ↔ (∀ p ∈ records, ¬ Queues current p) ∨
      (Readable current records ∧ records.Pairwise fun p q => Blocks current p → ¬ Queues current q) := by
  by_cases hread : Readable current records
  · simp only [hread, true_and]
    have hpairwise : (∀ p ∈ records, ¬ Queues current p) →
        records.Pairwise fun p q => Blocks current p → ¬ Queues current q :=
      fun h => List.Pairwise.imp_mem.2 (List.pairwise_of_forall fun _ _ _ hq _ => h _ hq)
    rw [or_iff_right_of_imp hpairwise]
    unfold ReconcilesAlone
    clear hpairwise
    induction records with
    | nil => simp [reconcile, reconcileRows, assigned]
    | cons p records ih =>
      rw [List.flatMap_cons, List.pairwise_cons]
      have hcons : (Blocks current p → reconcile current observedAt (p :: records) = []) ∧
          (¬ Blocks current p → reconcile current observedAt (p :: records) =
            reconcile current observedAt [p] ++ reconcile current observedAt records) := reconcile_cons hread
      by_cases hblocks : Blocks current p
      · have hone : reconcile current observedAt [p] = [] :=
          (reconcile_one observedAt p).2 fun h => h.2.2 hblocks.2
        rw [hcons.1 hblocks, hone, List.nil_append, eq_comm, flatMap_alone_eq_nil]
        exact ⟨fun h => ⟨fun q hq _ => h q hq,
          List.Pairwise.imp_mem.2 (List.pairwise_of_forall fun _ _ _ hq _ => h _ hq)⟩,
          fun h q hq => h.1 q hq hblocks⟩
      · rw [hcons.2 hblocks, List.append_cancel_left_eq]
        refine (ih (readable_cons.1 hread).2).trans ?_
        exact ⟨fun h => ⟨fun _ _ hb => absurd hb hblocks, h⟩, And.right⟩
  · simp only [hread, false_and, or_false]
    rw [ReconcilesAlone, reconcile_unreadable hread, eq_comm, flatMap_alone_eq_nil]

end Reconciliation

/-! ## The backfill, record by record -/

/-- The details of a snapshot make the backfill raise: they cannot be read, or their usage cannot be rounded. -/
def Raises (p : Record F × Lookup F) : Prop :=
  ∃ detail, p.2 = .found detail ∧ (¬ WellFormed detail ∨ (hasId p.1 detail = true ∧ OwnTime p.1 detail ∧
    ∃ usage, usageStats detail = .ok usage ∧
      ¬ ((roundMetric usage.usedMemoryGb).Returns ∧ (roundMetric usage.usedCpuCoresAvg).Returns)))

theorem apply_returns_iff (snapshot : Record F) (detail : Payload F) :
    (applyUsageDetail snapshot detail).Returns ↔ ¬ Raises (snapshot, .found detail) := by
  have hraises : Raises (snapshot, .found detail) ↔ ¬ WellFormed detail ∨ (hasId snapshot detail = true ∧
      OwnTime snapshot detail ∧ ∃ usage, usageStats detail = .ok usage ∧
        ¬ ((roundMetric usage.usedMemoryGb).Returns ∧ (roundMetric usage.usedCpuCoresAvg).Returns)) := by
    simp [Raises]
  rw [hraises, applyUsageDetail, Except.returns_bind]
  by_cases hread : WellFormed detail
  · obtain ⟨row, hrow⟩ := (extractDetail_returns_iff detail snapshot.row).2 hread
    obtain ⟨hkey, htime, -⟩ := detail_checks hrow
    obtain ⟨-, -, usage, husage, hmemory, hcpu⟩ := extractDetail_spec hrow
    simp only [hrow, Except.ok.injEq, exists_eq_left', hread, not_true, false_or, husage, ← hmemory, ← hcpu]
    split
    next hmissing => simp_all
    next hmissing =>
      split
      next hsubmit => simp [mt htime.2 hsubmit]
      next hsubmit =>
        have hid : hasId snapshot detail = true := by simpa [hkey] using hmissing
        simp only [hid, htime.1 (not_not.1 hsubmit), true_and, not_not]
        rw [Except.returns_bind_const fun memory _ => Except.returns_bind_const (p := True) fun cpu _ => ?_, and_true]
        split
        · split
          · simp
          · split <;> simp
        · simp
  · simp only [hread, not_false_eq_true, true_or, not_true, iff_false, not_exists, not_and]
    exact fun row hrow => absurd ((extractDetail_returns_iff detail snapshot.row).1 ⟨row, hrow⟩) hread

/-- The body of the loop of `backfill_usage_fields`. -/
def backfillOne (dryRun : Bool) (p : Record F × Lookup F) : Except Py.Error (Report × Record F) :=
  match p.2 with
  | .failed | .notFound => return (⟨1, 0, 1⟩, p.1)
  | .found detail => do
    let decision ← applyUsageDetail p.1 detail
    return if !decision.canUpdate then (⟨1, 0, 1⟩, p.1)
      else (⟨1, 1, 0⟩, if dryRun then p.1 else p.1.withUsage decision.newMemory decision.newCpu)

theorem backfillOne_returns_iff (dryRun : Bool) (p : Record F × Lookup F) :
    (backfillOne dryRun p).Returns ↔ ¬ Raises p := by
  obtain ⟨snapshot, lookup⟩ := p
  cases lookup with
  | found detail =>
    rw [← apply_returns_iff, backfillOne, Except.returns_bind_const (p := True) fun _ _ => by simp, and_true]
  | _ => simp [backfillOne, Raises]

theorem backfillRows_cons (dryRun : Bool) (report : Report) (p : Record F × Lookup F)
    (records : List (Record F × Lookup F)) :
    backfillRows dryRun report (p :: records) = do
      let one ← backfillOne dryRun p
      let rest ← backfillRows dryRun (report.add one.1) records
      return (rest.1, one.2 :: rest.2) := by
  obtain ⟨snapshot, lookup⟩ := p
  cases lookup with
  | found detail =>
    simp only [backfillRows, backfillOne]
    cases applyUsageDetail snapshot detail with
    | error e => rfl
    | ok decision =>
      simp only [Except.ok_bind, Except.pure_eq_ok]
      split <;> rfl
  | _ => rfl

theorem Report.add_assoc (a b c : Report) : (a.add b).add c = a.add (b.add c) := by
  simp [Report.add, Nat.add_assoc]

theorem Report.zero_add (a : Report) : Report.zero.add a = a := by simp [Report.add, Report.zero]

theorem Report.add_zero (a : Report) : a.add .zero = a := by simp [Report.add, Report.zero]

def Report.sum (reports : List Report) : Report := reports.foldr Report.add .zero

/-- The loop as a `mapM`. -/
theorem backfillRows_eq (dryRun : Bool) : ∀ (records : List (Record F × Lookup F)) (report : Report),
    backfillRows dryRun report records = do
      let ones ← records.mapM (backfillOne dryRun)
      return (report.add (.sum (ones.map Prod.fst)), ones.map Prod.snd)
  | [], report => by simp [backfillRows, Report.sum, Report.add_zero]
  | p :: records, report => by
    rw [backfillRows_cons, List.mapM_cons]
    cases backfillOne dryRun p with
    | error e => rfl
    | ok one =>
      simp only [Except.ok_bind, backfillRows_eq dryRun records]
      cases records.mapM (backfillOne dryRun) with
      | error e => rfl
      | ok ones => simp [Report.sum, Report.add_assoc]

/-- The backfill leaves and reports what it leaves and reports for each record alone. -/
def BackfillsAlone (dryRun : Bool) (records : List (Record F × Lookup F)) : Prop :=
  (backfillUsageFields dryRun records).2 = (records.flatMap fun p => (backfillUsageFields dryRun [p]).2) ∧
    reported (backfillUsageFields dryRun records).1 =
      .sum (records.map fun p => reported (backfillUsageFields dryRun [p]).1)

theorem backfill_ok {dryRun : Bool} {records : List (Record F × Lookup F)} {ones : List (Report × Record F)}
    (h : records.mapM (backfillOne dryRun) = .ok ones) :
    backfillUsageFields dryRun records = (.ok (.sum (ones.map Prod.fst)), ones.map Prod.snd) := by
  rw [backfillUsageFields, backfillRows_eq, h]
  simp [Report.zero_add]

theorem backfill_error (dryRun : Bool) {records : List (Record F × Lookup F)} {p : Record F × Lookup F}
    (hp : p ∈ records) (h : Raises p) :
    ∃ e, backfillUsageFields dryRun records = (.error e, records.map Prod.fst) := by
  have hraises : ¬ (records.mapM (backfillOne dryRun)).Returns := by
    rw [Except.returns_mapM]
    exact fun hall => (backfillOne_returns_iff dryRun p).1 (hall p hp) h
  obtain ⟨e, he⟩ := Except.not_returns_iff.1 hraises
  exact ⟨e, by rw [backfillUsageFields, backfillRows_eq, he]; rfl⟩

theorem backfillOne_scanned {dryRun : Bool} {p : Record F × Lookup F} {one : Report × Record F}
    (h : backfillOne dryRun p = .ok one) : one.1.scanned = 1 := by
  obtain ⟨snapshot, lookup⟩ := p
  cases lookup with
  | found detail =>
    obtain ⟨decision, -, h⟩ := Except.bind_eq_ok.1 h
    cases h
    split <;> rfl
  | _ => cases h; rfl

/-- A record alone. -/
theorem backfill_one (dryRun : Bool) (p : Record F × Lookup F) :
    (∀ one, backfillOne dryRun p = .ok one → backfillUsageFields dryRun [p] = (.ok one.1, [one.2])) ∧
      (Raises p → ∃ e, backfillUsageFields dryRun [p] = (.error e, [p.1])) := by
  refine ⟨fun one hone => ?_, fun h => backfill_error _ List.mem_cons_self h⟩
  have hmap : [p].mapM (backfillOne dryRun) = .ok [one] := by simp [hone]
  rw [backfill_ok hmap]
  simp [Report.sum, Report.add_zero]

theorem sum_scanned_pos {reports : List Report} {r : Report} (hr : r ∈ reports) (h : 0 < r.scanned) :
    0 < (Report.sum reports).scanned := by
  induction reports with
  | nil => cases hr
  | cons r' reports ih =>
    have hsum : (Report.sum (r' :: reports)).scanned = r'.scanned + (Report.sum reports).scanned := rfl
    rw [hsum]
    rcases List.mem_cons.1 hr with rfl | hr
    · omega
    · have := ih hr
      omega

/-- **The backfill treats its records as it treats each alone** exactly when no details raise, or all do. -/
theorem backfill_alone_iff (dryRun : Bool) (records : List (Record F × Lookup F)) :
    BackfillsAlone dryRun records ↔ (∀ p ∈ records, ¬ Raises p) ∨ ∀ p ∈ records, Raises p := by
  by_cases hquiet : ∀ p ∈ records, ¬ Raises p
  · refine iff_of_true ?_ (.inl hquiet)
    obtain ⟨ones, hones⟩ := Except.returns_mapM.2 fun p hp => (backfillOne_returns_iff dryRun p).2 (hquiet p hp)
    have halone : List.Forall₂ (fun p one => backfillUsageFields dryRun [p] = (.ok one.1, [one.2])) records ones :=
      (Except.mapM_eq_ok.1 hones).imp fun p one => (backfill_one dryRun p).1 one
    rw [BackfillsAlone, backfill_ok hones]
    clear hones hquiet
    induction halone with
    | nil => exact ⟨rfl, rfl⟩
    | cons hone _ ih =>
      simp only [List.map_cons, List.flatMap_cons, hone, List.singleton_append, Report.sum, List.foldr_cons, reported]
      exact ⟨congrArg _ ih.1, congrArg _ ih.2⟩
  · have hraises : ∃ p ∈ records, Raises p := by
      by_contra h
      exact hquiet fun p hp hr => h ⟨p, hp, hr⟩
    obtain ⟨p, hp, hpr⟩ := hraises
    obtain ⟨e, he⟩ := backfill_error dryRun hp hpr
    rw [or_iff_right hquiet, BackfillsAlone, he]
    constructor
    · rintro ⟨-, hreport⟩ q hq
      by_contra hqr
      -- alone, this record is scanned
      obtain ⟨one, hone⟩ := (backfillOne_returns_iff dryRun q).2 hqr
      have hmem : one.1 ∈ records.map fun p => reported (backfillUsageFields dryRun [p]).1 :=
        List.mem_map.2 ⟨q, hq, by rw [(backfill_one dryRun q).1 one hone]; rfl⟩
      have hpos := sum_scanned_pos hmem (by rw [backfillOne_scanned hone]; exact Nat.one_pos)
      rw [← hreport] at hpos
      exact absurd hpos (Nat.lt_irrefl 0)
    · intro hall
      clear he hp hpr hquiet
      induction records with
      | nil => exact ⟨rfl, rfl⟩
      | cons q records ih =>
        obtain ⟨e', he'⟩ := (backfill_one dryRun q).2 (hall q List.mem_cons_self)
        obtain ⟨hrows, hreport⟩ := ih fun q hq => hall q (List.mem_cons_of_mem _ hq)
        simp only [List.map_cons, List.flatMap_cons, he', List.singleton_append]
        refine ⟨congrArg _ hrows, ?_⟩
        rw [Report.sum, List.foldr_cons]
        exact hreport.trans (Report.zero_add _).symm

/-! ## Both passes -/

/-- **Jobs are processed independently** exactly when the details of none stand in the way of others. -/
theorem alone_iff [DecidableEq F] (current : List (JobKey F)) (observedAt : DateTime) (dryRun : Bool)
    (records snapshots : List (Record F × Lookup F)) :
    (ReconcilesAlone current observedAt records ↔ (∀ p ∈ records, ¬ Queues current p) ∨
      (Readable current records ∧ records.Pairwise fun p q => Blocks current p → ¬ Queues current q)) ∧
    (BackfillsAlone dryRun snapshots ↔ (∀ p ∈ snapshots, ¬ Raises p) ∨ ∀ p ∈ snapshots, Raises p) :=
  ⟨reconcile_alone_iff records, backfill_alone_iff dryRun snapshots⟩

/-- Details whose steps are null. -/
def nullSteps : Payload ℚ := [("job_id", .int 7), ("steps", .none)]

theorem nullSteps_unreadable : ¬ WellFormed nullSteps := by
  rintro ⟨-, ⟨steps, hsteps, -⟩, -⟩
  cases hsteps

/-- A second record, whose job slurmrestd no longer knows. -/
def purgedJob : Record ℚ := ⟨bareRow 9 2000000 "RUNNING", 9, 2000000, rfl, rfl⟩

/-- With a sibling's null steps before it, the purged job has no row queued and no count. -/
theorem nullSteps_block :
    ¬ ReconcilesAlone [] 0 [(arrayTask, .found nullSteps), (purgedJob, .notFound)] ∧
      ¬ BackfillsAlone false [(arrayTask, .found nullSteps), (purgedJob, .notFound)] := by
  constructor
  · rw [reconcile_alone_iff]
    rintro (hnone | ⟨hread, -⟩)
    · refine hnone (purgedJob, .notFound) (by simp) ⟨by decide, ?_, ?_⟩
      · intro p hp _ job hjob
        rw [List.mem_singleton.1 hp] at hjob
        cases hjob
      · rintro ⟨job, hjob, -⟩
        cases hjob
    · exact nullSteps_unreadable (hread (arrayTask, .found nullSteps) (by simp) (by simp) nullSteps rfl)
  · rw [backfill_alone_iff]
    rintro (hquiet | hall)
    · exact hquiet (arrayTask, .found nullSteps) (by simp) ⟨nullSteps, rfl, .inl nullSteps_unreadable⟩
    · obtain ⟨detail, hdetail, -⟩ := hall (purgedJob, .notFound) (by simp)
      cases hdetail

end SlurmWeb.Jobs
