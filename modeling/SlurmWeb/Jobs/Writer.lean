import SlurmWeb.Jobs.Reconcile

/-!
# The writer loop of a `JobsStore` (slurmweb/persistence/jobs_store.py)

Each round takes a snapshot of the listed jobs, asks for the details of the active records that are
missing from it, and flushes. What is active is read from the table, not from the pending rows.

| here | there |
| --- | --- |
| `terminalState`, `activeRecords` | `TERMINAL_STATES` (:32), `_active_records` (:1087) |
| `Table.upsert` | `_UPSERT_SQL` (:50) |
| `prepareRows` | `_prepare_rows` (:1068) |
| `scheduledSnapshot` | `_scheduled_snapshot` (:1053) |
| `State.flush` | `_flush` (:1549) |
| `WriterRun` | the loop of `_run` (:1036) |

* `State.flush_run`, `snapshot_run` — a round of the writer is a run of the store.
* `terminal_not_fabricated` — no made-up row follows an observed terminal one, while no due record
  has such a row still pending.
* `failed_flush_fabricates` — when it has, the made-up row takes its place.
-/

namespace SlurmWeb.Jobs

open Strings Py

variable {F : Type} [Python F]

/-! ## States -/

/-- `TERMINAL_STATES` (:32) -/
def terminalStates : List Str :=
  ["COMPLETED", "FAILED", "CANCELLED", "TIMEOUT", "NODE_FAIL", "DEADLINE", "OUT_OF_MEMORY", "PREEMPTED", "BOOT_FAIL"]

/-- `text LIKE 'pattern%'`, for a pattern without `%`. -/
def likePrefix : Str → Str → Bool
  | [], _ => true
  | _ :: _, [] => false
  | c :: pattern, d :: text => (c == '_' || c == d) && likePrefix pattern text

/-- `text LIKE '%pattern%'` -/
def likeInfix (pattern text : Str) : Bool := text.tails.any (likePrefix pattern)

/-- The states `_active_records` leaves out. -/
def terminalState (jobState : Option Str) : Bool :=
  jobState.any fun state => terminalStates.any fun terminal => likeInfix terminal state

/-! ## The table -/

/-- What an upsert leaves in a record that is there: the columns not named in the update stay, some
are kept where the new row has none. -/
def mergedRow (old new : Row F) : Row F :=
  { new with
    jobName := old.jobName
    account := old.account
    group := old.group
    tresReqStr := old.tresReqStr
    tresPerJob := old.tresPerJob
    tresPerNode := old.tresPerNode
    eligibleTime := new.eligibleTime.or old.eligibleTime
    lastSchedEvaluationTime := new.lastSchedEvaluationTime.or old.lastSchedEvaluationTime
    tresRequested := new.tresRequested.or old.tresRequested
    tresAllocated := new.tresAllocated.or old.tresAllocated
    usedMemoryGb := new.usedMemoryGb.or old.usedMemoryGb
    usageStats := new.usageStats.or old.usageStats
    usedCpuCoresAvg := new.usedCpuCoresAvg.or old.usedCpuCoresAvg }

/-- A row as the table holds it: the user name is the name of its user. -/
def storedRecord (row : Row F) (jobId : Int) (submitTime : DateTime) : Record F where
  row := { row with
    jobId := .int jobId
    submitTime := some submitTime
    userName := if row.userId.isNone then .none else row.userName }
  jobId
  submitTime
  hasId := rfl
  hasTime := rfl

variable [DecidableEq F]

/-- `job_snapshots`, unique on `(job_id, submit_time)`. -/
structure Table (F : Type) [Python F] [DecidableEq F] where
  rows : Dict (JobKey F) (Record F)
  keyed : ∀ k record, rows.get k = some record → record.key = k

def Table.empty : Table F := ⟨∅, by simp⟩

def Table.set (t : Table F) (record : Record F) : Table F where
  rows := t.rows.set record.key record
  keyed k r h := by
    rw [Dict.get_set] at h
    split at h
    · cases h; assumption
    · exact t.keyed k r h

/-- `_UPSERT_SQL` (:50); a job id that is no number has no place in the table. -/
def Table.upsert (t : Table F) (u : Upsert F) : Table F :=
  match u.row.key with
  | (.int jobId, some submitTime) =>
    t.set (storedRecord (match t.rows.get (.int jobId, some submitTime) with
      | some old => mergedRow old.row u.dbRow
      | none => u.dbRow) jobId submitTime)
  | _ => t

/-- `_active_records` (:1087) -/
def activeRecords (t : Table F) : List (Record F) := t.rows.values.filter fun r => !terminalState r.row.jobState

/-- The table after everything persisted so far. -/
def tableOf (table : Table F) (history : List (Entry F)) : Table F :=
  history.foldl (fun t entry => match entry with
    | .queued _ => t
    | .persisted u => t.upsert u) table

/-! ## A round of the writer -/

omit [DecidableEq F] in
/-- `_prepare_rows` (:1068) -/
def prepareRows : List (Value F) → Except Py.Error (List (Row F))
  | [] => return []
  | .dict job :: jobs => do
    let row ← extract job
    let rows ← prepareRows jobs
    return if missingKey row then rows else row :: rows
  | _ :: _ => .error .attributeError

/-- What a round meets. -/
structure Tick (F : Type) [Python F] where
  /-- The listed jobs, `none` where the list cannot be had. -/
  jobs : Option (List (Value F))
  /-- The active records, `none` where the query fails, each with the answer of its lookup. -/
  records : Option (List (Record F × Lookup F))
  observedAt : DateTime
  chunks : Nat → ChunkEnv

/-- `_scheduled_snapshot` (:1053): every exception ends it where it is raised. -/
def scheduledSnapshot (t : Tick F) (s : State F) : State F :=
  match t.jobs with
  | none => s
  | some jobs =>
    match prepareRows jobs with
    | .error _ => s
    | .ok rows =>
      let listed := rows.map fun row => (Origin.listed, row)
      match (assigned listed).2, t.records with
      | .ok (), some records =>
        match reconcileRows ((assigned listed).1.map KeyedRow.key) t.observedAt records with
        | .ok queued => (s.queue listed).queue queued
        | .error _ => s.queue listed
      | _, _ => s.queue listed

/-- How many chunks the flush of a state writes. -/
def chunkCount (s : State F) : Nat := match s.begin.flight with
  | some flight => flight.todo.length
  | none => 0

/-- `_flush` (:1549), with nothing queued meanwhile. -/
def State.flush (s : State F) (chunks : Nat → ChunkEnv) : State F :=
  ((List.range (chunkCount s)).foldl (fun s i => s.chunk (chunks i)) s.begin).finish

/-- No chunk of the flush is left without a connection. -/
def Connected (s : State F) (chunks : Nat → ChunkEnv) : Prop := ∀ i < chunkCount s, (chunks i).connection = true

def tick (t : Tick F) (s : State F) : State F := (scheduledSnapshot t s).flush t.chunks

/-- The records of a round are the active ones, in any order. -/
def Tick.Reads (t : Tick F) (table : Table F) (s : State F) : Prop :=
  ∀ records, t.records = some records → (records.map Prod.fst).Perm (activeRecords (tableOf table s.history))

/-- The runs of the loop of `_run` whose rounds are allowed, and whether the thread is alive: an
exception of a flush ends it. -/
inductive WriterRun (table : Table F) (allowed : Tick F → State F → Prop) : Bool → State F → Prop
  | start : WriterRun table allowed true initial
  | round {s : State F} (t : Tick F) (alive : Bool) : WriterRun table allowed true s → t.Reads table s →
      allowed t s → (alive = true → Connected (scheduledSnapshot t s) t.chunks) →
      WriterRun table allowed alive (tick t s)

/-! ## Flushes -/

namespace State

/-- One more chunk, while there is one. -/
def chunksDone (s : State F) (chunks : Nat → ChunkEnv) (n : Nat) : State F :=
  (List.range n).foldl (fun s i => s.chunk (chunks i)) s.begin

theorem chunksDone_succ (s : State F) (chunks : Nat → ChunkEnv) (n : Nat) :
    s.chunksDone chunks (n + 1) = (s.chunksDone chunks n).chunk (chunks n) := by
  rw [chunksDone, List.range_succ, List.foldl_append]
  rfl

theorem flush_eq (s : State F) (chunks : Nat → ChunkEnv) :
    s.flush chunks = (s.chunksDone chunks (chunkCount s)).finish := rfl

/-- A flush is a run of the store. -/
theorem flush_run {s : State F} {chunks : Nat → ChunkEnv} (h : Run (fun env => env.connection = true) s)
    (hidle : s.flight = none) (hconn : Connected s chunks) :
      Run (fun env => env.connection = true) (s.flush chunks) := by
  have hdone : ∀ n ≤ chunkCount s, Run (fun env => env.connection = true) (s.chunksDone chunks n) := by
    intro n
    induction n with
    | zero => exact fun _ => .begin h hidle
    | succ n ih =>
      intro hn
      rw [chunksDone_succ]
      exact .chunk _ (ih (by omega)) (hconn n (by omega))
  exact .finish (hdone _ le_rfl)

/-- The chunks still to write after `n` of them. -/
theorem chunksDone_todo (s : State F) (chunks : Nat → ChunkEnv) (n : Nat) :
    ∀ flight, (s.chunksDone chunks n).flight = some flight → flight.todo.length + n ≤ chunkCount s ∨
      flight.todo = [] := by
  induction n with
  | zero =>
    intro flight hflight
    left
    have : s.begin.flight = some flight := hflight
    simp [chunkCount, this]
  | succ n ih =>
    intro flight hflight
    rw [chunksDone_succ] at hflight
    generalize s.chunksDone chunks n = s' at ih hflight
    unfold chunk at hflight
    split at hflight
    next rows todo failed hs' =>
      have hbound := ih _ hs'
      simp only [List.length_cons, List.cons_ne_nil, or_false] at hbound
      split at hflight
      · cases hflight
      · cases hflight
        left
        dsimp only
        omega
    next hnot =>
      rcases ih flight hflight with hlen | hnil
      · obtain ⟨todo, failed⟩ := flight
        cases todo with
        | nil => exact .inr rfl
        | cons rows todo => exact absurd hflight (hnot rows todo failed)
      · exact .inr hnil

/-- After its flush a store is idle. -/
theorem flush_idle (s : State F) (chunks : Nat → ChunkEnv) : (s.flush chunks).flight = none := by
  rw [flush_eq]
  have htodo := chunksDone_todo s chunks (chunkCount s)
  generalize s.chunksDone chunks (chunkCount s) = s' at htodo
  unfold finish
  split
  · split <;> rfl
  next hnot =>
    cases hflight : s'.flight with
    | none => rfl
    | some flight =>
      obtain ⟨todo, failed⟩ := flight
      rcases htodo _ hflight with hlen | hnil
      · have : todo = [] := List.length_eq_zero_iff.1 (by dsimp only at hlen; omega)
        exact absurd (this ▸ hflight) (hnot failed)
      · exact absurd (show s'.flight = some ⟨[], failed⟩ by rw [hflight]; simpa using hnil) (hnot failed)

/-- Rows of a batch, apart from their users. -/
def FromBatch (batch : KeyedRow F → Prop) (r : KeyedRow F) : Prop := ∃ q, batch q ∧ SameRow q r

/-- A flush under way has rows of its batch in flight, and has persisted rows of its batch. -/
structure Flushes (batch : KeyedRow F → Prop) (history : List (Entry F)) (s : State F) : Prop where
  flying : ∀ r ∈ s.flying, FromBatch batch r
  persisted : ∃ us : List (Upsert F), s.history = history ++ us.map .persisted ∧ ∀ u ∈ us, FromBatch batch u.row

omit [DecidableEq F] in
theorem rowByRow_from (envs : Nat → WriteEnv) : ∀ (rows : List (KeyedRow F)) (i : Nat),
    (∀ u ∈ (writeRowByRow envs i rows).1, ∃ r ∈ rows, SameRow r u.row) ∧
      ∀ f ∈ (writeRowByRow envs i rows).2, ∃ r ∈ rows, SameRow r f
  | [], _ => by simp [writeRowByRow]
  | r :: rows, i => by
    have hspec := writeRows_spec (envs i) [r]
    obtain ⟨hcommitted, hfailed⟩ := rowByRow_from envs rows (i + 1)
    constructor
    · intro u hu
      rcases List.mem_append.1 hu with hu | hu
      · obtain ⟨q, hq, hsame⟩ := hspec.written u.row (List.mem_map_of_mem hu)
        exact ⟨q, by simp [List.mem_singleton.1 hq], hsame⟩
      · obtain ⟨q, hq, hsame⟩ := hcommitted u hu
        exact ⟨q, List.mem_cons_of_mem _ hq, hsame⟩
    · intro f hf
      have hcases : f ∈ (writeRows (envs i) [r]).rows ∨ f ∈ (writeRowByRow envs (i + 1) rows).2 := by
        rw [writeRowByRow] at hf
        split at hf
        · exact .inr hf
        · exact List.mem_append.1 hf
      rcases hcases with hf | hf
      · obtain ⟨q, hq, hsame⟩ := hspec.same.exists_left f hf
        exact ⟨q, by simp [List.mem_singleton.1 hq], hsame⟩
      · obtain ⟨q, hq, hsame⟩ := hfailed f hf
        exact ⟨q, List.mem_cons_of_mem _ hq, hsame⟩

omit [DecidableEq F] in
/-- What a chunk commits and what it leaves are its rows. -/
theorem flushChunk_from {env : ChunkEnv} {rows failed : List (KeyedRow F)} {committed : List (Upsert F)}
    (h : flushChunk env rows = some (committed, failed)) :
    (∀ u ∈ committed, ∃ r ∈ rows, SameRow r u.row) ∧ ∀ f ∈ failed, ∃ r ∈ rows, SameRow r f := by
  have hspec := writeRows_spec env.bulk rows
  have hwritten : ∀ u ∈ (writeRows env.bulk rows).committed, ∃ r ∈ rows, SameRow r u.row :=
    fun u hu => hspec.written u.row (List.mem_map_of_mem hu)
  unfold flushChunk at h
  split at h
  · cases h
  · dsimp only at h
    split at h
    · cases h
      exact ⟨hwritten, by simp⟩
    · cases h
      obtain ⟨hcommitted, hfailed⟩ := rowByRow_from env.rows (writeRows env.bulk rows).rows 0
      have hback : ∀ q ∈ (writeRows env.bulk rows).rows, ∀ r, SameRow q r → ∃ p ∈ rows, SameRow p r := by
        intro q hq r hqr
        obtain ⟨p, hp, hpq⟩ := hspec.same.exists_left q hq
        exact ⟨p, hp, hpq.trans hqr⟩
      refine ⟨fun u hu => ?_, fun f hf => ?_⟩
      · rcases List.mem_append.1 hu with hu | hu
        · exact hwritten u hu
        · obtain ⟨q, hq, hsame⟩ := hcommitted u hu
          exact hback q hq u.row hsame
      · obtain ⟨q, hq, hsame⟩ := hfailed f hf
        exact hback q hq f hsame

theorem Flushes.chunk {batch : KeyedRow F → Prop} {history : List (Entry F)} {s : State F} (h : Flushes batch history s)
    (env : ChunkEnv) : Flushes batch history (s.chunk env) := by
  obtain ⟨pending, flight, past⟩ := s
  obtain ⟨hflying, us, hpast, hus⟩ := h
  dsimp only at hpast
  subst hpast
  unfold State.chunk
  dsimp only
  split
  next rows todo failed =>
    have hrow : ∀ r ∈ rows, FromBatch batch r := fun r hr => hflying r (by simp [State.flying, hr])
    have hlift : ∀ r, (∃ q ∈ rows, SameRow q r) → FromBatch batch r := by
      rintro r ⟨q, hq, hsame⟩
      obtain ⟨p, hp, hpq⟩ := hrow q hq
      exact ⟨p, hp, hpq.trans hsame⟩
    split
    next => exact ⟨by simp [State.flying], us, rfl, hus⟩
    next committed failed' hchunk =>
      obtain ⟨hcommitted, hfailed⟩ := flushChunk_from hchunk
      refine ⟨fun r hr => ?_, us ++ committed, by simp, fun u hu => ?_⟩
      · have hcases : r ∈ todo.flatten ++ failed ∨ r ∈ failed' := by
          rw [← List.mem_append, List.append_assoc]
          exact hr
        rcases hcases with hr | hr
        · refine hflying r ?_
          simp only [State.flying, List.flatten_cons, List.append_assoc]
          exact List.mem_append_right _ hr
        · exact hlift r (hfailed r hr)
      · rcases List.mem_append.1 hu with hu | hu
        · exact hus u hu
        · exact hlift u.row (hcommitted u hu)
  next => exact ⟨hflying, us, rfl, hus⟩

theorem finish_history (s : State F) : s.finish.history = s.history := by
  unfold finish
  split
  · split <;> rfl
  · rfl

/-- A flush persists rows that were pending. -/
theorem flush_history {s : State F} (hidle : s.flight = none) (chunks : Nat → ChunkEnv) :
    ∃ us : List (Upsert F), (s.flush chunks).history = s.history ++ us.map .persisted ∧
      ∀ u ∈ us, ∃ r, s.pending.rows.get u.row.key = some r ∧ SameRow r u.row := by
  have hbegin : Flushes (fun r => s.pending.rows.get r.key = some r) s.history s.begin := by
    refine ⟨fun r hr => ⟨r, ?_, SameRow.refl r⟩, [], by simp [begin_history], by simp⟩
    unfold begin at hr
    dsimp only at hr
    split at hr
    · rw [flying, hidle] at hr
      cases hr
    · have hmem : r ∈ s.pending.rows.values := by simpa [flying, flatten_chunks] using hr
      obtain ⟨k, hk⟩ := Dict.mem_values_iff.1 hmem
      rwa [s.pending.keyed k r hk]
  have hdone : ∀ n, Flushes (fun r => s.pending.rows.get r.key = some r) s.history (s.chunksDone chunks n) := by
    intro n
    induction n with
    | zero => exact hbegin
    | succ n ih =>
      rw [chunksDone_succ]
      exact ih.chunk _
  obtain ⟨us, hhistory, hus⟩ := (hdone (chunkCount s)).persisted
  refine ⟨us, by rw [flush_eq, finish_history, hhistory], fun u hu => ?_⟩
  obtain ⟨r, hr, hsame⟩ := hus u hu
  exact ⟨r, by rwa [hsame.key], hsame⟩

end State

/-! ## Observed and made-up rows -/

section Entries

omit [DecidableEq F]

/-- A row of a job list or of a detail lookup, with a terminal state. -/
def KeyedRow.observedTerminal (r : KeyedRow F) : Bool := decide (r.origin ≠ .completed) && terminalState r.row.jobState

/-- A row of a job list or of a detail lookup, with a state that is not terminal. -/
def KeyedRow.observedActive (r : KeyedRow F) : Bool := decide (r.origin ≠ .completed) && !terminalState r.row.jobState

/-- A row built by `_complete_missing_job`. -/
def KeyedRow.fabricated (r : KeyedRow F) : Bool := decide (r.origin = .completed)

def Entry.row : Entry F → KeyedRow F
  | .queued r => r
  | .persisted u => u.row

/-- The entry queues a row observed terminal. -/
def Entry.observesTerminal : Entry F → Bool
  | .queued r => r.observedTerminal
  | .persisted _ => false

/-- `b` does not put a made-up row after the terminal one of `a`. -/
def NoFabrication (a b : Entry F) : Prop :=
  a.observesTerminal = true → b.row.key = a.row.key → b.row.fabricated = false

/-- `b` does not report a job active that `a` reported terminal. -/
def Settles (a b : Entry F) : Prop :=
  a.observesTerminal = true → b.row.key = a.row.key → b.row.observedActive = false

theorem SameRow.fabricated {r r' : KeyedRow F} (h : SameRow r r') : r'.fabricated = r.fabricated := by
  rw [KeyedRow.fabricated, h.origin, KeyedRow.fabricated]

theorem SameRow.jobState {r r' : KeyedRow F} (h : SameRow r r') : r'.row.jobState = r.row.jobState := by
  obtain ⟨userId, hrow⟩ := h.row
  rw [hrow]

theorem SameRow.observedTerminal {r r' : KeyedRow F} (h : SameRow r r') : r'.observedTerminal = r.observedTerminal := by
  rw [KeyedRow.observedTerminal, h.origin, h.jobState, KeyedRow.observedTerminal]

theorem observedTerminal_of_not {r : KeyedRow F} (hfab : r.fabricated = false) (hactive : r.observedActive = false) :
    r.observedTerminal = true := by
  have horigin : r.origin ≠ .completed := by simpa [KeyedRow.fabricated] using hfab
  simpa [KeyedRow.observedActive, KeyedRow.observedTerminal, horigin] using hactive

theorem not_fabricated_of_terminal {r : KeyedRow F} (h : r.observedTerminal = true) : r.fabricated = false := by
  have horigin : r.origin ≠ .completed := (by simpa [KeyedRow.observedTerminal] using h : _ ∧ _).1
  simp [KeyedRow.fabricated, horigin]

end Entries

/-- Once a key was observed terminal, the last row queued for it is. -/
theorem latest_terminal {a : Entry F} : ∀ {history : List (Entry F)}, history.Pairwise NoFabrication →
    history.Pairwise Settles → a ∈ history → a.observesTerminal = true →
      ∃ r, latest history a.row.key = some r ∧ r.observedTerminal = true := by
  intro history
  induction history using List.reverseRecOn with
  | nil => intro _ _ ha; cases ha
  | append_singleton history b ih =>
    intro hfab hsettled ha hterminal
    rw [List.pairwise_append] at hfab hsettled
    have hearlier : a ∈ history → ∃ r, latest history a.row.key = some r ∧ r.observedTerminal = true :=
      fun ha => ih hfab.1 hsettled.1 ha hterminal
    cases b with
    | persisted u =>
      rcases List.mem_append.1 ha with ha | ha
      · have := latest_persisted history [u]
        rw [List.map_singleton] at this
        rw [this]
        exact hearlier ha
      · rw [List.mem_singleton.1 ha] at hterminal
        cases hterminal
    | queued r =>
      rw [latest_queued]
      by_cases hkey : r.key = a.row.key
      · refine ⟨r, by rw [hkey, Function.update_self], ?_⟩
        rcases List.mem_append.1 ha with ha | ha
        · exact observedTerminal_of_not (hfab.2.2 a ha _ (List.mem_singleton_self _) hterminal hkey)
            (hsettled.2.2 a ha _ (List.mem_singleton_self _) hterminal hkey)
        · rw [List.mem_singleton.1 ha] at hterminal
          exact hterminal
      · rw [Function.update_of_ne (Ne.symm hkey)]
        rcases List.mem_append.1 ha with ha | ha
        · exact hearlier ha
        · rw [List.mem_singleton.1 ha] at hkey
          exact absurd rfl hkey

/-! ## The table and the history -/

omit [DecidableEq F] in
theorem prepareDbRow_jobState {row dbRow : Row F} (h : prepareDbRow row = .ok dbRow) :
    dbRow.jobState = row.jobState := by
  obtain ⟨memory, -, h⟩ := Except.bind_eq_ok.1 h
  obtain ⟨cpu, -, h⟩ := Except.bind_eq_ok.1 h
  cases h
  rfl

theorem Table.set_get (t : Table F) (record : Record F) (k : JobKey F) :
    (t.set record).rows.get k = if record.key = k then some record else t.rows.get k := Dict.get_set ..

/-- An upsert sets one record, with the state of its row. -/
theorem Table.upsert_eq (t : Table F) {u : Upsert F} {jobId : Int} {time : DateTime}
    (hkey : u.row.key = (.int jobId, some time)) :
    ∃ row, row.jobState = u.dbRow.jobState ∧ t.upsert u = t.set (storedRecord row jobId time) := by
  unfold Table.upsert
  rw [hkey]
  dsimp only
  cases t.rows.get (.int jobId, some time) with
  | some old => exact ⟨mergedRow old.row u.dbRow, rfl, rfl⟩
  | none => exact ⟨u.dbRow, rfl, rfl⟩

/-- A record under the key of an upsert has the state of its row; the other records stay. -/
theorem Table.upsert_state {t : Table F} {u : Upsert F} {record : Record F}
    (h : (t.upsert u).rows.get record.key = some record) :
    (u.row.key = record.key ∧ record.row.jobState = u.row.row.jobState) ∨
      (u.row.key ≠ record.key ∧ t.rows.get record.key = some record) := by
  by_cases hkey : u.row.key = record.key
  · obtain ⟨row, hrow, hset⟩ := t.upsert_eq hkey
    rw [hset, Table.set_get] at h
    have hself : (storedRecord row record.jobId record.submitTime).key = record.key := rfl
    rw [if_pos hself, Option.some.injEq] at h
    have hstate : record.row.jobState = row.jobState := by
      rw [← h]
      rfl
    exact .inl ⟨hkey, by rw [hstate, hrow, prepareDbRow_jobState u.prepared]⟩
  · refine .inr ⟨hkey, ?_⟩
    by_cases hint : ∃ jobId time, u.row.key = (.int jobId, some time)
    · obtain ⟨jobId, time, hu⟩ := hint
      obtain ⟨row, -, hset⟩ := t.upsert_eq hu
      rw [hset, Table.set_get, if_neg] at h
      · exact h
      · intro hne
        exact hkey (hu.trans hne)
    · have hskip : t.upsert u = t := by
        unfold Table.upsert
        split
        next jobId time hu => exact absurd ⟨jobId, time, hu⟩ hint
        · rfl
      rwa [hskip] at h

/-- Rows that are only queued leave the table as it is. -/
theorem tableOf_queued {table : Table F} {history : List (Entry F)}
    (h : history.all (fun entry => entry.observesTerminal) = true) : tableOf table history = table := by
  induction history with
  | nil => rfl
  | cons entry history ih =>
    rw [List.all_cons, Bool.and_eq_true] at h
    cases entry with
    | queued r => exact ih h.2
    | persisted u => cases h.1

/-- The state of a record is that of the row persisted last under its key. -/
theorem tableOf_state (table : Table F) {u : Upsert F} {record : Record F} : ∀ {history : List (Entry F)},
    lastPersisted history record.key = some u → (tableOf table history).rows.get record.key = some record →
      record.row.jobState = u.row.row.jobState := by
  intro history
  induction history using List.reverseRecOn with
  | nil => intro h; cases h
  | append_singleton history b ih =>
    intro hlast hget
    rw [tableOf, List.foldl_append] at hget
    cases b with
    | queued r =>
      rw [lastPersisted_queued] at hlast
      exact ih hlast hget
    | persisted u' =>
      have hlast' : (if u'.row.key = record.key then some u' else lastPersisted history record.key) = some u := by
        rw [lastPersisted, List.foldl_append] at hlast
        exact hlast
      rcases Table.upsert_state hget with ⟨hkey, hstate⟩ | ⟨hkey, hget⟩
      · rw [if_pos hkey] at hlast'
        cases hlast'
        exact hstate
      · rw [if_neg hkey] at hlast'
        exact ih hlast' hget

/-! ## Rounds -/

/-- The keyed rows of the listed jobs. -/
def Tick.listed (t : Tick F) : List (KeyedRow F) :=
  match t.jobs with
  | none => []
  | some jobs =>
    match prepareRows jobs with
    | .error _ => []
    | .ok rows => (assigned (rows.map fun row => (Origin.listed, row))).1

/-- The rows a round queues for records that are missing from the list. -/
def Tick.Reconciles (t : Tick F) (rows : List (KeyedRow F)) : Prop :=
  rows = [] ∨ ∃ records, t.records = some records ∧ rows = reconcile (t.listed.map KeyedRow.key) t.observedAt records

/-- No due record of the round has a terminal row still pending, and details are of the job asked for. -/
def Undisturbed (t : Tick F) (s : State F) : Prop :=
  ∀ records, t.records = some records → ∀ p ∈ records, due (t.listed.map KeyedRow.key) p = true →
    OwnDetails p.1 p.2 ∧ ∀ r, s.pending.rows.get p.1.key = some r → r.observedTerminal = false

omit [DecidableEq F] in
theorem listed_origin (t : Tick F) : ∀ r ∈ t.listed, r.origin = .listed := by
  intro r hr
  unfold Tick.listed at hr
  split at hr
  · cases hr
  · split at hr
    · cases hr
    next rows _ =>
      obtain ⟨q, hq, hqr⟩ := (assigned_spec (rows.map fun row => (Origin.listed, row))).exists_left r hr
      obtain ⟨row, -, rfl⟩ := List.mem_map.1 (List.mem_of_mem_take hq)
      exact hqr.1

/-- A snapshot queues the listed rows, then those of reconciled records. -/
theorem snapshot_spec (t : Tick F) (s : State F) : ∃ rows, t.Reconciles rows ∧
    (scheduledSnapshot t s).history = s.history ++ t.listed.map .queued ++ rows.map .queued := by
  unfold scheduledSnapshot Tick.Reconciles Tick.listed
  split
  · exact ⟨[], .inl rfl, by simp⟩
  · split
    · exact ⟨[], .inl rfl, by simp⟩
    · dsimp only
      split
      next records _ hrecords =>
        split
        next queued hqueued => exact ⟨_, .inr ⟨records, hrecords, rfl⟩, by simp [reconcile, hqueued, State.queue]⟩
        · exact ⟨[], .inl rfl, by simp [State.queue]⟩
      · exact ⟨[], .inl rfl, by simp [State.queue]⟩

/-- A snapshot is a run of the store, outside any flush. -/
theorem snapshot_run (t : Tick F) {s : State F} (h : Run (fun env => env.connection = true) s)
    (hidle : s.flight = none) :
    Run (fun env => env.connection = true) (scheduledSnapshot t s) ∧ (scheduledSnapshot t s).flight = none := by
  have hqueue : ∀ {s : State F} rows, Run (fun env => env.connection = true) s ∧ s.flight = none →
      Run (fun env => env.connection = true) (s.queue rows) ∧ (s.queue rows).flight = none :=
    fun rows h => ⟨.queue rows h.1, h.2⟩
  unfold scheduledSnapshot
  split
  · exact ⟨h, hidle⟩
  · split
    · exact ⟨h, hidle⟩
    · dsimp only
      split
      · split
        · exact hqueue _ (hqueue _ ⟨h, hidle⟩)
        · exact hqueue _ ⟨h, hidle⟩
      · exact hqueue _ ⟨h, hidle⟩

theorem Table.values_key (t : Table F) : t.rows.values.map Record.key = t.rows.keys := by
  rw [Dict.values, Dict.keys, List.map_map]
  refine List.map_congr_left ?_
  rintro ⟨k, record⟩ he
  exact t.keyed k record (Dict.mem_entries_iff.1 he)

/-- Active records have different keys. -/
theorem active_nodup (t : Table F) : (activeRecords t).Pairwise fun a b => a.key ≠ b.key := by
  have hkeys : (t.rows.values.map Record.key).Nodup := by
    rw [t.values_key]
    exact t.rows.nodup
  exact (List.pairwise_map.1 hkeys).filter _

theorem mem_activeRecords {t : Table F} {record : Record F} :
    record ∈ activeRecords t ↔ t.rows.get record.key = some record ∧ terminalState record.row.jobState = false := by
  rw [activeRecords, List.mem_filter, Dict.mem_values_iff]
  constructor
  · rintro ⟨⟨k, hk⟩, hstate⟩
    exact ⟨by rwa [t.keyed k record hk], by simpa using hstate⟩
  · rintro ⟨hk, hstate⟩
    exact ⟨⟨_, hk⟩, by simpa using hstate⟩

/-- An active record without a pending terminal row was never observed terminal. -/
theorem active_not_terminal {table : Table F} {s : State F} (hkept : Kept s) (hfab : s.history.Pairwise NoFabrication)
    (hsettled : s.history.Pairwise Settles) {record : Record F}
      (hrecord : record ∈ activeRecords (tableOf table s.history))
    (hpending : ∀ r, s.pending.rows.get record.key = some r → r.observedTerminal = false) {a : Entry F}
    (ha : a ∈ s.history) (hkey : a.row.key = record.key) : a.observesTerminal = false := by
  by_contra hterminal
  rw [Bool.not_eq_false] at hterminal
  obtain ⟨r, hr, hrterminal⟩ := latest_terminal hfab hsettled ha hterminal
  rw [hkey] at hr
  rcases (hkept record.key r hr).2 with ⟨r', hr', hsame⟩ | ⟨u, hu, hsame⟩
  · rw [← hsame.observedTerminal, hpending r' hr'] at hrterminal
    cases hrterminal
  · obtain ⟨hget, hactive⟩ := mem_activeRecords.1 hrecord
    have hstate : terminalState u.row.row.jobState = true := by
      rw [hsame.jobState]
      exact (by simpa [KeyedRow.observedTerminal] using hrterminal : _ ∧ _).2
    rw [tableOf_state table hu hget, hstate] at hactive
    cases hactive

/-! ## No made-up row after a terminal one -/

/-- The reconciled rows of a round are of different due records. -/
theorem reconciled_rows {t : Tick F} {table : Table F} {s : State F} (hreads : t.Reads table s) (hok : Undisturbed t s)
    {rows : List (KeyedRow F)} (h : t.Reconciles rows) :
    rows.Pairwise (fun a b => a.key ≠ b.key) ∧ ∀ r ∈ rows, r.key ∉ t.listed.map KeyedRow.key ∧
      ∃ record ∈ activeRecords (tableOf table s.history), r.key = record.key ∧
        ∀ q, s.pending.rows.get record.key = some q → q.observedTerminal = false := by
  rcases h with rfl | ⟨records, hrecords, rfl⟩
  · simp
  · cases hrows : reconcileRows (t.listed.map KeyedRow.key) t.observedAt records with
    | error e => simp [reconcile, hrows]
    | ok queued =>
      have hread : Readable (t.listed.map KeyedRow.key) records := by
        rw [← reconcileRows_returns_iff _ t.observedAt, hrows]
        exact Except.returns_ok queued
      have hown := (reconcile_iff (t.listed.map KeyedRow.key) t.observedAt records).2
        (.inr ⟨hread, fun p hp hdue => (hok records hrecords p hp hdue).1⟩)
      have hfst : (records.map Prod.fst).Pairwise fun a b => a.key ≠ b.key :=
        ((hreads records hrecords).pairwise_iff fun h => Ne.symm h).2 (active_nodup _)
      rw [List.pairwise_map] at hfst
      constructor
      · have hpairs := hfst.filter (due (t.listed.map KeyedRow.key))
        have hkeys : (records.filter (due (t.listed.map KeyedRow.key))).map (fun p => p.1.key) =
            (reconcile (t.listed.map KeyedRow.key) t.observedAt records).map KeyedRow.key :=
          List.forall₂_eq_eq_eq ▸ List.forall₂_map_left_iff.2
            (List.forall₂_map_right_iff.2 (hown.imp fun _ _ h => h.key.symm))
        rw [← List.pairwise_map (f := KeyedRow.key) (R := (· ≠ ·)), ← hkeys, List.pairwise_map]
        exact hpairs
      · intro r hr
        obtain ⟨p, hp, hbuilt⟩ := hown.exists_left r hr
        obtain ⟨hp, hdue⟩ := List.mem_filter.1 hp
        have hmissing : p.1.key ∉ t.listed.map KeyedRow.key := (by simpa [due] using hdue : _ ∧ _).1
        refine ⟨hbuilt.key ▸ hmissing, p.1, ?_, hbuilt.key, (hok records hrecords p hp hdue).2⟩
        exact (hreads records hrecords).mem_iff.1 (List.mem_map_of_mem hp)

/-- A snapshot puts no made-up row after a terminal one. -/
theorem snapshot_noFabrication {t : Tick F} {table : Table F} {s : State F} (hreads : t.Reads table s)
    (hok : Undisturbed t s) (hkept : Kept s) (hfab : s.history.Pairwise NoFabrication)
    (hsettled : s.history.Pairwise Settles) : (scheduledSnapshot t s).history.Pairwise NoFabrication := by
  obtain ⟨rows, hrows, hhistory⟩ := snapshot_spec t s
  obtain ⟨hdistinct, hspec⟩ := reconciled_rows hreads hok hrows
  have hlisted : ∀ b ∈ t.listed.map Entry.queued, b.row.fabricated = false := by
    intro b hb
    obtain ⟨r, hr, rfl⟩ := List.mem_map.1 hb
    simp [Entry.row, KeyedRow.fabricated, listed_origin t r hr]
  rw [hhistory, List.pairwise_append, List.pairwise_append]
  refine ⟨⟨hfab, ?_, fun a _ b hb _ _ => hlisted b hb⟩, ?_, ?_⟩
  · exact List.pairwise_of_forall_mem_list fun a _ b hb _ _ => hlisted b hb
  · rw [List.pairwise_map]
    exact hdistinct.imp fun hne _ hkey => absurd hkey.symm hne
  · intro a ha b hb hterminal hkey
    obtain ⟨r, hr, rfl⟩ := List.mem_map.1 hb
    obtain ⟨hmissing, record, hrecord, hrkey, hpending⟩ := hspec r hr
    rcases List.mem_append.1 ha with ha | ha
    · have := active_not_terminal hkept hfab hsettled hrecord hpending ha (hkey.symm.trans hrkey)
      rw [hterminal] at this
      cases this
    · obtain ⟨q, hq, rfl⟩ := List.mem_map.1 ha
      exact absurd (hkey ▸ List.mem_map_of_mem hq) hmissing

/-- A flush persists no made-up row after a terminal one. -/
theorem flush_noFabrication {s : State F} (hkept : Kept s) (hidle : s.flight = none) (chunks : Nat → ChunkEnv)
    (hfab : s.history.Pairwise NoFabrication) (hsettled : s.history.Pairwise Settles) :
    (s.flush chunks).history.Pairwise NoFabrication := by
  obtain ⟨us, hhistory, hus⟩ := State.flush_history hidle chunks
  rw [hhistory, List.pairwise_append]
  refine ⟨hfab, ?_, ?_⟩
  · rw [List.pairwise_map]
    exact List.pairwise_of_forall_mem_list fun a _ b _ hterminal => by cases hterminal
  · intro a ha b hb hterminal hkey
    obtain ⟨u, hu, rfl⟩ := List.mem_map.1 hb
    obtain ⟨r, hr, hrterminal⟩ := latest_terminal hfab hsettled ha hterminal
    obtain ⟨q, hq, hsame⟩ := hus u hu
    have hqr : SameRow r q := (hkept a.row.key r hr).1 q (by rw [← hkey]; exact hq)
    refine not_fabricated_of_terminal ?_
    rw [Entry.row, hsame.observedTerminal, hqr.observedTerminal, hrterminal]

omit [DecidableEq F] in
/-- The reports of a prefix of a history. -/
theorem settled_of_append {history later : List (Entry F)} (h : (history ++ later).Pairwise Settles) :
    history.Pairwise Settles := (List.pairwise_append.1 h).1

theorem tick_history (t : Tick F) {s : State F} (hidle : (scheduledSnapshot t s).flight = none) :
    ∃ later, (tick t s).history = (scheduledSnapshot t s).history ++ later := by
  obtain ⟨us, hhistory, -⟩ := State.flush_history hidle t.chunks
  exact ⟨_, hhistory⟩

/-- While the thread is alive its rounds are runs of the store, between flushes. -/
theorem WriterRun.run {table : Table F} {allowed : Tick F → State F → Prop} {alive : Bool} {s : State F}
    (h : WriterRun table allowed alive s) :
    alive = true → Run (fun env => env.connection = true) s ∧ s.flight = none := by
  induction h with
  | start => exact fun _ => ⟨.init, rfl⟩
  | round t alive _ _ _ hconn ih =>
    intro halive
    obtain ⟨hrun, hidle⟩ := ih rfl
    obtain ⟨hrun', hidle'⟩ := snapshot_run t hrun hidle
    exact ⟨State.flush_run hrun' hidle' (hconn halive), State.flush_idle _ _⟩

/-- **An observed terminal state is not overwritten by a made-up one**, in runs that meet no due record
whose terminal row is still pending. -/
theorem terminal_not_fabricated {table : Table F} {alive : Bool} {s : State F}
    (h : WriterRun table Undisturbed alive s) (hsettled : s.history.Pairwise Settles) :
    s.history.Pairwise NoFabrication := by
  induction h with
  | start => exact .nil
  | round t alive hrun hreads hok hconn ih =>
    obtain ⟨hrun, hidle⟩ := hrun.run rfl
    obtain ⟨hrun', hidle'⟩ := snapshot_run t hrun hidle
    obtain ⟨later, hlater⟩ := tick_history t hidle'
    obtain ⟨rows, -, hhistory⟩ := snapshot_spec t _
    have hsnapshot := settled_of_append (hlater ▸ hsettled)
    have hbefore := settled_of_append (settled_of_append (hhistory ▸ hsnapshot))
    exact flush_noFabrication (queued_rows_kept hrun' hidle') hidle' t.chunks
      (snapshot_noFabrication hreads hok (queued_rows_kept hrun hidle) (ih hbefore) hbefore) hsnapshot

/-! ## A failed flush -/

instance (a b : Entry ℚ) : Decidable (NoFabrication a b) := by unfold NoFabrication; infer_instance

instance (a b : Entry ℚ) : Decidable (Settles a b) := by unfold Settles; infer_instance

/-- A listed job, submitted with `arrayTask`. -/
def listedTask (jobId : Int) (jobState : Str) : Value ℚ :=
  .dict [("job_id", .int jobId), ("job_state", .list [.str jobState]),
    ("submit_time", .dict [("set", .bool true), ("number", .int 1)])]

/-- A table that holds `arrayTask`. -/
def taskTable : Table ℚ := Table.empty.set arrayTask

/-- A round that sees the task failed. -/
def failedTask (chunks : Nat → ChunkEnv) : Tick ℚ :=
  ⟨some [listedTask 7 "FAILED"], some [(arrayTask, .notFound)], 0, chunks⟩

/-- A database that refuses every write. -/
def refusedWrites : ChunkEnv := ⟨true, ⟨none, false, .lost⟩, fun _ => ⟨none, false, .lost⟩⟩

/-- A round after the task left the cluster. -/
def purgedTask : Tick ℚ := ⟨some [], some [(arrayTask, .notFound)], 0, fun _ => refusedWrites⟩

/-- A database that takes every write. -/
def successfulWrites : ChunkEnv := ⟨true, ⟨some fun _ => none, true, .done⟩, fun _ => ⟨some fun _ => none, true, .done⟩⟩

theorem failedTask_reads (chunks : Nat → ChunkEnv) : (failedTask chunks).Reads taskTable initial := by
  intro records hrecords
  cases hrecords
  exact List.Perm.refl _

/-- Another running task of the array, submitted with the first. -/
def siblingTask : Record ℚ := ⟨bareRow 8 1000000 "RUNNING", 8, 1000000, rfl, rfl⟩

/-- A table that holds both tasks. -/
def arrayTable : Table ℚ := taskTable.set siblingTask

/-- A round that sees the one task failed and the other running. -/
def mixedTasks : Tick ℚ where
  jobs := some [listedTask 7 "FAILED", listedTask 8 "RUNNING"]
  records := some [(arrayTask, .notFound), (siblingTask, .notFound)]
  observedAt := 0
  chunks := fun _ => successfulWrites

/-- A later round: every record still active is gone from the cluster. -/
def purgedTasks (s : State ℚ) : Tick ℚ where
  jobs := some []
  records := some ((activeRecords (tableOf arrayTable s.history)).map fun record => (record, .notFound))
  observedAt := 2000000
  chunks := fun _ => successfulWrites

theorem mixedTasks_run : WriterRun arrayTable Undisturbed true (tick mixedTasks initial) := by
  refine .round mixedTasks true .start ?_ ?_ fun _ i _ => rfl
  · intro records hrecords
    cases hrecords
    exact List.Perm.refl _
  · intro records hrecords p hp hdue
    cases hrecords
    have hnone : ∀ p ∈ [(arrayTask, Lookup.notFound), (siblingTask, .notFound)],
        due (mixedTasks.listed.map KeyedRow.key) p = false := by decide
    rw [hnone p hp] at hdue
    cases hdue

/-- The table has taken the failed state of the one task; the other has left the cluster unseen. -/
def bothGone : State ℚ := tick (purgedTasks (tick mixedTasks initial)) (tick mixedTasks initial)

/-- A row is made up, for the task that was not seen to end. -/
theorem terminal_not_fabricated_bothGone :
    bothGone.history.any Entry.observesTerminal = true ∧ bothGone.history.any (·.row.fabricated) = true ∧
      bothGone.history.Pairwise NoFabrication := by
  refine ⟨by decide, by decide, ?_⟩
  refine @terminal_not_fabricated ℚ _ _ arrayTable true _
    (.round _ true mixedTasks_run ?_ ?_ fun _ i _ => rfl) (by decide)
  · intro records hrecords
    cases hrecords
    rw [List.map_map, show Prod.fst ∘ (fun record => (record, Lookup.notFound)) = (id : Record ℚ → Record ℚ) from rfl,
      List.map_id]
  · intro records hrecords p hp hdue
    cases hrecords
    obtain ⟨record, -, rfl⟩ := List.mem_map.1 hp
    refine ⟨nofun, fun r hr => ?_⟩
    have hwritten : (tick mixedTasks initial).pending.rows.keys = [] := by decide
    exact absurd (Dict.mem_keys_iff.2 ⟨r, hr⟩) (by simp [hwritten])

/-- The failed state is still pending when the task is looked up in vain: the made-up row replaces it. -/
theorem failed_flush_fabricates : ∃ s : State ℚ, WriterRun taskTable (fun _ _ => True) true s ∧
    s.history.Pairwise Settles ∧ ¬ s.history.Pairwise NoFabrication := by
  refine ⟨tick purgedTask (tick (failedTask fun _ => refusedWrites) initial), ?_, by decide, by decide⟩
  have hfirst : WriterRun taskTable (fun _ _ => True) true (tick (failedTask fun _ => refusedWrites) initial) :=
    .round _ true .start (failedTask_reads _) trivial fun _ i _ => rfl
  refine .round _ true hfirst ?_ trivial fun _ i _ => rfl
  have hunwritten : (tick (failedTask fun _ => refusedWrites) initial).history.all
      (fun e => e.observesTerminal) = true := by
    decide
  intro records hrecords
  cases hrecords
  rw [tableOf_queued hunwritten]
  exact List.Perm.refl _

end SlurmWeb.Jobs
