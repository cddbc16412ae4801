import SlurmWeb.Jobs.Extract
import SlurmWeb.Lib.Dict
import SlurmWeb.Lib.WriteBehind

/-!
# The pending rows of a `JobsStore` and their flush (slurmweb/persistence/jobs_store.py)

Rows wait in `_pending` under `(job_id, submit_time)`; the writer thread takes them all, upserts
them in chunks of 500 and puts back the rows it could not write. Requests may queue rows at any
time, also between two chunks. What the database does is an input of each step.

| here | there |
| --- | --- |
| `rowKey`, `prepareDbRow` | `_row_key` (:689), `_prepare_db_row` (:701) |
| `assigned`, `State.queue` | `_queue_rows` (:1081) |
| `ensureUsers` | `_ensure_users` (:1512) |
| `flushChunk` | `_flush_chunk` (:1575) |
| `State.begin`, `State.chunk`, `State.finish` | `_flush` (:1549), up to, at and after its loop |

* `State.chunk_steps`, `State.finish_steps` — the code's steps are steps of a `WriteBehind.Buffer`.
* `queued_rows_kept` — when every chunk acquires its connection, no queued row is lost.
* `failed_connection_loses` — when one does not, its rows are.
-/

namespace SlurmWeb.Jobs

open Strings Py

variable {F : Type} [Python F]

/-! ## Keyed rows -/

/-- `(job_id, submit_time)`, as a key of a `dict`. -/
abbrev JobKey (F : Type) : Type := Value.Atom F × Option DateTime

/-- `_row_key` (:689); a `job_id` that is a list or an object has no hash. -/
def rowKey (row : Row F) : Except Py.Error (JobKey F) := do return (← row.jobId.hash, row.submitTime)

/-- Where a row comes from; the source does not record it. -/
inductive Origin
  | listed
  | detail
  | completed
deriving DecidableEq

structure KeyedRow (F : Type) [Python F] where
  row : Row F
  origin : Origin
  key : JobKey F
  hashed : rowKey row = .ok key

def keyed (origin : Origin) (row : Row F) : Except Py.Error (KeyedRow F) :=
  match h : rowKey row with
  | .ok key => .ok ⟨row, origin, key, h⟩
  | .error e => .error e

def KeyedRow.withUser (r : KeyedRow F) (userId : Option Int) : KeyedRow F :=
  { r with row := { r.row with userId }, hashed := r.hashed }

/-- `_ensure_users` changes the `user_id` of a row in place. -/
structure SameRow (r r' : KeyedRow F) : Prop where
  key : r'.key = r.key
  origin : r'.origin = r.origin
  row : ∃ userId, r'.row = { r.row with userId }

theorem SameRow.refl (r : KeyedRow F) : SameRow r r := ⟨rfl, rfl, r.row.userId, rfl⟩

theorem SameRow.trans {r r' r'' : KeyedRow F} (h : SameRow r r') (h' : SameRow r' r'') : SameRow r r'' := by
  obtain ⟨userId, hrow⟩ := h'.row
  obtain ⟨_, hrow'⟩ := h.row
  exact ⟨h'.key.trans h.key, h'.origin.trans h.origin, userId, by rw [hrow, hrow']⟩

theorem sameRow_withUser (r : KeyedRow F) (userId : Option Int) : SameRow r (r.withUser userId) :=
  ⟨rfl, rfl, userId, rfl⟩

theorem rewriting_sameRow : WriteBehind.Rewriting (KeyedRow.key (F := F)) SameRow where
  refl := SameRow.refl
  trans _ _ _ := SameRow.trans
  key _ _ h := h.key.symm

/-- The assignments of `_queue_rows` (:1081), up to the first row without a hash. -/
def assigned : List (Origin × Row F) → List (KeyedRow F) × Except Py.Error Unit
  | [] => ([], .ok ())
  | (origin, row) :: rows =>
    match keyed origin row with
    | .ok r => (r :: (assigned rows).1, (assigned rows).2)
    | .error e => ([], .error e)

/-! ## Rows of the database -/

/-- `_round_metric` (:673) -/
def roundMetric (value : Option F) : Except Py.Error (Option F) :=
  match value with
  | none => return none
  | some x => do return some (← Python.quantize x)

/-- `_prepare_db_row` (:701) -/
def prepareDbRow (row : Row F) : Except Py.Error (Row F) := do
  let usedMemoryGb ← roundMetric row.usedMemoryGb
  let usedCpuCoresAvg ← roundMetric row.usedCpuCoresAvg
  return { row with usedMemoryGb, usedCpuCoresAvg }

/-- A row as it was sent to the database. -/
structure Upsert (F : Type) [Python F] where
  row : KeyedRow F
  dbRow : Row F
  prepared : prepareDbRow row.row = .ok dbRow

def upsert (row : KeyedRow F) : Except Py.Error (Upsert F) :=
  match h : prepareDbRow row.row with
  | .ok dbRow => .ok ⟨row, dbRow, h⟩
  | .error e => .error e

theorem upsert_row {row : KeyedRow F} {u : Upsert F} (h : upsert row = .ok u) : u.row = row := by
  unfold upsert at h
  split at h
  · cases h; rfl
  · cases h

/-- How a `commit` ends: an exception may come before or after the transaction took effect. -/
inductive Commit
  | done
  | lost
  | unknown

/-- What the database answers to one attempt at writing rows. -/
structure WriteEnv where
  /-- The ids of the users, `none` where a users statement fails. -/
  users : Option (Str → Option Int)
  execute : Bool
  commit : Commit

structure ChunkEnv where
  /-- `_get_conn` returns a connection. -/
  connection : Bool
  bulk : WriteEnv
  rows : Nat → WriteEnv

/-- `{row["user_name"] for row in rows if row.get("user_name")}`; `none` where a name is no text,
which either has no hash or fails in the users statements. -/
def userNames : List (KeyedRow F) → Option (List Str)
  | [] => some []
  | r :: rows =>
    if r.row.userName.truthy then
      match r.row.userName with
      | .str name => (userNames rows).map (name :: ·)
      | _ => none
    else userNames rows

/-- The last loop of `_ensure_users` (:1546), and whether it ended: `mapping.get` raises on a name without hash. -/
def assignUsers (mapping : Str → Option Int) : List (KeyedRow F) → List (KeyedRow F) × Bool
  | [] => ([], true)
  | r :: rows =>
    match r.row.userName with
    | .list _ | .dict _ => (r :: rows, false)
    | .str name => (r.withUser (mapping name) :: (assignUsers mapping rows).1, (assignUsers mapping rows).2)
    | _ => (r.withUser none :: (assignUsers mapping rows).1, (assignUsers mapping rows).2)

/-- `_ensure_users` (:1512): the rows it leaves, and whether it returned. -/
def ensureUsers (users : Option (Str → Option Int)) (rows : List (KeyedRow F)) : List (KeyedRow F) × Bool :=
  match userNames rows with
  | none => (rows, false)
  | some [] => (rows, true)
  | some _ =>
    match users with
    | none => (rows, false)
    | some mapping => assignUsers mapping rows

/-- An attempt at writing rows: the rows afterwards, what was committed, and whether it returned. -/
structure Attempt (F : Type) [Python F] where
  rows : List (KeyedRow F)
  committed : List (Upsert F)
  ok : Bool

/-- The `try` block of `_flush_chunk` (:1579-1590, :1608-1619). -/
def writeRows (env : WriteEnv) (rows : List (KeyedRow F)) : Attempt F :=
  let (rows, ok) := ensureUsers env.users rows
  if !ok then ⟨rows, [], false⟩
  else match rows.mapM upsert with
    | .error _ => ⟨rows, [], false⟩
    | .ok upserts =>
      if !env.execute then ⟨rows, [], false⟩
      else match env.commit with
        | .done => ⟨rows, upserts, true⟩
        | .lost => ⟨rows, [], false⟩
        | .unknown => ⟨rows, upserts, false⟩

/-- The fallback of `_flush_chunk` (:1604-1629): what was committed, and the failed rows. -/
def writeRowByRow (envs : Nat → WriteEnv) : Nat → List (KeyedRow F) → List (Upsert F) × List (KeyedRow F)
  | _, [] => ([], [])
  | i, r :: rows =>
    let attempt := writeRows (envs i) [r]
    let rest := writeRowByRow envs (i + 1) rows
    (attempt.committed ++ rest.1, if attempt.ok then rest.2 else attempt.rows ++ rest.2)

/-- `_flush_chunk` (:1575); `none` where `_get_conn` raises. -/
def flushChunk (env : ChunkEnv) (chunk : List (KeyedRow F)) : Option (List (Upsert F) × List (KeyedRow F)) :=
  if !env.connection then none
  else
    let bulk := writeRows env.bulk chunk
    if bulk.ok then some (bulk.committed, [])
    else
      let fallback := writeRowByRow env.rows 0 bulk.rows
      some (bulk.committed ++ fallback.1, fallback.2)

/-! ## What an attempt leaves -/

/-- The upserts of rows, one each. -/
abbrev Written (rows : List (KeyedRow F)) (upserts : List (Upsert F)) : Prop :=
  List.Forall₂ (fun r u => SameRow r u.row) rows upserts

theorem forall₂_sameRow_refl (rows : List (KeyedRow F)) : List.Forall₂ SameRow rows rows :=
  List.forall₂_same.2 fun r _ => SameRow.refl r

theorem assignUsers_same (mapping : Str → Option Int) : ∀ rows : List (KeyedRow F),
    List.Forall₂ SameRow rows (assignUsers mapping rows).1
  | [] => .nil
  | r :: rows => by
    unfold assignUsers
    split
    · exact forall₂_sameRow_refl _
    · exact forall₂_sameRow_refl _
    · exact .cons (sameRow_withUser r _) (assignUsers_same mapping rows)
    · exact .cons (sameRow_withUser r _) (assignUsers_same mapping rows)

theorem ensureUsers_same (users : Option (Str → Option Int)) (rows : List (KeyedRow F)) :
    List.Forall₂ SameRow rows (ensureUsers users rows).1 := by
  unfold ensureUsers
  split
  · exact forall₂_sameRow_refl _
  · exact forall₂_sameRow_refl _
  · split
    · exact forall₂_sameRow_refl _
    · exact assignUsers_same _ _

theorem mapM_upsert_row {rows : List (KeyedRow F)} {upserts : List (Upsert F)} (h : rows.mapM upsert = .ok upserts) :
    List.Forall₂ (fun r u => u.row = r) rows upserts :=
  (Except.mapM_eq_ok.1 h).imp fun _ _ => upsert_row

/-- Rows change in their user alone; what is committed is all of them or nothing, and all of them
when the attempt returns. -/
structure AttemptSpec (rows : List (KeyedRow F)) (a : Attempt F) : Prop where
  same : List.Forall₂ SameRow rows a.rows
  atomic : a.committed = [] ∨ Written rows a.committed
  returned : a.ok = true → Written rows a.committed

/-- What is committed is one of the rows. -/
theorem AttemptSpec.written {rows : List (KeyedRow F)} {a : Attempt F} (h : AttemptSpec rows a) :
    ∀ w ∈ a.committed.map Upsert.row, ∃ q ∈ rows, SameRow q w := by
  rcases h.atomic with hnone | hall
  · rw [hnone]
    simp
  · exact (List.forall₂_map_right_iff.2 hall).exists_left

theorem writeRows_spec (env : WriteEnv) (rows : List (KeyedRow F)) : AttemptSpec rows (writeRows env rows) := by
  have hsame := ensureUsers_same env.users rows
  unfold writeRows
  cases hu : ensureUsers env.users rows with
  | mk rows' ok =>
    rw [hu] at hsame
    have hnothing : AttemptSpec rows ⟨rows', [], false⟩ := ⟨hsame, .inl rfl, by simp⟩
    dsimp only
    split
    · exact hnothing
    · cases hm : rows'.mapM upsert with
      | error e => exact hnothing
      | ok upserts =>
        have hwritten : Written rows upserts := hsame.comp (mapM_upsert_row hm) fun _ _ _ h hrow => hrow ▸ h
        dsimp only
        split
        · exact hnothing
        · cases env.commit with
          | done => exact ⟨hsame, .inr hwritten, fun _ => hwritten⟩
          | lost => exact hnothing
          | unknown => exact ⟨hsame, .inr hwritten, by simp⟩

/-! ## The store -/

/-- `BATCH_CHUNK` -/
def batchChunk : Nat := 500

/-- `batch[i : i + BATCH_CHUNK] for i in range(0, len(batch), BATCH_CHUNK)` -/
def chunks (batch : List (KeyedRow F)) : List (List (KeyedRow F)) :=
  (List.range ((batch.length + batchChunk - 1) / batchChunk)).map fun i => (batch.drop (batchChunk * i)).take batchChunk

theorem flatten_chunks (batch : List (KeyedRow F)) : (chunks batch).flatten = batch := by
  rw [chunks, List.flatten_slices]
  refine List.take_of_length_le ?_
  unfold batchChunk
  omega


/-- A row entering the pending map or the database. -/
inductive Entry (F : Type) [Python F]
  | queued (r : KeyedRow F)
  | persisted (u : Upsert F)

variable [DecidableEq F]

/-- `_pending`: every row under its own key. -/
structure Pending (F : Type) [Python F] [DecidableEq F] where
  rows : Dict (JobKey F) (KeyedRow F)
  keyed : ∀ k r, rows.get k = some r → r.key = k

namespace Pending

def empty : Pending F := ⟨∅, by simp⟩

def put (p : Pending F) (r : KeyedRow F) : Pending F where
  rows := p.rows.set r.key r
  keyed k r' h := by
    rw [Dict.get_set] at h
    split at h
    · cases h; assumption
    · exact p.keyed k r' h

/-- `{_row_key(row): row for row in failed}` -/
def ofRows (rows : List (KeyedRow F)) : Pending F := rows.foldl put empty

/-- `self.update(newer)` -/
def update (p newer : Pending F) : Pending F where
  rows := p.rows.update newer.rows.entries
  keyed k r h := by
    rcases Dict.get_update_mem h with h | h
    · exact newer.keyed k r (Dict.mem_entries_iff.1 h)
    · exact p.keyed k r h

end Pending

/-- A flush under way. -/
structure Flight (F : Type) [Python F] where
  todo : List (List (KeyedRow F))
  failed : List (KeyedRow F)

structure State (F : Type) [Python F] [DecidableEq F] where
  pending : Pending F
  flight : Option (Flight F)
  /-- Everything queued and persisted so far. -/
  history : List (Entry F)

def initial : State F := ⟨.empty, none, []⟩

namespace State

/-- `_queue_rows` (:1081); its exception is `(assigned rows).2`. -/
def queue (s : State F) (rows : List (Origin × Row F)) : State F :=
  { s with
    pending := (assigned rows).1.foldl Pending.put s.pending
    history := s.history ++ (assigned rows).1.map .queued }

/-- The start of `_flush` (:1549). -/
def begin (s : State F) : State F :=
  let batch := s.pending.rows.values
  if batch.isEmpty then s else { s with pending := .empty, flight := some ⟨chunks batch, []⟩ }

/-- One chunk (:1558); an exception ends the flush. -/
def chunk (s : State F) (env : ChunkEnv) : State F :=
  match s.flight with
  | some ⟨rows :: todo, failed⟩ =>
    match flushChunk env rows with
    | none => { s with flight := none }
    | some (committed, failed') =>
      { s with flight := some ⟨todo, failed ++ failed'⟩, history := s.history ++ committed.map .persisted }
  | _ => s

/-- The end of `_flush` (:1562). -/
def finish (s : State F) : State F :=
  match s.flight with
  | some ⟨[], failed⟩ =>
    if failed.isEmpty then { s with flight := none }
    else { s with pending := (Pending.ofRows failed).update s.pending, flight := none }
  | _ => s

end State

/-- The runs of a store whose chunks all see an allowed environment. -/
inductive Run (allowed : ChunkEnv → Prop) : State F → Prop
  | init : Run allowed initial
  | queue {s : State F} (rows : List (Origin × Row F)) : Run allowed s → Run allowed (s.queue rows)
  | begin {s : State F} : Run allowed s → s.flight = none → Run allowed s.begin
  | chunk {s : State F} (env : ChunkEnv) : Run allowed s → allowed env → Run allowed (s.chunk env)
  | finish {s : State F} : Run allowed s → Run allowed s.finish

/-- The row queued last under a key. -/
def latest (history : List (Entry F)) (k : JobKey F) : Option (KeyedRow F) :=
  history.foldl (fun last entry => match entry with
    | .queued r => if r.key = k then some r else last
    | .persisted _ => last) none

/-- The row persisted last under a key. -/
def lastPersisted (history : List (Entry F)) (k : JobKey F) : Option (Upsert F) :=
  history.foldl (fun last entry => match entry with
    | .queued _ => last
    | .persisted u => if u.row.key = k then some u else last) none

/-! ## The store as a write-behind buffer -/

namespace State

def flying (s : State F) : List (KeyedRow F) :=
  match s.flight with
  | some ⟨todo, failed⟩ => todo.flatten ++ failed
  | none => []

/-- What a store holds, as a buffer. -/
def buffer (s : State F) : WriteBehind.Buffer (JobKey F) (KeyedRow F) where
  latest := latest s.history
  waiting := s.pending.rows.get
  flying := s.flying
  written k := (lastPersisted s.history k).map Upsert.row

end State

abbrev Steps : WriteBehind.Buffer (JobKey F) (KeyedRow F) → WriteBehind.Buffer (JobKey F) (KeyedRow F) → Prop :=
  WriteBehind.Steps KeyedRow.key SameRow

theorem latest_queued (history : List (Entry F)) (r : KeyedRow F) :
    latest (history ++ [.queued r]) = Function.update (latest history) r.key (some r) := by
  funext k
  rw [latest, List.foldl_append]
  by_cases h : r.key = k
  · subst h; simp
  · simp [h, Function.update_of_ne (Ne.symm h), latest]

theorem lastPersisted_queued (history : List (Entry F)) (r : KeyedRow F) :
    lastPersisted (history ++ [.queued r]) = lastPersisted history := by
  funext k
  simp [lastPersisted]

theorem latest_persisted (history : List (Entry F)) (us : List (Upsert F)) :
    latest (history ++ us.map .persisted) = latest history := by
  induction us generalizing history with
  | nil => simp
  | cons u us ih =>
    rw [List.map_cons, List.append_cons, ih]
    funext k
    simp [latest]

theorem lastPersisted_persisted (history : List (Entry F)) (us : List (Upsert F)) :
    (fun k => (lastPersisted (history ++ us.map .persisted) k).map Upsert.row) =
      WriteBehind.writeAll KeyedRow.key (fun k => (lastPersisted history k).map Upsert.row) (us.map Upsert.row) := by
  induction us generalizing history with
  | nil => simp [WriteBehind.writeAll]
  | cons u us ih =>
    rw [List.map_cons, List.append_cons, ih, List.map_cons, WriteBehind.writeAll_cons]
    congr 1
    funext k
    rw [lastPersisted, List.foldl_append]
    by_cases h : u.row.key = k
    · subst h; simp
    · simp [h, Function.update_of_ne (Ne.symm h), lastPersisted]

namespace State

variable {s : State F}

theorem queue_steps (s : State F) (rows : List (Origin × Row F)) : Steps s.buffer (s.queue rows).buffer := by
  have h : ∀ (rows : List (KeyedRow F)) (s : State F), Steps s.buffer
      (buffer
        { s with pending := rows.foldl Pending.put s.pending, history := s.history ++ rows.map Entry.queued }) := by
    intro rows
    induction rows with
    | nil =>
      intro s
      simp only [List.foldl_nil, List.map_nil, List.append_nil]
      exact .refl
    | cons r rows ih =>
      intro s
      have hput : WriteBehind.Step KeyedRow.key SameRow s.buffer
          (buffer { s with pending := s.pending.put r, history := s.history ++ [Entry.queued r] }) := by
        have hwaiting : (s.pending.put r).rows.get = Function.update s.pending.rows.get r.key (some r) := by
          funext k
          by_cases h : r.key = k
          · subst h; simp [Pending.put]
          · simp [Pending.put, h, Function.update_of_ne (Ne.symm h)]
        have hstep : WriteBehind.Step KeyedRow.key SameRow s.buffer _ := .put s.buffer r
        simpa only [buffer, latest_queued, lastPersisted_queued, hwaiting, flying] using hstep
      have hrest := ih { s with pending := s.pending.put r, history := s.history ++ [Entry.queued r] }
      simp only [List.append_assoc, List.singleton_append] at hrest
      exact .head hput hrest
  exact h _ s

theorem begin_history (s : State F) : s.begin.history = s.history := by
  unfold begin
  dsimp only
  split <;> rfl

theorem begin_steps (hidle : s.flight = none) : Steps s.buffer s.begin.buffer := by
  unfold begin
  dsimp only
  split
  · exact .refl
  · refine .single ?_
    have hflying : s.flying = [] := by rw [flying, hidle]
    have hall : ∀ k r, s.pending.rows.get k = some r → r.key = k ∧ r ∈ s.pending.rows.values :=
      fun k r h => ⟨s.pending.keyed k r h, Dict.mem_values_iff.2 ⟨k, h⟩⟩
    have honly : ∀ r ∈ s.pending.rows.values, s.pending.rows.get r.key = some r := by
      intro r hr
      obtain ⟨k, hk⟩ := Dict.mem_values_iff.1 hr
      rwa [s.pending.keyed k r hk]
    have hempty : (Pending.empty : Pending F).rows.get = fun _ => none := by
      funext k
      exact Dict.get_empty k
    have hstep : WriteBehind.Step KeyedRow.key SameRow s.buffer _ := .take s.buffer _ hflying hall honly
    simpa [buffer, flying, flatten_chunks, hempty] using hstep

/-- A row tried alone is written and leaves, or moves behind the others, perhaps written. -/
theorem attempt_steps {b : WriteBehind.Buffer (JobKey F) (KeyedRow F)} {r : KeyedRow F} {rest : List (KeyedRow F)}
    {a : Attempt F} (hspec : AttemptSpec [r] a) (hb : b.flying = r :: rest) :
    Steps b { b with
      flying := rest ++ if a.ok then [] else a.rows
      written := WriteBehind.writeAll KeyedRow.key b.written (a.committed.map Upsert.row) } := by
  obtain ⟨rows, committed, ok⟩ := a
  cases ok with
  | true =>
    have hwritten : List.Forall₂ SameRow [r] (committed.map Upsert.row) :=
      List.forall₂_map_right_iff.2 (hspec.returned rfl)
    simpa using WriteBehind.steps_deliverAll rewriting_sameRow hwritten hb
  | false =>
    have hwritten : ∀ w ∈ committed.map Upsert.row, ∃ q ∈ b.flying, SameRow q w := by
      intro w hw
      obtain ⟨q, hq, hsame⟩ := hspec.written w hw
      exact ⟨q, by rw [hb, List.mem_singleton.1 hq]; exact List.mem_cons_self, hsame⟩
    cases hspec.same with
    | cons hsame htail =>
      cases htail
      exact (WriteBehind.steps_writeAll _ hwritten).trans (WriteBehind.steps_defer rewriting_sameRow hb hsame)

/-- Rows tried one by one. -/
theorem rowByRow_steps (envs : Nat → WriteEnv) (rows : List (KeyedRow F)) : ∀ (i : Nat)
    {b : WriteBehind.Buffer (JobKey F) (KeyedRow F)} {rest : List (KeyedRow F)}, b.flying = rows ++ rest →
      Steps b { b with
        flying := rest ++ (writeRowByRow envs i rows).2
        written := WriteBehind.writeAll KeyedRow.key b.written ((writeRowByRow envs i rows).1.map Upsert.row) } := by
  induction rows with
  | nil =>
    intro i b rest hb
    cases b
    cases hb
    simp only [writeRowByRow, List.append_nil]
    exact .refl
  | cons r rows ih =>
    intro i b rest hb
    have hfirst := attempt_steps (writeRows_spec (envs i) [r]) hb
    have hrest := hfirst.trans (ih (i + 1) (List.append_assoc rows rest _))
    have hfailed : (writeRowByRow envs i (r :: rows)).2 =
        (if (writeRows (envs i) [r]).ok then [] else (writeRows (envs i) [r]).rows) ++
          (writeRowByRow envs (i + 1) rows).2 := by
      rw [writeRowByRow]
      split <;> simp_all
    rw [hfailed, writeRowByRow, List.map_append, WriteBehind.writeAll_append]
    simpa [List.append_assoc] using hrest

/-- A chunk that acquires its connection: its rows are written, or join the failed rows. -/
theorem chunk_steps {env : ChunkEnv} (hconn : env.connection = true) : Steps s.buffer (s.chunk env).buffer := by
  obtain ⟨pending, flight, history⟩ := s
  unfold chunk
  dsimp only
  split
  next rows todo failed =>
    have hspec := writeRows_spec env.bulk rows
    simp only [flushChunk, hconn, Bool.not_true, Bool.false_eq_true, if_false]
    generalize writeRows env.bulk rows = bulk at hspec
    obtain ⟨rows', committed, ok⟩ := bulk
    have hb : (buffer ⟨pending, some ⟨rows :: todo, failed⟩, history⟩).flying = rows ++ (todo.flatten ++ failed) := by
      simp [buffer, flying]
    cases ok with
    | true =>
      have hwritten : List.Forall₂ SameRow rows (committed.map Upsert.row) :=
        List.forall₂_map_right_iff.2 (hspec.returned rfl)
      have h := WriteBehind.steps_deliverAll rewriting_sameRow hwritten hb
      simpa [buffer, flying, latest_persisted, lastPersisted_persisted] using h
    | false =>
      have hwritten : ∀ w ∈ committed.map Upsert.row,
          ∃ q ∈ (buffer ⟨pending, some ⟨rows :: todo, failed⟩, history⟩).flying, SameRow q w := by
        intro w hw
        obtain ⟨q, hq, hsame⟩ := hspec.written w hw
        exact ⟨q, by rw [hb]; exact List.mem_append_left _ hq, hsame⟩
      have h := ((WriteBehind.steps_writeAll _ hwritten).trans
        (WriteBehind.steps_rewrite rewriting_sameRow hb hspec.same)).trans (rowByRow_steps env.rows rows' 0 rfl)
      rw [← WriteBehind.writeAll_append, ← List.map_append] at h
      simpa [-List.map_append, buffer, flying, latest_persisted, lastPersisted_persisted, List.append_assoc] using h
  next => exact .refl

/-- The rows put back are failed rows, and each has its key there. -/
theorem ofRows_get (rows : List (KeyedRow F)) :
    (∀ k r, (Pending.ofRows rows).rows.get k = some r → r.key = k ∧ r ∈ rows) ∧
      ∀ r ∈ rows, ((Pending.ofRows rows).rows.get r.key).isSome := by
  have h : ∀ (rows : List (KeyedRow F)) (p : Pending F),
      (∀ k r, (rows.foldl Pending.put p).rows.get k = some r → r ∈ rows ∨ p.rows.get k = some r) ∧
        (∀ k, (p.rows.get k).isSome → ((rows.foldl Pending.put p).rows.get k).isSome) ∧
          ∀ r ∈ rows, ((rows.foldl Pending.put p).rows.get r.key).isSome := by
    intro rows
    induction rows with
    | nil => exact fun p => ⟨fun _ _ h => .inr h, fun _ h => h, by simp⟩
    | cons r rows ih =>
      intro p
      obtain ⟨hfrom, hkeep, hall⟩ := ih (p.put r)
      have hput : ∀ k, (p.put r).rows.get k = if r.key = k then some r else p.rows.get k :=
        fun k => Dict.get_set p.rows r.key k r
      refine ⟨fun k q hq => ?_, fun k hk => hkeep k ?_, fun q hq => ?_⟩
      · rcases hfrom k q hq with hmem | hold
        · exact .inl (List.mem_cons_of_mem _ hmem)
        · rw [hput] at hold
          split at hold
          · cases hold; exact .inl List.mem_cons_self
          · exact .inr hold
      · rw [hput]
        split
        · rfl
        · exact hk
      · rcases List.mem_cons.1 hq with rfl | hq
        · exact hkeep q.key (by rw [hput, if_pos rfl]; rfl)
        · exact hall q hq
  refine ⟨fun k r hr => ⟨(Pending.ofRows rows).keyed k r hr, ?_⟩, (h rows .empty).2.2⟩
  rcases (h rows .empty).1 k r hr with hmem | hempty
  · exact hmem
  · cases hempty.symm.trans (Dict.get_empty k)

/-- The failed rows go back unless newer ones wait. -/
theorem finish_steps : Steps s.buffer s.finish.buffer := by
  obtain ⟨pending, flight, history⟩ := s
  unfold finish
  dsimp only
  split
  next failed =>
    have hflying : (buffer ⟨pending, some ⟨[], failed⟩, history⟩).flying = failed := by simp [buffer, flying]
    split
    next hempty =>
      obtain rfl := List.isEmpty_iff.1 hempty
      exact .refl
    next =>
      have hget : ∀ k, ((Pending.ofRows failed).update pending).rows.get k =
          (pending.rows.get k).or ((Pending.ofRows failed).rows.get k) := Dict.get_update_entries _ _
      obtain ⟨hfrom, hall⟩ := ofRows_get failed
      refine .single (.requeue (buffer ⟨pending, some ⟨[], failed⟩, history⟩) _ ?_ ?_ ?_)
      · intro k r hr
        rw [hget, show pending.rows.get k = some r from hr, Option.some_or]
      · intro k r hnone hr
        rw [hget, show pending.rows.get k = none from hnone, Option.none_or] at hr
        rw [hflying]
        exact hfrom k r hr
      · intro r hr
        rw [hflying] at hr
        rw [hget, Option.isSome_or, hall r hr, Bool.or_true]
  next => exact .refl

end State

/-! ## No queued row is lost -/

theorem covered_initial : WriteBehind.Covered KeyedRow.key SameRow (initial : State F).buffer := by
  have hempty : (Pending.empty : Pending F).rows.get = fun _ => none := by
    funext k
    exact Dict.get_empty k
  have h : (initial : State F).buffer = ⟨fun _ => none, fun _ => none, [], fun _ => none⟩ := by
    simp [State.buffer, State.flying, initial, hempty, latest, lastPersisted, funext_iff]
  exact h ▸ WriteBehind.covered_empty

theorem Run.covered {s : State F} (h : Run (fun env => env.connection = true) s) :
    WriteBehind.Covered KeyedRow.key SameRow s.buffer := by
  induction h with
  | init => exact covered_initial
  | queue rows _ ih => exact ih.steps rewriting_sameRow (State.queue_steps _ rows)
  | begin _ hidle ih => exact ih.steps rewriting_sameRow (State.begin_steps hidle)
  | chunk env _ hconn ih => exact ih.steps rewriting_sameRow (State.chunk_steps hconn)
  | finish _ ih => exact ih.steps rewriting_sameRow State.finish_steps

/-- Every key ever queued is pending or persisted with its last row, and no older row is pending. -/
def Kept (s : State F) : Prop :=
  ∀ k r, latest s.history k = some r →
    (∀ r', s.pending.rows.get k = some r' → SameRow r r') ∧
      ((∃ r', s.pending.rows.get k = some r' ∧ SameRow r r') ∨
        ∃ u, lastPersisted s.history k = some u ∧ SameRow r u.row)

/-- **No queued row is lost** by a store whose flushes acquire their connections, whatever else fails. -/
theorem queued_rows_kept {s : State F} (h : Run (fun env => env.connection = true) s) (hidle : s.flight = none) :
    Kept s := by
  intro k r hlast
  have hflying : s.buffer.flying = [] := by rw [State.buffer, State.flying, hidle]
  obtain ⟨hwaiting, hkept⟩ := h.covered.kept hflying hlast
  refine ⟨hwaiting, hkept.imp_right ?_⟩
  rintro ⟨r', hr', hsame⟩
  obtain ⟨u, hu, rfl⟩ := Option.map_eq_some_iff.1 hr'
  exact ⟨u, hu, hsame⟩

/-- An exception of `_get_conn` leaves the batch nowhere. -/
theorem chunk_without_connection {s : State F} {rows : List (KeyedRow F)} {todo : List (List (KeyedRow F))}
    {failed : List (KeyedRow F)} (hflight : s.flight = some ⟨rows :: todo, failed⟩) {env : ChunkEnv}
    (hconn : env.connection = false) : s.chunk env = { s with flight := none } := by
  simp [State.chunk, hflight, flushChunk, hconn]

/-- One row, one flush, no connection. -/
theorem failed_connection_loses {origin : Origin} {row : Row F} {r : KeyedRow F} (hr : keyed origin row = .ok r)
    {env : ChunkEnv} (hconn : env.connection = false) :
    ¬ Kept (((initial.queue [(origin, row)]).begin).chunk env) := by
  have hassigned : assigned [(origin, row)] = ([r], .ok ()) := by simp [assigned, hr]
  have hqueue : (initial.queue [(origin, row)]).pending.rows.entries = [(r.key, r)] := by
    simp only [State.queue, hassigned, initial]
    rfl
  have hflight : (initial.queue [(origin, row)]).begin.flight = some ⟨[[r]], []⟩ := by
    simp [State.begin, Dict.values, hqueue, chunks, batchChunk, List.range_succ]
  rw [chunk_without_connection hflight hconn]
  intro hkept
  have hhistory : (initial.queue [(origin, row)]).begin.history = [.queued r] := by
    simp [State.begin_history, State.queue, hassigned, initial]
  have hlast : latest (initial.queue [(origin, row)]).begin.history r.key = some r := by
    simp [hhistory, latest]
  have hpersisted : lastPersisted (initial.queue [(origin, row)]).begin.history r.key = none := by
    simp [hhistory, lastPersisted]
  have hpending : (initial.queue [(origin, row)]).begin.pending = .empty := by
    simp [State.begin, Dict.values, hqueue]
  rcases (hkept r.key r hlast).2 with ⟨r', hr', -⟩ | ⟨u, hu, -⟩
  · rw [hpending] at hr'
    cases hr'.symm.trans (Dict.get_empty r.key)
  · cases hu.symm.trans hpersisted

/-- A row with nothing but its key and state. -/
def bareRow (jobId submitTime : Int) (jobState : Str) : Row ℚ where
  jobId := .int jobId
  jobName := .none
  jobState := some jobState
  stateReason := .none
  userName := .none
  userId := none
  account := .none
  group := .none
  partition := .none
  qos := .none
  nodes := .none
  nodeCount := none
  cpus := none
  priority := none
  tresReqStr := none
  tresPerJob := none
  tresPerNode := none
  gresDetail := none
  tresRequested := none
  tresAllocated := none
  submitTime := some submitTime
  startTime := none
  endTime := none
  eligibleTime := none
  lastSchedEvaluationTime := none
  timeLimitMinutes := none
  usedMemoryGb := none
  usageStats := none
  usedCpuCoresAvg := none
  exitCode := none
  workingDirectory := .none
  command := .none

/-- A database that fails every write after the connection. -/
def failingWrites : ChunkEnv := ⟨true, ⟨none, false, .lost⟩, fun _ => ⟨none, true, .unknown⟩⟩

/-- One queued row and one failing flush. -/
def failedFlush : State ℚ :=
  (((initial.queue [(.listed, bareRow 7 1 "RUNNING")]).begin).chunk failingWrites).finish

theorem queued_rows_kept_failedFlush : Kept failedFlush :=
  queued_rows_kept (.finish (.chunk _ (.begin (.queue _ .init) rfl) rfl)) rfl

/-- Without the connection the row is lost. -/
theorem unconnected_run_loses :
    ¬ ∀ s : State ℚ, Run (fun _ => True) s → s.flight = none → Kept s := by
  intro h
  have hrun : Run (fun _ => True) (((initial.queue [(.listed, bareRow 7 1 "RUNNING")]).begin).chunk
      { failingWrites with connection := false }) := .chunk _ (.begin (.queue _ .init) rfl) trivial
  have hkeyed : keyed .listed (bareRow 7 1 "RUNNING") = .ok ⟨_, _, (.int 7, some 1), rfl⟩ := rfl
  exact failed_connection_loses hkeyed rfl (h _ hrun rfl)

end SlurmWeb.Jobs
