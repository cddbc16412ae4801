import SlurmWeb.Lib.Paging
import SlurmWeb.Lib.Dict
import SlurmWeb.Lib.Strings

/-!
# The job history, page by page (slurmweb/persistence/jobs_store.py)

A query of the history filters, sorts and cuts out a page. Snapshots are unique on `(job_id, submit_time)`;
every criterion but the submission time breaks its ties by `job_id` alone.

| here | there |
| --- | --- |
| `Snapshot`, `SnapshotTable` | `job_snapshots` joined with `users`, the columns read here (models/modes.py:105) |
| `HISTORY_SORT_FIELDS`, `historySortClause` | :145, :155 |
| `rowMatches`, `query` | `JobsStore.query` (:767) |

What the database makes of `LIKE`, of `ILIKE` and of the order of texts is a parameter.

* `rowOrder_tied` — which snapshots a clause leaves tied.
* `pages_iff` — pages are exact, for every page size, where no matching job occurs with two submission
  times and the same sort columns.
* `requeued_job_missed` — where one does.
-/

namespace SlurmWeb.Jobs.History

open Strings Paging

/-- A snapshot, with the name of its user. Times are microseconds since the epoch. -/
structure Snapshot where
  id : Int
  jobId : Int
  submitTime : Int
  startTime : Option Int
  jobState : Option Str
  username : Option Str
  account : Option Str
  partition : Option Str
  qos : Option Str
  priority : Option Int
  nodeCount : Option Int
  cpus : Option Int
  workingDirectory : Option Str
  command : Option Str
deriving DecidableEq

/-- `job_snapshots`, with its unique index. -/
structure SnapshotTable where
  rows : List Snapshot
  unique : (rows.map fun row => (row.jobId, row.submitTime)).Nodup

/-- The operators of the database. -/
structure Database where
  like : Str → Str → Bool
  ilike : Str → Str → Bool
  /-- The collation: texts in order. -/
  textLe : Str → Str → Prop
  textLe_total : ∀ a b, textLe a b ∨ textLe b a
  textLe_trans : ∀ a b c, textLe a b → textLe b c → textLe a c
  textLe_antisymm : ∀ a b, textLe a b → textLe b a → a = b

/-! ## The sort clause -/

inductive Column
  | submitTime | jobId | jobState | username | priority | nodeCount | cpus
deriving DecidableEq

inductive Scalar
  | int (n : Int)
  | text (s : Str)
deriving DecidableEq

def Snapshot.column (row : Snapshot) : Column → Option Scalar
  | .submitTime => some (.int row.submitTime)
  | .jobId => some (.int row.jobId)
  | .jobState => row.jobState.map .text
  | .username => row.username.map .text
  | .priority => row.priority.map .int
  | .nodeCount => row.nodeCount.map .int
  | .cpus => row.cpus.map .int

/-- `column ASC|DESC NULLS FIRST|LAST` -/
structure OrderItem where
  column : Column
  ascending : Bool
  nullsFirst : Bool

/-- `_HISTORY_SORT_FIELDS` (:145) -/
def HISTORY_SORT_FIELDS : Dict Str (List Column) := Dict.ofList [
  ("submit_time", [.submitTime]),
  ("id", [.jobId]),
  ("state", [.jobState]),
  ("user", [.username]),
  ("priority", [.priority]),
  ("resources", [.nodeCount, .cpus])]

/-- `sort if sort in _HISTORY_SORT_FIELDS else "submit_time"` -/
def selectedSort (sort : Option Str) : Str :=
  match sort with
  | some sort => if (HISTORY_SORT_FIELDS.get sort).isSome then sort else "submit_time"
  | none => "submit_time"

def sortColumns (sort : Option Str) : List Column := (HISTORY_SORT_FIELDS.get (selectedSort sort)).getD []

/-- `_history_sort_clause` (:155). Without `NULLS`, nulls count as the largest values. -/
def historySortClause (sort order : Option Str) : List OrderItem :=
  let ascending := decide (order = some "asc".toList)
  let columns := (sortColumns sort).map fun column => ⟨column, ascending, ascending⟩
  if selectedSort sort ≠ "id".toList then columns ++ [⟨.jobId, ascending, !ascending⟩] else columns

/-! ## The query -/

/-- The filters of a query; what is not given is `none`. -/
structure Filters where
  start : Option Int
  stop : Option Int
  user : Option Str
  account : Option Str
  partition : Option Str
  qos : Option Str
  state : Option Str
  keyword : Option Str
  jobId : Option Int
  sort : Option Str
  order : Option Str

variable (db : Database)

/-- `if filters.get(..)`: an empty text is no filter. -/
def given (text : Option Str) : Option Str := text.filter (· ≠ [])

def equals (column text : Option Str) : Bool := (given text).all fun text => decide (column = some text)

/-- The `WHERE` clause (:775-802). -/
def rowMatches (filters : Filters) (row : Snapshot) : Bool :=
  filters.start.all (fun start => decide (start ≤ row.submitTime)) &&
    filters.stop.all (fun stop => decide (row.submitTime ≤ stop)) &&
    equals row.username filters.user && equals row.account filters.account && equals row.partition filters.partition &&
    equals row.qos filters.qos &&
    (given filters.state).all (fun state => row.jobState.any (db.like ("%".toList ++ state ++ "%"))) &&
    (given filters.keyword).all (fun keyword =>
      db.ilike ("%".toList ++ keyword ++ "%") (row.workingDirectory.getD []) ||
      db.ilike ("%".toList ++ keyword ++ "%") (row.command.getD [])) &&
    filters.jobId.all fun jobId => decide (row.jobId = jobId)

def matching (filters : Filters) (history : SnapshotTable) : List Snapshot :=
  history.rows.filter (rowMatches db filters)

/-- `min(500, max(1, page_size))` -/
def clampPageSize (pageSize : Int) : Nat := (min 500 (max 1 pageSize)).toNat

structure Result where
  total : Nat
  page : Int
  pageSize : Nat
  jobs : List Snapshot

/-- `query` (:767), where the database orders the matching rows as in `answer`. -/
def query (filters : Filters) (page pageSize : Int) (history : SnapshotTable) (answer : List Snapshot) : Result where
  total := (matching db filters history).length
  page := max 1 page
  pageSize := clampPageSize pageSize
  jobs := (answer.drop ((max 1 page - 1).toNat * clampPageSize pageSize)).take (clampPageSize pageSize)

/-! ## The order of a clause -/

def scalarLe : Scalar → Scalar → Prop
  | .int m, .int n => m ≤ n
  | .text s, .text t => db.textLe s t
  | .int _, .text _ => True
  | .text _, .int _ => False

theorem scalarLe_total (x y : Scalar) : scalarLe db x y ∨ scalarLe db y x := by
  cases x <;> cases y <;> simp only [scalarLe, or_true, true_or]
  next m n => exact le_total m n
  next s t => exact db.textLe_total s t

theorem scalarLe_trans (x y z : Scalar) (hxy : scalarLe db x y) (hyz : scalarLe db y z) : scalarLe db x z := by
  cases x <;> cases y <;> cases z <;> simp only [scalarLe] at *
  next m n k => exact le_trans hxy hyz
  next s t u => exact db.textLe_trans s t u hxy hyz

theorem scalarLe_antisymm {x y : Scalar} (hxy : scalarLe db x y) (hyx : scalarLe db y x) : x = y := by
  cases x <;> cases y <;> simp only [scalarLe] at *
  next m n => rw [le_antisymm hxy hyx]
  next s t => rw [db.textLe_antisymm s t hxy hyx]

/-- How the database orders the values of a column. -/
def columnOrder (ascending nullsFirst : Bool) : RowOrder (Option Scalar) where
  le
    | none, none => True
    | none, some _ => nullsFirst = true
    | some _, none => nullsFirst = false
    | some x, some y => if ascending then scalarLe db x y else scalarLe db y x
  total x y := by
    cases x <;> cases y <;> cases nullsFirst <;> cases ascending <;> simp [scalarLe_total]
  trans x y z hxy hyz := by
    cases x <;> cases y <;> cases z <;> cases nullsFirst <;> cases ascending <;> simp at *
    all_goals first | exact scalarLe_trans db _ _ _ hxy hyz | exact scalarLe_trans db _ _ _ hyz hxy

theorem columnOrder_tied {ascending nullsFirst : Bool} {x y : Option Scalar} :
    (columnOrder db ascending nullsFirst).Tied x y ↔ x = y := by
  constructor
  · rintro ⟨hxy, hyx⟩
    cases x <;> cases y <;> cases nullsFirst <;> cases ascending <;> simp [columnOrder] at *
    all_goals first | exact scalarLe_antisymm db hxy hyx | exact scalarLe_antisymm db hyx hxy
  · rintro rfl
    exact ⟨RowOrder.refl _ _, RowOrder.refl _ _⟩

def itemOrder (item : OrderItem) : RowOrder Snapshot :=
  (columnOrder db item.ascending item.nullsFirst).on fun row => row.column item.column

/-- The order of `ORDER BY`. -/
def rowOrder (sort order : Option Str) : RowOrder Snapshot :=
  RowOrder.clause ((historySortClause sort order).map (itemOrder db))

/-! ## Pages -/

variable {db}

theorem mem_historySortClause {sort order : Option Str} {item : OrderItem} (h : item ∈ historySortClause sort order) :
    item.column ∈ sortColumns sort ∨ item.column = .jobId := by
  have hcolumns : item ∈ (sortColumns sort).map (fun column =>
      (⟨column, decide (order = some "asc".toList), decide (order = some "asc".toList)⟩ : OrderItem)) →
      item.column ∈ sortColumns sort := by
    intro hitem
    obtain ⟨column, hcolumn, rfl⟩ := List.mem_map.1 hitem
    exact hcolumn
  rw [historySortClause] at h
  split at h
  · rcases List.mem_append.1 h with h | h
    · exact .inl (hcolumns h)
    · rw [List.mem_singleton.1 h]
      exact .inr rfl
  · exact .inl (hcolumns h)

theorem column_mem_clause {sort order : Option Str} {column : Column}
    (h : column ∈ sortColumns sort ∨ column = .jobId) :
    ∃ item ∈ historySortClause sort order, item.column = column := by
  have hcolumns : ∀ c ∈ sortColumns sort, ∃ item ∈ historySortClause sort order, item.column = c := by
    intro c hc
    refine ⟨⟨c, decide (order = some "asc".toList), decide (order = some "asc".toList)⟩, ?_, rfl⟩
    have hitem := List.mem_map_of_mem (f := fun column =>
      (⟨column, decide (order = some "asc".toList), decide (order = some "asc".toList)⟩ : OrderItem)) hc
    rw [historySortClause]
    split
    · exact List.mem_append_left _ hitem
    · exact hitem
  rcases h with h | rfl
  · exact hcolumns column h
  · by_cases hid : selectedSort sort = "id".toList
    · refine hcolumns .jobId ?_
      rw [sortColumns, hid]
      decide
    · refine ⟨⟨.jobId, decide (order = some "asc".toList), !decide (order = some "asc".toList)⟩, ?_, rfl⟩
      rw [historySortClause, if_pos hid]
      exact List.mem_append_right _ (List.mem_singleton.2 rfl)

/-- A clause leaves snapshots tied that have the same job id and the same values in the columns of the
criterion. -/
theorem rowOrder_tied {sort order : Option Str} {a b : Snapshot} :
    (rowOrder db sort order).Tied a b ↔ a.jobId = b.jobId ∧ ∀ c ∈ sortColumns sort, a.column c = b.column c := by
  have hitem : ∀ item : OrderItem, (itemOrder db item).Tied a b ↔ a.column item.column = b.column item.column :=
    fun item => columnOrder_tied db
  rw [rowOrder, RowOrder.tied_clause]
  simp only [List.forall_mem_map, hitem]
  constructor
  · intro h
    have hcolumn : ∀ c, c ∈ sortColumns sort ∨ c = .jobId → a.column c = b.column c := by
      intro c hc
      obtain ⟨item, hmem, rfl⟩ := column_mem_clause hc
      exact h item hmem
    refine ⟨?_, fun c hc => hcolumn c (.inl hc)⟩
    have hjob := hcolumn .jobId (.inr rfl)
    simpa [Snapshot.column] using hjob
  · rintro ⟨hjob, hcolumns⟩ item hmem
    rcases mem_historySortClause hmem with hc | hc
    · exact hcolumns _ hc
    · rw [hc, Snapshot.column, Snapshot.column, hjob]

theorem matching_nodup (filters : Filters) (history : SnapshotTable) : (matching db filters history).Nodup :=
  (List.Nodup.of_map _ history.unique).filter _

theorem eq_of_key {filters : Filters} {history : SnapshotTable} {a b : Snapshot} (ha : a ∈ matching db filters history)
    (hb : b ∈ matching db filters history) (hjob : a.jobId = b.jobId)
      (htime : a.submitTime = b.submitTime) : a = b := by
  have hinj := List.inj_on_of_nodup_map history.unique
  exact hinj (List.mem_of_mem_filter ha) (List.mem_of_mem_filter hb) (Prod.ext hjob htime)

/-- What the queries for pages `1` to `count` return, each with an answer of its own. -/
def readPages (db : Database) (filters : Filters) (pageSize : Int) (history : SnapshotTable)
    (answers : Nat → List Snapshot) (count : Nat) : List Snapshot :=
  (List.range count).flatMap fun n : Nat => (query db filters ((n : Int) + 1) pageSize history (answers n)).jobs

theorem readPages_eq (filters : Filters) (pageSize : Int) (history : SnapshotTable)
    (answers : Nat → List Snapshot) (count : Nat) :
    readPages db filters pageSize history answers count = Paging.read answers (clampPageSize pageSize) count := by
  rw [readPages, Paging.read]
  congr 1
  funext n
  have hoffset : (max 1 ((n : Int) + 1) - 1).toNat * clampPageSize pageSize = clampPageSize pageSize * n := by
    have hn : (max 1 ((n : Int) + 1) - 1).toNat = n := by omega
    rw [hn, Nat.mul_comm]
  simp only [query, Paging.page, hoffset]

/-- Reading all pages yields every matching snapshot once, whatever order the database chooses. -/
def PagesExact (db : Database) (filters : Filters) (pageSize : Int) (history : SnapshotTable) : Prop :=
  ∀ answers : Nat → List Snapshot,
    (∀ n, Answer (rowOrder db filters.sort filters.order) (matching db filters history) (answers n)) →
    ∀ count, (matching db filters history).length ≤ clampPageSize pageSize * count →
      (readPages db filters pageSize history answers count).Perm (matching db filters history)

theorem pagesExact_iff (filters : Filters) (pageSize : Int) (history : SnapshotTable) :
    PagesExact db filters pageSize history ↔
    Paging.PagesExact (rowOrder db filters.sort filters.order) (matching db filters history)
      (clampPageSize pageSize) := by
  simp only [PagesExact, Paging.PagesExact, readPages_eq]

/-- Pages of one row are exact under a strict clause only. -/
theorem strict_of_pagesExact {filters : Filters} {history : SnapshotTable} (h : PagesExact db filters 1 history) :
    (rowOrder db filters.sort filters.order).Strict (matching db filters history) := by
  rw [pagesExact_iff] at h
  exact (pagesExact_one_iff (matching_nodup filters history)).1 h

/-- No matching job occurs with two submission times and the same values in the columns of the criterion. -/
def NoRequeueTied (db : Database) (filters : Filters) (history : SnapshotTable) : Prop :=
  ∀ a ∈ matching db filters history, ∀ b ∈ matching db filters history, a.jobId = b.jobId →
    a.submitTime ≠ b.submitTime → ∃ c ∈ sortColumns filters.sort, a.column c ≠ b.column c

theorem strict_iff {filters : Filters} {history : SnapshotTable} :
    (rowOrder db filters.sort filters.order).Strict (matching db filters history) ↔
      NoRequeueTied db filters history := by
  constructor
  · intro hstrict a ha b hb hjob htime
    by_contra hsame
    push Not at hsame
    have htied : (rowOrder db filters.sort filters.order).Tied a b := rowOrder_tied.2 ⟨hjob, hsame⟩
    exact htime (congrArg Snapshot.submitTime (hstrict a ha b hb htied))
  · intro h a ha b hb htied
    obtain ⟨hjob, hcolumns⟩ := rowOrder_tied.1 htied
    by_cases htime : a.submitTime = b.submitTime
    · exact eq_of_key ha hb hjob htime
    · obtain ⟨c, hc, hne⟩ := h a ha b hb hjob htime
      exact absurd (hcolumns c hc) hne

/-- Snapshots of a job differ in the submission time. -/
theorem noRequeueTied_of_submitTime {filters : Filters} {history : SnapshotTable}
    (hsort : selectedSort filters.sort = "submit_time".toList) : NoRequeueTied db filters history := by
  intro a _ b _ _ htime
  refine ⟨.submitTime, ?_, by simpa [Snapshot.column] using htime⟩
  rw [sortColumns, hsort]
  decide

/-- **Pages of the history.** Pages of every size yield every matching snapshot once, and the clause is a
strict order of these, exactly when no matching job occurs with two submission times and the same values
in the columns of the criterion; by submission time, always. -/
theorem pages_iff (db : Database) (filters : Filters) (history : SnapshotTable) :
    ((∀ pageSize, PagesExact db filters pageSize history) ↔ NoRequeueTied db filters history) ∧
    ((rowOrder db filters.sort filters.order).Strict (matching db filters history) ↔ NoRequeueTied db filters history) ∧
    (selectedSort filters.sort = "submit_time".toList → NoRequeueTied db filters history) := by
  refine ⟨⟨fun h => strict_iff.1 (strict_of_pagesExact (h 1)), fun h pageSize => ?_⟩, strict_iff,
    noRequeueTied_of_submitTime⟩
  rw [pagesExact_iff]
  exact pagesExact_of_strict (strict_iff.2 h) _

/-! ## A requeued job -/

/-- Texts in the order of their code points, without wildcards. -/
def codePoints : Database where
  like pattern text := decide (pattern = text)
  ilike pattern text := decide (pattern = text)
  textLe s t := s ≤ t
  textLe_total s t := le_total s t
  textLe_trans _ _ _ := le_trans
  textLe_antisymm _ _ := le_antisymm

/-- A run of job 7, submitted at a time. -/
def runOf7 (id submitTime : Int) : Snapshot :=
  ⟨id, 7, submitTime, none, some "COMPLETED".toList, some "ada".toList, none, none, none, none, none, none, none, none⟩

def requeued : SnapshotTable := ⟨[runOf7 1 10, runOf7 2 20], by decide⟩

def byState : Filters := ⟨none, none, none, none, none, none, none, none, none, some "state", none⟩

/-- Pages of one row may yield the first run of a requeued job twice, and the second never. -/
theorem requeued_job_missed : ∃ answers : Nat → List Snapshot,
    (∀ n, Answer (rowOrder codePoints byState.sort byState.order) (matching codePoints byState requeued) (answers n)) ∧
    readPages codePoints byState 1 requeued answers 2 = [runOf7 1 10, runOf7 1 10] ∧
    ¬ (readPages codePoints byState 1 requeued answers 2).Perm (matching codePoints byState requeued) := by
  have hmatching : matching codePoints byState requeued = [runOf7 1 10, runOf7 2 20] := by decide
  have htied : (rowOrder codePoints byState.sort byState.order).Tied (runOf7 1 10) (runOf7 2 20) := by
    rw [rowOrder_tied]
    decide
  have hread : readPages codePoints byState 1 requeued
      (fun n => if n = 0 then [runOf7 1 10, runOf7 2 20] else [runOf7 2 20, runOf7 1 10]) 2 =
        [runOf7 1 10, runOf7 1 10] := by
    decide
  refine ⟨_, fun n => ?_, hread, ?_⟩
  · rw [hmatching]
    by_cases hn : n = 0
    · rw [if_pos hn]
      exact ⟨.refl _, by simp [htied.1]⟩
    · rw [if_neg hn]
      exact ⟨.swap _ _ _, by simp [htied.2]⟩
  · rw [hread, hmatching]
    decide

end SlurmWeb.Jobs.History
